import TokenGraph.Proofs.Xogue.Analyzer

/-!
# Contests that lexemes win

In front of a blank a lexeme wins the contest, because the automata that are tried before its own
find no beginning that they accept. Mostly the first character already keeps them out; a slash and
the digits of an integer do not.
-/

namespace TokenGraph.Xogue

open Scanner

variable {c : Char} {w rest : Text}

/-! ### Trials that a first character decides -/

private theorem loses_of_rejects {p : Prototype} {steps : List BuildStep}
    (hp : p.scanner operators = scanner steps (isBoundary operators)) {s : Text}
    (hs : ((scanner steps (isBoundary operators)).run s).accepted = false) :
    ¬ p.Wins operators s := by
  rintro ⟨haccepted, -⟩
  rw [Prototype.scan, hp, hs] at haccepted
  cases haccepted

private theorem loses_of_stop {p : Prototype} {steps : List BuildStep}
    (hp : p.scanner operators = scanner steps (isBoundary operators))
    (hc : (scanner steps (isBoundary operators)).move 0 c = .stop false) :
    ¬ p.Wins operators (c :: rest) := by
  apply loses_of_rejects hp
  rw [run, Automaton.start, runFrom_of_stop hc]

theorem comment_loses (hc : c ≠ '/') : ¬ commentTrial.Wins operators (c :: rest) := by
  apply loses_of_stop rfl
  rw [comment_move, commentMove, if_neg hc]

theorem identifier_loses (hc : isWordStart c = false) :
    ¬ identifierTrial.Wins operators (c :: rest) := by
  apply loses_of_stop rfl
  simp [identifier_move, identifierMove, hc]

theorem string_loses (hc : c ≠ '"') : ¬ stringTrial.Wins operators (c :: rest) := by
  apply loses_of_stop rfl
  rw [string_move, stringMove, if_neg hc]

theorem char_loses (hc : c ≠ '\'') : ¬ charTrial.Wins operators (c :: rest) := by
  apply loses_of_stop rfl
  rw [char_move, charMove, if_neg hc]

theorem operator_graph :
    (operatorTrial.scanner operators).graph = .ofLiterals operators := by
  rw [Prototype.scanner, operatorTrial]

theorem operator_loses (hc : ∀ x ∈ operators, x.head? ≠ some c) :
    ¬ operatorTrial.Wins operators (c :: rest) := by
  rintro ⟨haccepted, -⟩
  rw [Prototype.scan, run_no_literal operator_graph hc] at haccepted
  cases haccepted

theorem floating_loses (hc : isDigit c = false) (hpoint : c ≠ '.') :
    ¬ floatingTrial.Wins operators (c :: rest) := by
  apply loses_of_stop rfl
  simp [floating_move, floatingMove, hc, hpoint]

theorem integer_loses (hc : isDigit c = false) :
    ¬ integerTrial.Wins operators (c :: rest) := by
  have hzero : c ≠ '0' := by
    rintro rfl
    cases hc
  apply loses_of_stop rfl
  simp [integer_move, integerMove, hc, hzero]

theorem space_loses (hc : isBlank c = false) : ¬ spaceTrial.Wins operators (c :: rest) := by
  apply loses_of_stop rfl
  simp [space_move, spaceMove, hc]

/-! ### Boundaries and heads -/

/-- The characters of operators are neither blank nor part of a word, and open no literal. -/
theorem operators_chars : ∀ x ∈ operators, x ≠ [] ∧ ∀ d ∈ x,
    isWordPart d = false ∧ isBlank d = false ∧ d ≠ '"' ∧ d ≠ '\'' := by
  have htable : ∀ x ∈ operators, x ≠ [] ∧ (x.all fun d =>
      !isWordPart d && !isBlank d && d ≠ '"' && d ≠ '\'') = true := by decide
  intro x hx
  obtain ⟨hne, hall⟩ := htable x hx
  refine ⟨hne, fun d hd => ?_⟩
  simpa [and_assoc] using List.all_eq_true.mp hall d hd

theorem operators_slash : ∀ x ∈ operators, x.head? = some '/' →
    x = ['/'] ∨ x = ['/', '='] := by
  decide

/-- Words and numbers do not run into a boundary. -/
theorem isWordPart_of_boundary (h : isBoundary operators c = true) : isWordPart c = false := by
  rw [isBoundary, Bool.or_eq_true] at h
  rcases h with hblank | hsymbol
  · rw [Bool.eq_false_iff]
    intro hpart
    have hrange := isWordPart_toNat hpart
    simp [isBlank] at hblank
    omega
  · obtain ⟨x, hx, hxc⟩ := List.any_eq_true.mp hsymbol
    obtain rfl := of_decide_eq_true hxc
    exact ((operators_chars _ hx).2 c (by simp)).1

private theorem no_operator_head (hc : isWordPart c = true ∨ isBlank c = true) :
    ∀ x ∈ operators, x.head? ≠ some c := by
  intro x hx hhead
  obtain ⟨v, rfl⟩ := List.head?_eq_some_iff.mp hhead
  obtain ⟨hpart, hblank, -⟩ := (operators_chars _ hx).2 c (by simp)
  simp [hpart, hblank] at hc

/-- Numbers other than those with a point in front. -/
private def DigitHead (w : Text) : Prop := ∃ d v, w = d :: v ∧ isDigit d = true

private theorem DigitHead.append (h : DigitHead w) (v : Text) : DigitHead (w ++ v) := by
  obtain ⟨d, u, rfl, hd⟩ := h
  exact ⟨d, u ++ v, rfl, hd⟩

private theorem Digits.digitHead (h : Digits w) : DigitHead w := by
  cases w with
  | nil => exact absurd rfl h.1
  | cons d v => exact ⟨d, v, rfl, h.2 d (by simp)⟩

private theorem IntegerText.digitHead (h : IntegerText w) : DigitHead w := by
  cases h with
  | decimal hw =>
    cases hw with
    | last hd | next hd | underline hd => exact ⟨_, _, rfl, hd⟩
  | binary | octal | hex => exact ⟨'0', _, rfl, by decide⟩

private theorem Mantissa.digitHead (h : Mantissa w) (hpoint : w.head? ≠ some '.') :
    DigitHead w := by
  cases h with
  | closed hw => exact hw.digitHead.append _
  | bare => exact absurd rfl hpoint

private theorem head_of_append {v : Text} (h : (w ++ v).head? ≠ some c) : w.head? ≠ some c := by
  intro hw
  rw [List.head?_append, hw] at h
  exact h rfl

private theorem Numeral.digitHead (h : Numeral w) (hpoint : w.head? ≠ some '.') :
    DigitHead w := by
  cases h with
  | pointed hw => exact hw.digitHead hpoint
  | scaled hw =>
    rcases hw with hw | hw
    · exact hw.digitHead.append _
    · exact (hw.digitHead (head_of_append hpoint)).append _

private theorem FloatText.digitHead (h : FloatText w) (hpoint : w.head? ≠ some '.') :
    DigitHead w := by
  cases h with
  | double hw => exact hw.digitHead hpoint
  | float hw =>
    rcases hw with hw | hw
    · exact hw.digitHead.append _
    · exact (hw.digitHead (head_of_append hpoint)).append _

/-! ### Contests -/

private theorem digit_loses {d : Char} (hd : isDigit d = true) :
    ∀ q ∈ [commentTrial, identifierTrial, stringTrial, charTrial, operatorTrial],
      ¬ q.Wins operators (d :: rest) := by
  have hne : ∀ {e : Char}, isDigit e = false → d ≠ e := fun he => ne_of_class hd he
  have hoperator : ∀ x ∈ operators, x.head? ≠ some d :=
    no_operator_head (.inl (isWordPart_of_isDigit hd))
  simpa using ⟨comment_loses (hne (by decide)), identifier_loses (isWordStart_of_isDigit hd),
    string_loses (hne (by decide)), char_loses (hne (by decide)), operator_loses hoperator⟩

theorem won_behind {p : Prototype} {before after : List Prototype} {s : Text}
    (htrials : analyzer.trials = before ++ p :: after)
    (hbefore : ∀ q ∈ before, ¬ q.Wins operators s) (hne : w ≠ [])
    (hp : p.scan operators s = ⟨true, w⟩) :
    contest operators s analyzer.trials [] = .won p w := by
  rw [htrials]
  exact contest_eq_won hbefore hne hp

private theorem comment_wins (hw : BlockComment w) :
    contest operators (w ++ c :: rest) analyzer.trials [] = .won commentTrial w := by
  have htrials : analyzer.trials = [] ++ commentTrial :: analyzer.trials.drop 1 := rfl
  have hne : w ≠ [] := by
    rintro rfl
    cases hw
  exact won_behind htrials (by simp) hne (run_comment (.inr hw) (c :: rest))

private theorem word_wins (hw : Word w) (hc : isBoundary operators c = true) :
    contest operators (w ++ c :: rest) analyzer.trials [] = .won identifierTrial w := by
  have htrials :
      analyzer.trials = [commentTrial] ++ identifierTrial :: analyzer.trials.drop 2 := rfl
  have hrun : identifierTrial.scan operators (w ++ c :: rest) = ⟨true, w⟩ :=
    run_word hw (isWordPart_of_boundary hc) hc rest
  obtain ⟨d, v, rfl, hd, -⟩ := hw
  refine won_behind htrials ?_ (by simp) hrun
  simpa using comment_loses (ne_of_class hd (by decide))

private theorem string_wins (hw : StringText w) :
    contest operators (w ++ c :: rest) analyzer.trials [] = .won stringTrial w := by
  have htrials : analyzer.trials =
      [commentTrial, identifierTrial] ++ stringTrial :: analyzer.trials.drop 3 := rfl
  have hrun : stringTrial.scan operators (w ++ c :: rest) = ⟨true, w⟩ := run_string hw c rest
  obtain ⟨-⟩ := hw
  refine won_behind htrials ?_ (by simp) hrun
  simpa using ⟨comment_loses (by decide), identifier_loses (by decide)⟩

private theorem char_wins (hw : CharText w) :
    contest operators (w ++ c :: rest) analyzer.trials [] = .won charTrial w := by
  have htrials : analyzer.trials = [commentTrial, identifierTrial, stringTrial] ++
      charTrial :: analyzer.trials.drop 4 := rfl
  have hrun : charTrial.scan operators (w ++ c :: rest) = ⟨true, w⟩ := run_char hw c rest
  obtain ⟨v, rfl⟩ : ∃ v, w = '\'' :: v := by
    cases hw with
    | plain | escaped => exact ⟨_, rfl⟩
  refine won_behind htrials ?_ (by simp) hrun
  simpa using ⟨comment_loses (by decide), identifier_loses (by decide), string_loses (by decide)⟩

/-- An operator is no comment: a slash has neither slash nor star behind it. -/
private theorem comment_loses_to_operator (hw : w ∈ operators) (hc : isBlank c = true) :
    ¬ commentTrial.Wins operators (w ++ c :: rest) := by
  obtain ⟨hne, -⟩ := operators_chars w hw
  cases w with
  | nil => exact absurd rfl hne
  | cons d v =>
    by_cases hd : d = '/'
    · subst hd
      have hrejects : ∀ {e : Char} {u : Text}, e ≠ '/' → e ≠ '*' →
          ¬ commentTrial.Wins operators ('/' :: e :: u) := by
        intro e u hslash hstar
        apply loses_of_rejects rfl
        rw [run_slash hslash hstar]
      rcases operators_slash _ hw rfl with h | h
      · obtain rfl : v = [] := (List.cons.inj h).2
        exact hrejects (ne_of_class hc (by decide)) (ne_of_class hc (by decide))
      · obtain rfl : v = ['='] := (List.cons.inj h).2
        exact hrejects (by decide) (by decide)
    · exact comment_loses hd

private theorem operator_wins (hw : w ∈ operators) (hc : isBlank c = true) :
    contest operators (w ++ c :: rest) analyzer.trials [] = .won operatorTrial w := by
  have htrials : analyzer.trials = [commentTrial, identifierTrial, stringTrial, charTrial] ++
      operatorTrial :: analyzer.trials.drop 5 := rfl
  have hblank : ∀ x ∈ operators, c ∉ x := by
    intro x hx hmem
    rw [((operators_chars x hx).2 c hmem).2.1] at hc
    cases hc
  obtain ⟨hne, hchars⟩ := operators_chars w hw
  have hrun : operatorTrial.scan operators (w ++ c :: rest) = ⟨true, w⟩ :=
    run_literal operator_graph hne hw hblank rest
  have hcomment : ¬ commentTrial.Wins operators (w ++ c :: rest) := comment_loses_to_operator hw hc
  refine won_behind htrials ?_ hne hrun
  cases w with
  | nil => exact absurd rfl hne
  | cons d v =>
    obtain ⟨hpart, -, hquote, hapostrophe⟩ := hchars d (by simp)
    have hstart : isWordStart d = false := (Bool.or_eq_false_iff.mp hpart).1
    simpa using ⟨hcomment, identifier_loses hstart, string_loses hquote, char_loses hapostrophe⟩

private theorem floating_wins (hw : FloatText w) (hpoint : w.head? ≠ some '.')
    (hc : isBoundary operators c = true) :
    contest operators (w ++ c :: rest) analyzer.trials [] = .won floatingTrial w := by
  have htrials : analyzer.trials =
      [commentTrial, identifierTrial, stringTrial, charTrial, operatorTrial] ++
        floatingTrial :: analyzer.trials.drop 6 := rfl
  have hrun : floatingTrial.scan operators (w ++ c :: rest) = ⟨true, w⟩ :=
    run_floating (fun _ => isWordPart_of_boundary) hw hc rest
  obtain ⟨d, v, rfl, hd⟩ := hw.digitHead hpoint
  exact won_behind htrials (digit_loses hd) (by simp) hrun

private theorem integer_wins (hw : IntegerText w) (hc : isBlank c = true) :
    contest operators (w ++ c :: rest) analyzer.trials [] = .won integerTrial w := by
  have hboundary : isBoundary operators c = true := by rw [isBoundary, hc, Bool.true_or]
  have htrials : analyzer.trials =
      ([commentTrial, identifierTrial, stringTrial, charTrial, operatorTrial] ++ [floatingTrial]) ++
        integerTrial :: analyzer.trials.drop 7 := rfl
  have hrun : integerTrial.scan operators (w ++ c :: rest) = ⟨true, w⟩ :=
    run_integer (fun _ => isWordPart_of_boundary) hw hboundary rest
  have hstop : floatingMove (isBoundary operators) c 1 = .stop false := by
    have hne : ∀ {d : Char}, isBlank d = false → c ≠ d := fun hd => ne_of_class hc hd
    have hdigit : isDigit c = false :=
      class_eq_false isWordPart_of_isDigit (isWordPart_of_boundary hboundary)
    have hpoint : c ≠ '.' := hne (by decide)
    have he : ¬ (c = 'E' ∨ c = 'e') := not_or.mpr ⟨hne (by decide), hne (by decide)⟩
    have hf : ¬ (c = 'F' ∨ c = 'f') := not_or.mpr ⟨hne (by decide), hne (by decide)⟩
    simp [floatingMove, hdigit, hpoint, he, hf]
  have hfloating : ¬ floatingTrial.Wins operators (w ++ c :: rest) :=
    loses_of_rejects rfl (floating_rejects_integer hw hstop rest)
  obtain ⟨d, v, rfl, hd⟩ := hw.digitHead
  refine won_behind htrials (List.forall_mem_append.mpr ⟨digit_loses hd, ?_⟩) (by simp) hrun
  simpa using hfloating

theorem space_wins (hc : isBlank c = true) :
    contest operators (c :: rest) analyzer.trials [] = .won spaceTrial [c] := by
  have htrials : analyzer.trials = [commentTrial, identifierTrial, stringTrial, charTrial,
      operatorTrial, floatingTrial, integerTrial] ++ [spaceTrial] := rfl
  have hboundary : isBoundary operators c = true := by rw [isBoundary, hc, Bool.true_or]
  have hpart : isWordPart c = false := isWordPart_of_boundary hboundary
  have hstart : isWordStart c = false := (Bool.or_eq_false_iff.mp hpart).1
  have hdigit : isDigit c = false := (Bool.or_eq_false_iff.mp hpart).2
  have hne : ∀ {d : Char}, isBlank d = false → c ≠ d := fun hd => ne_of_class hc hd
  refine won_behind htrials ?_ (by simp) (run_space hc rest)
  simpa using ⟨comment_loses (hne (by decide)), identifier_loses hstart,
    string_loses (hne (by decide)), char_loses (hne (by decide)),
    operator_loses (no_operator_head (.inr hc)), floating_loses hdigit (hne (by decide)),
    integer_loses hdigit⟩

/-- In front of a blank every lexeme is read as a whole by the automaton of its category, and the
automata that are tried before do not accept. -/
theorem contest_lexeme {k : Category} (h : Lexeme k w) (hc : isBlank c = true) (rest : Text) :
    ∃ p ∈ analyzer.trials, contest operators (w ++ c :: rest) analyzer.trials [] = .won p w ∧
      (if p.category = .identifier ∧ w ∈ keywords then .keyword else p.category) = k := by
  have hboundary : isBoundary operators c = true := by rw [isBoundary, hc, Bool.true_or]
  cases h with
  | keyword hw hkeyword =>
    exact ⟨identifierTrial, by simp [analyzer], word_wins hw hboundary, if_pos ⟨rfl, hkeyword⟩⟩
  | identifier hw hkeyword =>
    exact ⟨identifierTrial, by simp [analyzer], word_wins hw hboundary,
      if_neg fun h => hkeyword h.2⟩
  | operator hw => exact ⟨operatorTrial, by simp [analyzer], operator_wins hw hc, rfl⟩
  | integer hw => exact ⟨integerTrial, by simp [analyzer], integer_wins hw hc, rfl⟩
  | floating hw hpoint =>
    exact ⟨floatingTrial, by simp [analyzer], floating_wins hw hpoint hboundary, rfl⟩
  | string hw => exact ⟨stringTrial, by simp [analyzer], string_wins hw, rfl⟩
  | char hw => exact ⟨charTrial, by simp [analyzer], char_wins hw, rfl⟩
  | comment hw => exact ⟨commentTrial, by simp [analyzer], comment_wins hw, rfl⟩

/-! ### Tokens -/

def bare (t : Token) : Category × Text := (t.category, t.text)

theorem bare_headToken {s : Text} {p : Prototype} (hp : p ∈ analyzer.trials)
    (h : contest operators (c :: s) analyzer.trials [] = .won p w) :
    bare (analyzer.headToken c s) =
      (if p.category = .identifier ∧ w ∈ keywords then .keyword else p.category, w) := by
  rw [Analyzer.headToken_of_won h, bare, Analyzer.acceptedToken_text,
    Analyzer.acceptedToken_category analyzer_eq hp w]
  rfl

end TokenGraph.Xogue
