import Mathlib.Data.List.Chain
import Mathlib.Data.List.Infix
import TokenGraph.Proofs.Documents
import TokenGraph.Proofs.Lookahead
import TokenGraph.Proofs.Xogue.RoundTrip

/-!
# Lines that leave nothing open

No automaton of Xogue looks beyond the end of a line, but for those of strings, characters and
comments that the line has opened and not closed. The tokens of the line show where that is so;
where it is not, lines can be analyzed one by one.
-/

namespace TokenGraph.Xogue

open Scanner

variable {boundary : Char → Bool} {c : Char} {v w : Text}

/-! ### Automata at the end of a line -/

/-- An automaton does not depend on what follows a text, or it has read all of it in vain. -/
private theorem run_append_or_open {steps : List BuildStep} {rows : List Row}
    (h : (steps, rows) ∈ tables) (v : Text) :
    (∀ rest, (scanner steps boundary).run (v ++ rest) = (scanner steps boundary).run v) ∨
      (scanner steps boundary).run v = ⟨false, v⟩ :=
  run_append_of_stops (fun _ ht c => move_of_accepting h ht c) v

/-- Where no edge takes an end mark, all states stop at it. -/
private theorem move_of_refused {steps : List BuildStep} {rows : List Row}
    (h : (steps, rows) ∈ tables) (hrows : ∀ r ∈ rows, Row.refused '\n' r.arcs = true) (t : Nat) :
    ∃ accepted, (scanner steps boundary).move t '\n' = .stop accepted := by
  rw [move_of_table h, List.getD_eq_getElem?_getD]
  cases hrow : rows[t]? with
  | none => exact ⟨false, rfl⟩
  | some row => exact Row.move_of_refused (hrows row (List.mem_of_getElem? hrow)) boundary

/-- Words and numbers end with their line. -/
private theorem rows_refuse : ∀ rows ∈ [identifierRows, floatingRows, integerRows], ∀ r ∈ rows,
    Row.refused '\n' r.arcs = true := by
  decide +kernel

private theorem operator_unread (v : Text) : '\n' ∉ (operatorTrial.scan operators v).consumed := by
  obtain ⟨u, hrun, hbegins, -⟩ := run_ofLiterals operator_graph v
  rw [Prototype.scan, hrun]
  intro hmem
  rcases hbegins with rfl | ⟨x, hx, hbegin⟩
  · cases hmem
  · have hblank := ((operators_chars x hx).2 '\n' (hbegin.subset hmem)).2.1
    exact absurd hblank (by decide)

/-! ### Automata that a line leaves open -/

private theorem move_ne_stop_of_open {m : Scanner} (h : m.run (c :: v) = ⟨false, c :: v⟩)
    (accepted : Bool) : m.move 0 c ≠ .stop accepted := by
  intro hstop
  rw [run, Automaton.start, runFrom_of_stop hstop] at h
  cases congrArg Outcome.consumed h

private theorem string_open (h : (scanner stringSteps boundary).run (c :: v) = ⟨false, c :: v⟩) :
    c = '"' := by
  by_contra hc
  exact move_ne_stop_of_open h false (by rw [string_move, stringMove, if_neg hc])

private theorem char_open (h : (scanner charSteps boundary).run (c :: v) = ⟨false, c :: v⟩) :
    c = '\'' := by
  by_contra hc
  exact move_ne_stop_of_open h false (by rw [char_move, charMove, if_neg hc])

private theorem space_not_open : (scanner spaceSteps boundary).run (c :: v) ≠ ⟨false, c :: v⟩ := by
  intro h
  by_cases hc : isBlank c = true
  · rw [run_space hc] at h
    cases h
  · exact move_ne_stop_of_open h false (by rw [space_move, spaceMove, if_neg hc])

/-- A comment that goes on behind its line begins with slash and star. -/
private theorem comment_open (hw : '\n' ∉ w)
    (h : (scanner commentSteps boundary).run (w ++ ['\n']) = ⟨false, w ++ ['\n']⟩) :
    ∃ u, w = '/' :: '*' :: u := by
  have hhead : ∀ {c v}, w ++ ['\n'] = c :: v → c = '/' := by
    intro c v hv
    rw [hv] at h
    by_contra hc
    exact move_ne_stop_of_open h false (by rw [comment_move, commentMove, if_neg hc])
  cases w with
  | nil => exact absurd (hhead rfl) (by decide)
  | cons c w =>
    obtain rfl : c = '/' := hhead rfl
    cases w with
    | nil =>
      rw [List.singleton_append, run_slash (by decide) (by decide)] at h
      cases h
    | cons d u =>
      by_cases hstar : d = '*'
      · exact ⟨u, by rw [hstar]⟩
      · by_cases hslash : d = '/'
        · have hu : '\n' ∉ u := fun hmem => hw (by simp [hmem])
          rw [hslash, ← List.append_nil (_ ++ _), run_comment (.inl (.closed hu))] at h
          cases h
        · rw [List.cons_append, List.cons_append, run_slash hslash hstar] at h
          cases h

/-! ### What the tokens of a line show -/

/-- An operator of one slash in front of an operator that begins with a star. -/
def OpensComment (t u : Token) : Prop :=
  t.category = .operator ∧ t.text = ['/'] ∧ u.category = .operator ∧ u.text.head? = some '*'

/-- No string, character or comment goes on behind the end of the line. -/
structure NothingOpen (tokens : List Token) : Prop where
  quotes : ∀ t ∈ tokens, t.category = .unknown → '\n' ∉ t.text
  comments : tokens.IsChain fun t u => ¬ OpensComment t u

theorem NothingOpen.tail {t : Token} {tokens : List Token} (h : NothingOpen (t :: tokens)) :
    NothingOpen tokens where
  quotes u hu := h.quotes u (List.mem_cons_of_mem t hu)
  comments := h.comments.tail

/-- In front of a quote that its own automaton does not get past no other automaton wins. -/
private theorem quote_not_won (hc : c = '"' ∨ c = '\'')
    (hstring : ¬ stringTrial.Wins operators (c :: v))
    (hchar : ¬ charTrial.Wins operators (c :: v)) :
    ∀ q ∈ analyzer.trials, ¬ q.Wins operators (c :: v) := by
  rcases hc with rfl | rfl <;>
  simpa [analyzer] using ⟨comment_loses (by decide), identifier_loses (by decide), hstring, hchar,
    operator_loses (by decide), floating_loses (by decide) (by decide),
    integer_loses (by decide), space_loses (by decide)⟩

private theorem not_wins_of_scan {p : Prototype} {s u : Text}
    (h : p.scan operators s = ⟨false, u⟩) : ¬ p.Wins operators s := by
  simp [Prototype.Wins, h]

private theorem scan_operator_slash (v : Text) :
    operatorTrial.scan operators ('/' :: '*' :: v) = ⟨true, ['/']⟩ := by
  obtain ⟨u, hrun, hbegins, hprefix, hlongest⟩ := run_ofLiterals operator_graph ('/' :: '*' :: v)
  have hu : u = ['/'] := by
    have hlength := hlongest ['/'] (by simp) ⟨['/'], by decide, List.prefix_rfl⟩
    match u with
    | [] => simp at hlength
    | [d] =>
      obtain ⟨rfl, -⟩ := List.cons_prefix_cons.mp hprefix
      rfl
    | d :: e :: u =>
      obtain ⟨rfl, hrest⟩ := List.cons_prefix_cons.mp hprefix
      obtain ⟨rfl, -⟩ := List.cons_prefix_cons.mp hrest
      obtain ⟨x, hx, hbegin⟩ := hbegins.resolve_left (by simp)
      obtain ⟨y, rfl⟩ := hbegin
      rcases operators_slash _ hx rfl with h | h <;> cases h
  rw [Prototype.scan, hrun, hu]
  decide

/-- What begins an operator with a star in front is an operator. -/
private theorem operators_star : ∀ x ∈ operators, x.head? = some '*' →
    ∀ u ∈ x.inits, u ≠ [] → u ∈ operators := by
  decide

private theorem scan_operator_star (v : Text) :
    ∃ u, operatorTrial.scan operators ('*' :: v) = ⟨true, '*' :: u⟩ := by
  obtain ⟨u, hrun, hbegins, hprefix, hlongest⟩ := run_ofLiterals operator_graph ('*' :: v)
  have hlength := hlongest ['*'] (by simp) ⟨['*'], by decide, List.prefix_rfl⟩
  cases u with
  | nil => simp at hlength
  | cons d u =>
    obtain ⟨rfl, -⟩ := List.cons_prefix_cons.mp hprefix
    obtain ⟨x, hx, hbegin⟩ := hbegins.resolve_left (by simp)
    have hhead : x.head? = some '*' := by
      obtain ⟨y, rfl⟩ := hbegin
      rfl
    have hmem := operators_star x hx hhead ('*' :: u) ((List.mem_inits _ _).mpr hbegin) (by simp)
    refine ⟨u, ?_⟩
    rw [Prototype.scan, hrun]
    simp [hmem]

private theorem operator_token {u : Text} (hne : u ≠ [])
    (hscan : operatorTrial.scan operators (c :: v) = ⟨true, u⟩)
    (hbefore : ∀ q ∈ [commentTrial, identifierTrial, stringTrial, charTrial],
      ¬ q.Wins operators (c :: v)) : bare (analyzer.headToken c v) = (.operator, u) := by
  have htrials : analyzer.trials = [commentTrial, identifierTrial, stringTrial, charTrial] ++
      operatorTrial :: analyzer.trials.drop 5 := rfl
  have hwon := won_behind htrials hbefore hne hscan
  exact bare_headToken (by simp [analyzer]) hwon

/-- A comment that its automaton does not get past is read as operators. -/
private theorem comment_operators (hopen : ¬ commentTrial.Wins operators ('/' :: '*' :: v)) :
    ¬ NothingOpen (analyzer.analyze ('/' :: '*' :: v)) := by
  intro h
  obtain ⟨u, hstar⟩ := scan_operator_star v
  have hslash : bare (analyzer.headToken '/' ('*' :: v)) = (.operator, ['/']) := by
    refine operator_token (by simp) (scan_operator_slash v) ?_
    simpa using ⟨hopen, identifier_loses (by decide), string_loses (by decide),
      char_loses (by decide)⟩
  have hnext : bare (analyzer.headToken '*' v) = (.operator, '*' :: u) := by
    refine operator_token (by simp) hstar ?_
    simpa using ⟨comment_loses (by decide), identifier_loses (by decide),
      string_loses (by decide), char_loses (by decide)⟩
  obtain ⟨hcategory, htext⟩ := Prod.mk.inj hslash
  obtain ⟨hcategory', htext'⟩ := Prod.mk.inj hnext
  rw [Analyzer.analyze_cons, htext, List.length_singleton, List.drop_succ_cons, List.drop_zero,
    Analyzer.analyze_cons] at h
  refine (List.isChain_cons_cons.mp h.comments).1 ⟨hcategory, htext, hcategory', ?_⟩
  rw [htext']
  rfl

/-! ### Lines in front of other lines -/

private theorem comment_line (hw : '\n' ∉ w)
    (h : NothingOpen (analyzer.analyze (w ++ ['\n']))) (rest : Text) :
    commentTrial.scan operators (w ++ ['\n'] ++ rest) =
      commentTrial.scan operators (w ++ ['\n']) := by
  rcases run_append_or_open comment_table (w ++ ['\n']) with hstop | hopen
  · exact hstop rest
  · obtain ⟨u, rfl⟩ := comment_open hw hopen
    exact absurd h (comment_operators (not_wins_of_scan hopen))

/-- An open quote makes the whole line unknown, with its end mark. -/
private theorem quoted_line {p : Prototype} (hp : p ∈ analyzer.trials)
    (hruns : (∀ rest, p.scan operators (c :: v ++ rest) = p.scan operators (c :: v)) ∨
      p.scan operators (c :: v) = ⟨false, c :: v⟩)
    (hnone : p.scan operators (c :: v) = ⟨false, c :: v⟩ →
      ∀ q ∈ analyzer.trials, ¬ q.Wins operators (c :: v))
    (hv : '\n' ∈ c :: v) (h : NothingOpen (analyzer.analyze (c :: v))) (rest : Text) :
    p.scan operators (c :: v ++ rest) = p.scan operators (c :: v) := by
  rcases hruns with hstop | hopen
  · exact hstop rest
  · have hread : (p.scan operators (c :: v)).consumed = c :: v := by rw [hopen]
    have hhead := Analyzer.headToken_of_read (a := analyzer) (hnone hopen) hp hread
    rw [Analyzer.analyze_cons, hhead] at h
    exact absurd hv (h.quotes _ List.mem_cons_self rfl)

private theorem string_line (hv : '\n' ∈ c :: v) (h : NothingOpen (analyzer.analyze (c :: v)))
    (rest : Text) : stringTrial.scan operators (c :: v ++ rest) =
      stringTrial.scan operators (c :: v) := by
  refine quoted_line (p := stringTrial) (by simp [analyzer])
    (run_append_or_open string_table (c :: v)) ?_ hv h rest
  intro hopen
  obtain rfl : c = '"' := string_open hopen
  exact quote_not_won (.inl rfl) (not_wins_of_scan hopen) (char_loses (by decide))

private theorem char_line (hv : '\n' ∈ c :: v) (h : NothingOpen (analyzer.analyze (c :: v)))
    (rest : Text) : charTrial.scan operators (c :: v ++ rest) =
      charTrial.scan operators (c :: v) := by
  refine quoted_line (p := charTrial) (by simp [analyzer])
    (run_append_or_open char_table (c :: v)) ?_ hv h rest
  intro hopen
  obtain rfl : c = '\'' := char_open hopen
  exact quote_not_won (.inr rfl) (string_loses (by decide)) (not_wins_of_scan hopen)

private theorem refused_line {steps : List BuildStep} (rows : List Row)
    (h : (steps, rows) ∈ tables) (hrows : rows ∈ [identifierRows, floatingRows, integerRows])
    (hv : '\n' ∈ c :: v) (rest : Text) : (scanner steps boundary).run (c :: v ++ rest) =
      (scanner steps boundary).run (c :: v) :=
  run_append_of_unread hv (not_mem_consumed (move_of_refused h (rows_refuse rows hrows)) _ _) rest

private theorem space_line (rest : Text) :
    spaceTrial.scan operators (c :: v ++ rest) = spaceTrial.scan operators (c :: v) := by
  rcases run_append_or_open space_table (c :: v) with hstop | hopen
  · exact hstop rest
  · exact absurd hopen space_not_open

/-- Where a line leaves nothing open no trial depends on what follows the line. -/
private theorem scan_line (hw : '\n' ∉ w) (h : NothingOpen (analyzer.analyze (w ++ ['\n'])))
    {p : Prototype} (hp : p ∈ analyzer.trials) (rest : Text) :
    p.scan operators (w ++ ['\n'] ++ rest) = p.scan operators (w ++ ['\n']) := by
  have hcomment := comment_line hw h rest
  obtain ⟨c, v, hv⟩ : ∃ c v, w ++ ['\n'] = c :: v := List.exists_cons_of_ne_nil (by simp)
  have hmark : '\n' ∈ c :: v := by simp [← hv]
  rw [hv] at h hcomment ⊢
  simp only [analyzer, List.mem_cons, List.not_mem_nil, or_false] at hp
  rcases hp with rfl | rfl | rfl | rfl | rfl | rfl | rfl | rfl
  · exact hcomment
  · exact refused_line identifierRows identifier_table (by simp) hmark rest
  · exact string_line hmark h rest
  · exact char_line hmark h rest
  · exact run_append_of_unread hmark (operator_unread _) rest
  · exact refused_line floatingRows floating_table (by simp) hmark rest
  · exact refused_line integerRows integer_table (by simp) hmark rest
  · exact space_line rest

/-- What a token leaves of a line is the rest of a line, or nothing. -/
private theorem line_split {t left : Text} (hw : '\n' ∉ w) (h : t ++ left = w ++ ['\n']) :
    left = [] ∨ ∃ u, left = u ++ ['\n'] ∧ '\n' ∉ u := by
  rcases List.append_eq_append_iff.mp h with ⟨u, rfl, rfl⟩ | ⟨u, -, hmark⟩
  · exact .inr ⟨u, rfl, fun hmem => hw (List.mem_append_right t hmem)⟩
  · cases u with
    | nil => exact .inr ⟨[], hmark.symm, by simp⟩
    | cons d u => exact .inl (List.append_eq_nil_iff.mp (List.cons.inj hmark).2.symm).2

/-- The induction is on the tokens of the line. -/
private theorem analyze_line_append {tokens : List Token} (hw : '\n' ∉ w)
    (htokens : analyzer.analyze (w ++ ['\n']) = tokens) (h : NothingOpen tokens) (rest : Text) :
    analyzer.analyze (w ++ ['\n'] ++ rest) = tokens ++ analyzer.analyze rest := by
  induction tokens generalizing w with
  | nil => cases w <;> simp [Analyzer.analyze_cons] at htokens
  | cons t tokens ih =>
    have hscan := fun p hp => scan_line hw (htokens ▸ h) (p := p) hp rest
    obtain ⟨c, v, hv⟩ : ∃ c v, w ++ ['\n'] = c :: v := List.exists_cons_of_ne_nil (by simp)
    rw [hv] at hscan htokens ⊢
    have hhead : analyzer.headToken c (v ++ rest) = analyzer.headToken c v :=
      Analyzer.headToken_congr fun p hp => hscan p hp.mem
    obtain ⟨left, hleft⟩ := analyzer.headToken_isPrefix c v
    have hline := Analyzer.analyze_cons_append (v := []) hleft (by rw [List.append_nil])
    rw [List.append_nil, List.append_nil, htokens, List.cons.injEq] at hline
    obtain ⟨rfl, hrest⟩ := hline
    rw [List.cons_append, Analyzer.analyze_cons_append hleft hhead, List.cons_append]
    congr 1
    rcases line_split hw (hleft.trans hv.symm) with rfl | ⟨u, rfl, hu⟩
    · rw [hrest, Analyzer.analyze_nil]
      rfl
    · exact ih hu hrest.symm h.tail

private theorem analyze_lines {lines : List Text}
    (h : ∀ line ∈ lines, (∃ w, line = w ++ ['\n'] ∧ '\n' ∉ w) ∧
      NothingOpen (analyzer.analyze line)) :
    analyzer.analyze lines.flatten = lines.flatMap analyzer.analyze := by
  induction lines with
  | nil => rfl
  | cons line lines ih =>
    obtain ⟨⟨⟨w, rfl, hw⟩, hopen⟩, hrest⟩ := List.forall_mem_cons.mp h
    rw [List.flatten_cons, List.flatMap_cons, analyze_line_append hw rfl hopen, ih hrest]

/-- Lines of printed lexemes leave nothing open: between any two of them there is a blank. -/
theorem nothingOpen_printed {line : Text} (lexemes : List (Category × Text))
    (hline : Analyzer.terminated line = printed lexemes ++ ['\n'])
    (h : ∀ x ∈ lexemes, Lexeme x.1 x.2) : NothingOpen (analyzer.analyzeLine line) := by
  have hclosed : (∀ x ∈ (analyzer.analyzeLine line).map bare, x.1 ≠ .unknown) ∧
      ((analyzer.analyzeLine line).map bare).IsChain fun x y => x.1 = .space ∨ y.1 = .space := by
    change (∀ x ∈ (analyzer.analyze (Analyzer.terminated line)).map bare, _) ∧
      ((analyzer.analyze (Analyzer.terminated line)).map bare).IsChain _
    rw [hline, analyze_printed h]
    clear hline
    induction lexemes with
    | nil => simp
    | cons x lexemes ih =>
      obtain ⟨hx, hrest⟩ := List.forall_mem_cons.mp h
      have hknown : x.1 ≠ .unknown := by
        intro hunknown
        rw [hunknown] at hx
        cases hx
      obtain ⟨hcategories, hchain⟩ := ih hrest
      cases lexemes with
      | nil => simpa using hknown
      | cons y lexemes =>
        rw [List.intersperse_cons_cons, List.cons_append, List.cons_append]
        refine ⟨?_, ?_⟩
        · exact List.forall_mem_cons.mpr ⟨hknown, List.forall_mem_cons.mpr ⟨by decide, hcategories⟩⟩
        · refine List.isChain_cons_cons.mpr ⟨.inr rfl, List.isChain_cons.mpr ⟨?_, hchain⟩⟩
          exact fun z _ => .inl rfl
  constructor
  · intro t ht hunknown
    exact absurd hunknown (hclosed.1 (bare t) (List.mem_map_of_mem ht))
  · refine ((List.isChain_map bare).mp hclosed.2).imp ?_
    rintro t u hspace ⟨ht, -, hu, -⟩
    rcases hspace with h | h
    · cases ht.symm.trans h
    · cases hu.symm.trans h

/-- A text of which no line leaves anything open has the tokens of its lines. -/
theorem analyzeLine_flatMap : ∃ l a, language = .ok l ∧ Analyzer.ofLanguage l = .ok a ∧
    ∀ s : Text, s ≠ [] → (∀ line ∈ documentLines s, NothingOpen (a.analyzeLine line)) →
      (documentLines s).flatMap a.analyzeLine = a.analyzeLine s := by
  refine ⟨xogue, analyzer, language_eq, analyzer_eq, ?_⟩
  intro s hs h
  have hlines : ∀ line ∈ (documentLines s).map Analyzer.terminated,
      (∃ w, line = w ++ ['\n'] ∧ '\n' ∉ w) ∧ NothingOpen (analyzer.analyze line) := by
    intro line hline
    obtain ⟨piece, hpiece, rfl⟩ := List.mem_map.mp hline
    exact ⟨terminated_of_mem_documentLines hpiece, h piece hpiece⟩
  change _ = analyzer.analyze (Analyzer.terminated s)
  rw [terminated_documentLines hs, analyze_lines hlines, List.flatMap_map]
  rfl

/-- The slash that ends a line does not open a comment with the star behind it. -/
theorem analyzeLine_flatMap_sample : ∃ l a, language = .ok l ∧ Analyzer.ofLanguage l = .ok a ∧
    text "x /\n* y" ≠ [] ∧
    (∀ line ∈ documentLines (text "x /\n* y"), NothingOpen (a.analyzeLine line)) ∧
    a.analyzeLine (text "x /\n") ++ a.analyzeLine (text "* y") =
      a.analyzeLine (text "x /\n* y") := by
  obtain ⟨l, a, hl, ha, hlines⟩ := analyzeLine_flatMap
  obtain rfl : xogue = l := Except.ok.inj (language_eq.symm.trans hl)
  obtain rfl : analyzer = a := Except.ok.inj (analyzer_eq.symm.trans ha)
  have hx : Lexeme .identifier (text "x") :=
    .identifier ⟨'x', [], rfl, by decide, by simp⟩ (by decide)
  have hy : Lexeme .identifier (text "y") :=
    .identifier ⟨'y', [], rfl, by decide, by simp⟩ (by decide)
  have hfirst : NothingOpen (analyzer.analyzeLine (text "x /\n")) :=
    nothingOpen_printed [(.identifier, text "x"), (.operator, text "/")] (by decide)
      (by simpa using ⟨hx, .operator (by decide)⟩)
  have hsecond : NothingOpen (analyzer.analyzeLine (text "* y")) :=
    nothingOpen_printed [(.operator, text "*"), (.identifier, text "y")] (by decide)
      (by simpa using ⟨.operator (by decide), hy⟩)
  have hcut : documentLines (text "x /\n* y") = [text "x /\n", text "* y"] := by decide
  have hopen : ∀ line ∈ documentLines (text "x /\n* y"),
      NothingOpen (analyzer.analyzeLine line) := by
    rw [hcut]
    exact List.forall_mem_cons.mpr ⟨hfirst, List.forall_mem_singleton.mpr hsecond⟩
  have hwhole := hlines (text "x /\n* y") (by decide) hopen
  rw [hcut, List.flatMap_cons, List.flatMap_singleton] at hwhole
  exact ⟨xogue, analyzer, hl, ha, by decide, hopen, hwhole⟩

end TokenGraph.Xogue
