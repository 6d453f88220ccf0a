import TokenGraph.Proofs.Recognition
import TokenGraph.Proofs.Xogue.Moves

/-!
# Lexemes under the automata

Each automaton reads the lexemes of its category as a whole. Words and numbers stop at a boundary
that is no part of a word; all others stop by themselves.
-/

namespace TokenGraph.Xogue

open Scanner

variable {boundary : Char → Bool} {c : Char} {w : Text}

/-! ### All automata -/

/-- States that accept have no edges. -/
private theorem accepting_rows : ∀ p ∈ tables, ∀ r ∈ p.2, r.accepting = true → r.arcs = [] := by
  decide

private theorem eager_rows : ∀ p ∈ tables, ∀ r ∈ p.2, r.eager = true := by
  decide

variable {steps : List BuildStep} {rows : List Row}

theorem isAccepting_of_table (h : (steps, rows) ∈ tables) (t : Nat) :
    (graph steps).isAccepting t = (rows.getD t ⟨false, []⟩).accepting :=
  Automaton.isAccepting_of_rows (rows_eq h) t

theorem move_of_accepting (h : (steps, rows) ∈ tables) {t : Nat}
    (ht : (graph steps).isAccepting t = true) (c : Char) :
    (scanner steps boundary).move t c = .stop true := by
  rw [isAccepting_of_table h, List.getD_eq_getElem?_getD] at ht
  rw [move_of_table h, Row.move, List.getD_eq_getElem?_getD]
  cases hrow : rows[t]? with
  | none => simp [hrow] at ht
  | some row =>
    rw [hrow, Option.getD_some] at ht
    rw [Option.getD_some, accepting_rows _ h row (List.mem_of_getElem? hrow) ht, ht]
    rfl

/-- Where a state accepts the run ends, whatever follows. -/
theorem finishes_of_accepting (h : (steps, rows) ∈ tables) {t : Nat}
    (ht : (graph steps).isAccepting t = true) (rest : Text) :
    (scanner steps boundary).Finishes t rest true := by
  cases rest with
  | nil => exact .atEnd ht
  | cons c rest => exact .atCharacter (move_of_accepting h ht c)

theorem eager_of_table (h : (steps, rows) ∈ tables) (boundary : Char → Bool) :
    (scanner steps boundary).Eager := by
  intro s c t
  rw [move_of_table h, List.getD_eq_getElem?_getD]
  cases hrow : rows[s]? with
  | none => simp [Row.move]
  | some row => exact Row.move_ne_stay (eager_rows _ h row (List.mem_of_getElem? hrow)) boundary c t

/-- A text that is read up to an accepting state without edges is accepted whatever follows. -/
private theorem run_of_reads {m : Scanner} {t : Nat} (h : m.Reads 0 w t)
    (hstop : ∀ c, m.move t c = .stop true) (c : Char) (rest : Text) :
    m.run (w ++ c :: rest) = ⟨true, w⟩ :=
  h.runFrom_stop (hstop c) rest

/-! ### Words -/

theorem reads_word (h : Word w) : (scanner identifierSteps boundary).Reads 0 w 1 := by
  obtain ⟨c, v, rfl, hc, hv⟩ := h
  have hstart : (scanner identifierSteps boundary).move 0 c = .advance 1 := by
    rw [identifier_move, identifierMove, if_pos hc]
  refine .cons hstart (Reads.loop fun d hd => ?_)
  rw [identifier_move, identifierMove, if_pos (hv d hd)]

theorem run_word (h : Word w) (hc : isWordPart c = false) (hboundary : boundary c = true)
    (rest : Text) : (scanner identifierSteps boundary).run (w ++ c :: rest) = ⟨true, w⟩ := by
  have hstop : (scanner identifierSteps boundary).move 1 c = .stop true := by
    simp [identifier_move, identifierMove, hc, hboundary]
  exact (reads_word h).runFrom_stop hstop rest

/-! ### Strings and characters -/

theorem reads_stringBody (h : StringBody w) : (scanner stringSteps boundary).Reads 1 w 1 := by
  induction h with
  | nil => exact .nil
  | plain hquote hslash _ ih =>
    refine .cons ?_ ih
    simp [string_move, stringMove, hquote, hslash]
  | escaped _ ih =>
    refine .cons (t := 2) ?_ (.cons (t := 1) ?_ ih)
    · simp [string_move, stringMove]
    · rw [string_move, stringMove]

theorem reads_string (h : StringText w) : (scanner stringSteps boundary).Reads 0 w 3 := by
  obtain ⟨hw⟩ := h
  refine .cons (t := 1) ?_ ((reads_stringBody hw).append (.single ?_))
  · simp [string_move, stringMove]
  · simp [string_move, stringMove]

theorem run_string (h : StringText w) (c : Char) (rest : Text) :
    (scanner stringSteps boundary).run (w ++ c :: rest) = ⟨true, w⟩ :=
  run_of_reads (reads_string h) (by simp [string_move, stringMove]) c rest

theorem reads_char (h : CharText w) : (scanner charSteps boundary).Reads 0 w 4 := by
  cases h with
  | plain hd =>
    refine .cons (t := 1) ?_ (.cons (t := 3) ?_ (.single ?_)) <;> simp [char_move, charMove, hd]
  | escaped =>
    refine .cons (t := 1) ?_ (.cons (t := 2) ?_ (.cons (t := 3) ?_ (.single ?_))) <;>
      simp [char_move, charMove]

theorem run_char (h : CharText w) (c : Char) (rest : Text) :
    (scanner charSteps boundary).run (w ++ c :: rest) = ⟨true, w⟩ :=
  run_of_reads (reads_char h) (by simp [char_move, charMove]) c rest

/-! ### Comments -/

theorem ClosesAtEnd.tail (h : ClosesAtEnd (c :: w)) (hne : c :: w ≠ ['*', '/']) :
    ClosesAtEnd w := by
  obtain ⟨hsuffix, hfirst⟩ := h
  refine ⟨(List.suffix_cons_iff.mp hsuffix).resolve_left (Ne.symm hne), ?_⟩
  intro before after hw
  exact hfirst (c :: before) after (by rw [hw, List.cons_append])

/-- From inside a comment (3), and from behind a star in it (4), the rest of it is read. -/
private theorem reads_comment (w : Text) :
    (ClosesAtEnd w → (scanner commentSteps boundary).Reads 3 w 6) ∧
      (ClosesAtEnd ('*' :: w) → (scanner commentSteps boundary).Reads 4 w 6) := by
  induction w with
  | nil =>
    constructor
    · intro h
      simpa using h.1.length_le
    · intro h
      simpa using h.1.length_le
  | cons c w ih =>
    obtain ⟨ihinside, ihstar⟩ := ih
    constructor
    · intro h
      by_cases hc : c = '*'
      · subst hc
        refine .cons (t := 4) ?_ (ihstar h)
        simp [comment_move, commentMove]
      · refine .cons (t := 3) ?_ (ihinside (h.tail (by simp [hc])))
        simp [comment_move, commentMove, hc]
    · intro h
      by_cases hstar : c = '*'
      · subst hstar
        refine .cons (t := 4) ?_ (ihstar (h.tail (by simp)))
        simp [comment_move, commentMove]
      · by_cases hslash : c = '/'
        · subst hslash
          obtain rfl : w = [] := h.2 [] w rfl
          refine .single ?_
          simp [comment_move, commentMove]
        · refine .cons (t := 3) ?_ (ihinside ((h.tail ?_).tail ?_))
          · simp [comment_move, commentMove, hstar, hslash]
          · simp [hslash]
          · simp [hstar]

theorem reads_blockComment (h : BlockComment w) : (scanner commentSteps boundary).Reads 0 w 6 := by
  obtain ⟨hw⟩ := h
  refine .cons (t := 1) ?_ (.cons (t := 3) ?_ ((reads_comment _).1 hw))
  · simp [comment_move, commentMove]
  · simp [comment_move, commentMove]

theorem reads_lineComment (h : LineComment w) : (scanner commentSteps boundary).Reads 0 w 5 := by
  obtain ⟨hw⟩ := h
  refine .cons (t := 1) ?_ (.cons (t := 2) ?_ (.append (.loop fun d hd => ?_) (.single ?_)))
  · simp [comment_move, commentMove]
  · simp [comment_move, commentMove]
  · have hne : d ≠ '\n' := fun h => hw (h ▸ hd)
    simp [comment_move, commentMove, hne]
  · simp [comment_move, commentMove]

/-- A comment is accepted whatever follows, even at the end of the text. -/
theorem run_comment (h : LineComment w ∨ BlockComment w) (rest : Text) :
    (scanner commentSteps boundary).run (w ++ rest) = ⟨true, w⟩ := by
  obtain ⟨t, ht, hreads⟩ :
      ∃ t, (t = 5 ∨ t = 6) ∧ (scanner commentSteps boundary).Reads 0 w t := by
    rcases h with h | h
    · exact ⟨5, .inl rfl, reads_lineComment h⟩
    · exact ⟨6, .inr rfl, reads_blockComment h⟩
  have hend : (graph commentSteps).isAccepting t = true := by
    rw [isAccepting_of_table comment_table]
    rcases ht with rfl | rfl <;> rfl
  have hfinishes : (scanner commentSteps boundary).Finishes t rest true :=
    finishes_of_accepting comment_table hend rest
  rw [run, Automaton.start, hreads.runFrom, hfinishes.runFrom, List.append_nil]

/-- Behind a slash a comment needs another one or a star. -/
theorem run_slash (hslash : c ≠ '/') (hstar : c ≠ '*') (rest : Text) :
    (scanner commentSteps boundary).run ('/' :: c :: rest) = ⟨false, ['/']⟩ := by
  have hfirst : (scanner commentSteps boundary).move 0 '/' = .advance 1 := by
    rw [comment_move]
    rfl
  have hsecond : (scanner commentSteps boundary).move 1 c = .stop false := by
    rw [comment_move, commentMove, if_neg hslash, if_neg hstar]
  rw [run, Automaton.start, runFrom_of_advance hfirst, runFrom_of_stop hsecond]

/-! ### Integers -/

/-- Digits of a radix are read from any state that they lead out of to the state of the digits. -/
private theorem reads_digitRun {digit : Char → Bool} {s run : Nat} (h : DigitRun digit w)
    (hs : ∀ d, digit d = true → integerMove boundary d s = .advance run)
    (hrun : ∀ d, integerMove boundary d run = runMove boundary digit run d)
    (hnext : ∀ d, integerMove boundary d (run + 1) = digitMove digit run d)
    (hline : digit '_' = false) : (scanner integerSteps boundary).Reads s w run := by
  have hdigit : ∀ d, digit d = true → integerMove boundary d run = .advance run := by
    intro d hd
    rw [hrun, runMove, if_pos hd]
  have hunderline : integerMove boundary '_' run = .advance (run + 1) := by
    rw [hrun, runMove, hline]
    rfl
  have hbehind : ∀ d, digit d = true → integerMove boundary d (run + 1) = .advance run := by
    intro d hd
    rw [hnext, digitMove, if_pos hd]
  induction h generalizing s with
  | last hd => exact .single (by rw [integer_move, hs _ hd])
  | next hd _ ih => exact .cons (by rw [integer_move, hs _ hd]) (ih hdigit)
  | underline hd _ ih =>
    refine .cons (by rw [integer_move, hs _ hd]) (.cons (t := run + 1) ?_ (ih hbehind))
    rw [integer_move, hunderline]

/-- The states behind a zero in front and behind any other digits of a decimal. -/
private theorem move_decimal {s : Nat} (hs : s = 1 ∨ s = 2) :
    (∀ d, isDigit d = true → integerMove boundary d s = .advance 2) ∧
      integerMove boundary '_' s = .advance 3 := by
  rcases hs with rfl | rfl
  · refine ⟨fun d hd => ?_, rfl⟩
    rw [integerMove, if_neg (ne_of_class hd (by decide)), if_pos hd]
  · refine ⟨fun d hd => ?_, rfl⟩
    rw [integerMove, runMove, if_pos hd]

private theorem reads_decimal (h : DigitRun isDigit w) :
    ∃ t, (t = 1 ∨ t = 2) ∧ (scanner integerSteps boundary).Reads 0 w t := by
  have hhead : ∀ {d}, isDigit d = true → ∃ s, (s = 1 ∨ s = 2) ∧
      (scanner integerSteps boundary).move 0 d = .advance s := by
    intro d hd
    rw [integer_move, integerMove]
    by_cases hzero : d = '0'
    · exact ⟨1, .inl rfl, if_pos hzero⟩
    · exact ⟨2, .inr rfl, by rw [if_neg hzero, if_pos hd]⟩
  have hrest : ∀ {s v}, DigitRun isDigit v →
      (∀ d, isDigit d = true → integerMove boundary d s = .advance 2) →
      (scanner integerSteps boundary).Reads s v 2 :=
    fun hv hs => reads_digitRun hv hs (fun _ => rfl) (fun _ => rfl) (by decide)
  cases h with
  | last hd =>
    obtain ⟨s, hs, hmove⟩ := hhead hd
    exact ⟨s, hs, .single hmove⟩
  | next hd hv =>
    obtain ⟨s, hs, hmove⟩ := hhead hd
    exact ⟨2, .inr rfl, .cons hmove (hrest hv (move_decimal hs).1)⟩
  | underline hd hv =>
    obtain ⟨s, hs, hmove⟩ := hhead hd
    have hline : (scanner integerSteps boundary).move s '_' = .advance 3 := by
      rw [integer_move, (move_decimal hs).2]
    refine ⟨2, .inr rfl, .cons hmove (.cons hline (hrest hv fun d hd => ?_))⟩
    rw [integerMove, digitMove, if_pos hd]

/-- The radixes of the integers: the letter behind the zero, the digits, and the first of the states
that read them. -/
inductive Radix : Char → (Char → Bool) → Nat → Prop
  | binary : Radix 'b' isBinaryDigit 6
  | octal : Radix 'o' isOctalDigit 9
  | hex : Radix 'x' isHexDigit 12

theorem integerText_iff : IntegerText w ↔ DigitRun isDigit w ∨
    ∃ letter digit mode v, Radix letter digit mode ∧ DigitRun digit v ∧ w = '0' :: letter :: v := by
  constructor
  · intro h
    cases h with
    | decimal hw => exact .inl hw
    | binary hw => exact .inr ⟨_, _, _, _, .binary, hw, rfl⟩
    | octal hw => exact .inr ⟨_, _, _, _, .octal, hw, rfl⟩
    | hex hw => exact .inr ⟨_, _, _, _, .hex, hw, rfl⟩
  · rintro (hw | ⟨letter, digit, mode, v, hradix, hv, rfl⟩)
    · exact .decimal hw
    · cases hradix with
      | binary => exact .binary hv
      | octal => exact .octal hv
      | hex => exact .hex hv

namespace Radix

variable {letter : Char} {digit : Char → Bool} {mode : Nat}

theorem moves (h : Radix letter digit mode) (boundary : Char → Bool) (d : Char) :
    integerMove boundary d mode = digitMove digit (mode + 1) d ∧
      integerMove boundary d (mode + 1) = runMove boundary digit (mode + 1) d ∧
      integerMove boundary d (mode + 2) = digitMove digit (mode + 1) d := by
  cases h <;> exact ⟨rfl, rfl, rfl⟩

theorem move_letter (h : Radix letter digit mode) (hletter : boundary letter = false) :
    integerMove boundary letter 1 = .advance mode := by
  cases h <;> simp [integerMove, isDigit, hletter]

theorem isWordPart_letter (h : Radix letter digit mode) : isWordPart letter = true := by
  cases h <;> decide

theorem isWordPart_digit (h : Radix letter digit mode) (hc : digit c = true) :
    isWordPart c = true := by
  cases h with
  | binary => exact isWordPart_of_isBinaryDigit hc
  | octal => exact isWordPart_of_isOctalDigit hc
  | hex => exact isWordPart_of_isHexDigit hc

theorem digit_underscore (h : Radix letter digit mode) : digit '_' = false := by
  cases h <;> decide

theorem reads (h : Radix letter digit mode) (hletter : boundary letter = false)
    (hw : DigitRun digit w) :
    (scanner integerSteps boundary).Reads 0 ('0' :: letter :: w) (mode + 1) := by
  have hzero : (scanner integerSteps boundary).move 0 '0' = .advance 1 := by
    rw [integer_move]
    rfl
  have hmode : (scanner integerSteps boundary).move 1 letter = .advance mode := by
    rw [integer_move, h.move_letter hletter]
  refine .cons hzero (.cons hmode (reads_digitRun hw (fun d hd => ?_) ?_ ?_ h.digit_underscore))
  · rw [(h.moves boundary d).1, digitMove, if_pos hd]
  · exact fun d => (h.moves boundary d).2.1
  · exact fun d => (h.moves boundary d).2.2

end Radix

/-- Behind an integer every boundary stops the automaton. -/
theorem reads_integer (hwords : ∀ d, boundary d = true → isWordPart d = false)
    (h : IntegerText w) : ∃ t, (scanner integerSteps boundary).Reads 0 w t ∧
      ∀ d, boundary d = true → (scanner integerSteps boundary).move t d = .stop true := by
  have hstop : ∀ {digit : Char → Bool} {run : Nat} {d : Char},
      (digit d = true → isWordPart d = true) → boundary d = true →
      runMove boundary digit run d = .stop true := by
    intro digit run d hdigit hd
    have hline : d ≠ '_' := (ne_of_class (by decide) (hwords d hd)).symm
    rw [runMove, class_eq_false hdigit (hwords d hd), if_neg Bool.false_ne_true, if_neg hline, hd]
  rcases integerText_iff.mp h with hw | ⟨letter, digit, mode, v, hradix, hv, rfl⟩
  · obtain ⟨t, ht, hreads⟩ := reads_decimal hw
    refine ⟨t, hreads, fun d hd => ?_⟩
    rw [integer_move]
    rcases ht with rfl | rfl
    · have hdigit : isDigit d = false := class_eq_false isWordPart_of_isDigit (hwords d hd)
      have hline : d ≠ '_' := (ne_of_class (by decide) (hwords d hd)).symm
      simp [integerMove, hdigit, hline, hd]
    · exact hstop isWordPart_of_isDigit hd
  · have hletter : boundary letter = false := by
      rw [Bool.eq_false_iff]
      intro hb
      have hpart := hwords letter hb
      rw [hradix.isWordPart_letter] at hpart
      cases hpart
    refine ⟨mode + 1, hradix.reads hletter hv, fun d hd => ?_⟩
    rw [integer_move, (hradix.moves boundary d).2.1]
    exact hstop hradix.isWordPart_digit hd

theorem run_integer (hwords : ∀ d, boundary d = true → isWordPart d = false) (h : IntegerText w)
    (hc : boundary c = true) (rest : Text) :
    (scanner integerSteps boundary).run (w ++ c :: rest) = ⟨true, w⟩ := by
  obtain ⟨t, hreads, hstop⟩ := reads_integer hwords h
  exact hreads.runFrom_stop (hstop c hc) rest

/-! ### Floating numbers -/

private theorem move_digit {s : Nat} (hs : s = 1 ∨ s = 3 ∨ s = 6) (hc : isDigit c = true) :
    floatingMove boundary c s = .advance s := by
  have hpoint : c ≠ '.' := ne_of_class hc (by decide)
  have hf : ¬ (c = 'F' ∨ c = 'f') :=
    not_or.mpr ⟨ne_of_class hc (by decide), ne_of_class hc (by decide)⟩
  rcases hs with rfl | rfl | rfl
  · rw [floatingMove, if_neg hpoint, if_pos hc]
  · rw [floatingMove, if_pos hc]
  · rw [floatingMove, if_neg hf, if_pos hc]

private theorem reads_digits {s t : Nat} (h : Digits w) (ht : t = 1 ∨ t = 3 ∨ t = 6)
    (hs : ∀ d, isDigit d = true → floatingMove boundary d s = .advance t) :
    (scanner floatingSteps boundary).Reads s w t := by
  obtain ⟨hne, hdigits⟩ := h
  cases w with
  | nil => exact absurd rfl hne
  | cons d v =>
    refine .cons (by rw [floating_move, hs d (hdigits d (by simp))]) (Reads.loop fun e he => ?_)
    rw [floating_move, move_digit ht (hdigits e (by simp [he]))]

private theorem reads_integral (h : Digits w) : (scanner floatingSteps boundary).Reads 0 w 1 := by
  refine reads_digits h (.inl rfl) fun d hd => ?_
  rw [floatingMove, if_pos hd]

private theorem reads_mantissa (h : Mantissa w) : (scanner floatingSteps boundary).Reads 0 w 3 := by
  cases h with
  | closed hw hv =>
    have hpoint : (scanner floatingSteps boundary).move 1 '.' = .advance 3 := by
      rw [floating_move]
      rfl
    refine (reads_integral hw).append (.cons hpoint (Reads.loop fun d hd => ?_))
    rw [floating_move, move_digit (.inr (.inl rfl)) (hv d hd)]
  | bare hv =>
    have hpoint : (scanner floatingSteps boundary).move 0 '.' = .advance 2 := by
      rw [floating_move]
      rfl
    refine .cons hpoint (reads_digits hv (.inr (.inl rfl)) fun d hd => ?_)
    rw [floatingMove, if_pos hd]

private theorem reads_exponent {s : Nat} (h : Exponent w) (hs : s = 1 ∨ s = 3) :
    (scanner floatingSteps boundary).Reads s w 6 := by
  have hletter : ∀ {e}, e = 'E' ∨ e = 'e' →
      (scanner floatingSteps boundary).move s e = .advance 4 := by
    intro e he
    rw [floating_move]
    rcases hs with rfl | rfl <;> rcases he with rfl | rfl <;> rfl
  cases h with
  | unsigned he hw =>
    refine .cons (hletter he) (reads_digits hw (.inr (.inr rfl)) fun d hd => ?_)
    rw [floatingMove, if_pos hd]
  | signed he hsign hw =>
    refine .cons (hletter he) (.cons (t := 5) ?_ (reads_digits hw (.inr (.inr rfl)) fun d hd => ?_))
    · rw [floating_move]
      rcases hsign with rfl | rfl <;> rfl
    · rw [floatingMove, if_pos hd]

theorem reads_numeral (h : Numeral w) :
    ∃ t, (t = 3 ∨ t = 6) ∧ (scanner floatingSteps boundary).Reads 0 w t := by
  cases h with
  | pointed hw => exact ⟨3, .inl rfl, reads_mantissa hw⟩
  | scaled hw hx =>
    refine ⟨6, .inr rfl, ?_⟩
    rcases hw with hw | hw
    · exact (reads_integral hw).append (reads_exponent hx (.inl rfl))
    · exact (reads_mantissa hw).append (reads_exponent hx (.inr rfl))

/-- Behind a number without its mark every boundary stops the automaton. -/
theorem reads_double (hwords : ∀ d, boundary d = true → isWordPart d = false) (h : Numeral w) :
    ∃ t, (scanner floatingSteps boundary).Reads 0 w t ∧
      ∀ d, boundary d = true → (scanner floatingSteps boundary).move t d = .stop true := by
  obtain ⟨t, ht, hreads⟩ := reads_numeral h
  refine ⟨t, hreads, fun d hd => ?_⟩
  have hpart : isWordPart d = false := hwords d hd
  have hdigit : isDigit d = false := class_eq_false isWordPart_of_isDigit hpart
  have hne : ∀ {e}, isWordPart e = true → d ≠ e := fun he => (ne_of_class he hpart).symm
  have he : ¬ (d = 'E' ∨ d = 'e') := not_or.mpr ⟨hne (by decide), hne (by decide)⟩
  have hf : ¬ (d = 'F' ∨ d = 'f') := not_or.mpr ⟨hne (by decide), hne (by decide)⟩
  rcases ht with rfl | rfl
  · simp [floating_move, floatingMove, hdigit, he, hf, hd]
  · simp [floating_move, floatingMove, hdigit, hf, hd]

theorem reads_float {f : Char} (hw : Digits w ∨ Numeral w) (hf : f = 'F' ∨ f = 'f') :
    (scanner floatingSteps boundary).Reads 0 (w ++ [f]) 8 := by
  obtain ⟨t, ht, hreads⟩ : ∃ t, (t = 1 ∨ t = 3 ∨ t = 6) ∧
      (scanner floatingSteps boundary).Reads 0 w t := by
    rcases hw with hw | hw
    · exact ⟨1, .inl rfl, reads_integral hw⟩
    · obtain ⟨t, ht, hreads⟩ := reads_numeral hw
      exact ⟨t, .inr ht, hreads⟩
  refine hreads.concat ?_
  rw [floating_move]
  rcases ht with rfl | rfl | rfl <;> rcases hf with rfl | rfl <;> rfl

theorem run_floating (hwords : ∀ d, boundary d = true → isWordPart d = false) (h : FloatText w)
    (hc : boundary c = true) (rest : Text) :
    (scanner floatingSteps boundary).run (w ++ c :: rest) = ⟨true, w⟩ := by
  cases h with
  | double hw =>
    obtain ⟨t, hreads, hstop⟩ := reads_double hwords hw
    exact hreads.runFrom_stop (hstop c hc) rest
  | float hw hf =>
    exact run_of_reads (reads_float hw hf) (by simp [floating_move, floatingMove]) c rest

private theorem rejects_digitRun {s : Nat} (h : DigitRun isDigit w)
    (hs : ∀ d, isDigit d = true → floatingMove boundary d s = .advance 1)
    (hc : floatingMove boundary c 1 = .stop false) (rest : Text) :
    ((scanner floatingSteps boundary).runFrom s (w ++ c :: rest)).accepted = false := by
  have hstop : (scanner floatingSteps boundary).move 1 c = .stop false := by
    rw [floating_move, hc]
  have hline : (scanner floatingSteps boundary).move 1 '_' = .stop false := by
    rw [floating_move]
    rfl
  have hdigit : ∀ d, isDigit d = true → floatingMove boundary d 1 = .advance 1 :=
    fun d hd => move_digit (.inl rfl) hd
  have hadvance : ∀ {s}, (∀ d, isDigit d = true → floatingMove boundary d s = .advance 1) →
      ∀ {d}, isDigit d = true → (scanner floatingSteps boundary).move s d = .advance 1 :=
    fun hs d hd => by rw [floating_move, hs d hd]
  induction h generalizing s with
  | last hd =>
    rw [List.singleton_append, runFrom_of_advance (hadvance hs hd), runFrom_of_stop hstop]
  | next hd _ ih =>
    rw [List.cons_append, runFrom_of_advance (hadvance hs hd)]
    exact ih hdigit
  | underline hd _ _ =>
    rw [List.cons_append, List.cons_append, runFrom_of_advance (hadvance hs hd),
      runFrom_of_stop hline]

/-- An integer is no floating number, unless a point or the letter of an exponent follows. -/
theorem floating_rejects_integer (h : IntegerText w)
    (hc : floatingMove boundary c 1 = .stop false) (rest : Text) :
    ((scanner floatingSteps boundary).run (w ++ c :: rest)).accepted = false := by
  have hzero : (scanner floatingSteps boundary).move 0 '0' = .advance 1 := by
    rw [floating_move]
    rfl
  have hletter : ∀ {d : Char}, d = 'b' ∨ d = 'o' ∨ d = 'x' →
      (scanner floatingSteps boundary).move 1 d = .stop false := by
    intro d hd
    rw [floating_move]
    rcases hd with rfl | rfl | rfl <;> rfl
  have hradix : ∀ {d : Char} (v : Text), d = 'b' ∨ d = 'o' ∨ d = 'x' →
      ((scanner floatingSteps boundary).run ('0' :: d :: v)).accepted = false := by
    intro d v hd
    rw [run, Automaton.start, runFrom_of_advance hzero, runFrom_of_stop (hletter hd)]
  cases h with
  | decimal hw =>
    refine rejects_digitRun (s := 0) hw (fun d hd => ?_) hc rest
    rw [floatingMove, if_pos hd]
  | binary => exact hradix _ (.inl rfl)
  | octal => exact hradix _ (.inr (.inl rfl))
  | hex => exact hradix _ (.inr (.inr rfl))

/-! ### Blanks and operators -/

theorem run_space (hc : isBlank c = true) (rest : Text) :
    (scanner spaceSteps boundary).run (c :: rest) = ⟨true, [c]⟩ := by
  have hstart : (scanner spaceSteps boundary).move 0 c = .advance 1 := by
    rw [space_move, spaceMove, if_pos hc]
  have hend : (graph spaceSteps).isAccepting 1 = true := isAccepting_of_table space_table 1
  rw [run, Automaton.start, runFrom_of_advance hstart,
    (finishes_of_accepting space_table hend rest).runFrom]

end TokenGraph.Xogue
