import TokenGraph.Proofs.Xogue.Contests

/-!
# Printing and reading back

Lexemes that are printed with single blanks between them are the tokens of their line.
-/

namespace TokenGraph.Xogue

variable {w : Text} {k : Category}

/-! ### The ends of lexemes -/

private theorem digitRun_chars {digit : Char → Bool} (h : DigitRun digit w) :
    ∀ c ∈ w, digit c = true ∨ c = '_' := by
  induction h with
  | last hd => simp [hd]
  | next hd _ ih => simpa [hd] using ih
  | underline hd _ ih => simpa [hd] using ih

/-- No number holds a character outside of this class. -/
private def isNumberPart (c : Char) : Bool := isWordPart c || c = '.' || c = '+' || c = '-'

private theorem isNumberPart_of_isWordPart {c : Char} (h : isWordPart c = true) :
    isNumberPart c = true := by
  simp [isNumberPart, h]

private theorem integer_chars (h : IntegerText w) : ∀ c ∈ w, isNumberPart c = true := by
  have hrun : ∀ {digit : Char → Bool} {v : Text}, DigitRun digit v →
      (∀ {c}, digit c = true → isWordPart c = true) → ∀ c ∈ v, isNumberPart c = true := by
    intro digit v hv hdigit c hc
    rcases digitRun_chars hv c hc with hd | rfl
    · exact isNumberPart_of_isWordPart (hdigit hd)
    · decide
  cases h with
  | decimal hw => exact hrun hw isWordPart_of_isDigit
  | binary hw => simpa using ⟨by decide, by decide, hrun hw isWordPart_of_isBinaryDigit⟩
  | octal hw => simpa using ⟨by decide, by decide, hrun hw isWordPart_of_isOctalDigit⟩
  | hex hw => simpa using ⟨by decide, by decide, hrun hw isWordPart_of_isHexDigit⟩

private theorem digits_chars (h : ∀ c ∈ w, isDigit c = true) : ∀ c ∈ w, isNumberPart c = true :=
  fun c hc => isNumberPart_of_isWordPart (isWordPart_of_isDigit (h c hc))

private theorem mantissa_chars (h : Mantissa w) : ∀ c ∈ w, isNumberPart c = true := by
  cases h with
  | closed hw hv =>
    refine List.forall_mem_append.mpr ⟨digits_chars hw.2, ?_⟩
    exact List.forall_mem_cons.mpr ⟨by decide, digits_chars hv⟩
  | bare hv => exact List.forall_mem_cons.mpr ⟨by decide, digits_chars hv.2⟩

private theorem exponent_chars (h : Exponent w) : ∀ c ∈ w, isNumberPart c = true := by
  cases h with
  | unsigned he hw =>
    refine List.forall_mem_cons.mpr ⟨?_, digits_chars hw.2⟩
    rcases he with rfl | rfl <;> decide
  | signed he hs hw =>
    refine List.forall_mem_cons.mpr ⟨?_, List.forall_mem_cons.mpr ⟨?_, digits_chars hw.2⟩⟩
    · rcases he with rfl | rfl <;> decide
    · rcases hs with rfl | rfl <;> decide

private theorem numeral_chars (h : Numeral w) : ∀ c ∈ w, isNumberPart c = true := by
  cases h with
  | pointed hw => exact mantissa_chars hw
  | scaled hw hx =>
    refine List.forall_mem_append.mpr ⟨?_, exponent_chars hx⟩
    rcases hw with hw | hw
    · exact digits_chars hw.2
    · exact mantissa_chars hw

private theorem float_chars (h : FloatText w) : ∀ c ∈ w, isNumberPart c = true := by
  cases h with
  | double hw => exact numeral_chars hw
  | float hw hf =>
    refine List.forall_mem_append.mpr ⟨?_, List.forall_mem_singleton.mpr ?_⟩
    · rcases hw with hw | hw
      · exact digits_chars hw.2
      · exact numeral_chars hw
    · rcases hf with rfl | rfl <;> decide

private theorem word_chars (h : Word w) : ∀ c ∈ w, isWordPart c = true := by
  obtain ⟨d, v, rfl, hd, hv⟩ := h
  have hstart : isWordPart d = true := by rw [isWordPart, hd, Bool.true_or]
  exact List.forall_mem_cons.mpr ⟨hstart, hv⟩

/-- A line that ends with a lexeme has no end mark yet. -/
theorem Lexeme.getLast?_ne (h : Lexeme k w) : w.getLast? ≠ some '\n' := by
  have hclass : ∀ {p : Char → Bool}, p '\n' = false → (∀ c ∈ w, p c = true) →
      w.getLast? ≠ some '\n' := by
    intro p hp hw hlast
    rw [hw '\n' (List.mem_of_getLast? hlast)] at hp
    cases hp
  cases h with
  | keyword hw | identifier hw => exact hclass (by decide) (word_chars hw)
  | operator hw =>
    intro hlast
    have hblank := (operators_chars w hw).2 '\n' (List.mem_of_getLast? hlast)
    exact absurd hblank.2.1 (by decide)
  | integer hw => exact hclass (by decide) (integer_chars hw)
  | floating hw => exact hclass (by decide) (float_chars hw)
  | string hw =>
    cases hw
    rw [List.getLast?_concat]
    decide
  | char hw =>
    cases hw with
    | plain | escaped => simp
  | comment hw =>
    obtain ⟨hv⟩ := hw
    obtain ⟨⟨u, rfl⟩, -⟩ := hv
    have hassoc : '/' :: '*' :: (u ++ ['*', '/']) = ('/' :: '*' :: u ++ ['*']) ++ ['/'] := by simp
    rw [hassoc, List.getLast?_concat]
    decide

/-! ### Lines of lexemes -/

private theorem analyze_blank {c : Char} (hc : isBlank c = true) (rest : Text) :
    (analyzer.analyze (c :: rest)).map bare =
      (.space, [c]) :: (analyzer.analyze rest).map bare := by
  have hhead : bare (analyzer.headToken c rest) = (.space, [c]) :=
    bare_headToken (by simp [analyzer]) (space_wins hc)
  have htext : (analyzer.headToken c rest).text = [c] := congrArg Prod.snd hhead
  rw [Analyzer.analyze_cons, List.map_cons, hhead, htext]
  rfl

private theorem analyze_lexeme {c : Char} (h : Lexeme k w) (hc : isBlank c = true) (rest : Text) :
    (analyzer.analyze (w ++ c :: rest)).map bare =
      (k, w) :: (analyzer.analyze (c :: rest)).map bare := by
  obtain ⟨p, hp, hcontest, rfl⟩ := contest_lexeme h hc rest
  cases hs : w ++ c :: rest with
  | nil => simp at hs
  | cons d s =>
    rw [hs] at hcontest
    have hhead := bare_headToken hp hcontest
    have htext : (analyzer.headToken d s).text = w := congrArg Prod.snd hhead
    rw [Analyzer.analyze_cons, List.map_cons, hhead, htext, ← hs, List.drop_left]

/-- Lexemes with a blank between any two of them. -/
def printed (lexemes : List (Category × Text)) : Text := [' '].intercalate (lexemes.map Prod.snd)

private theorem printed_cons_cons (x y : Category × Text) (lexemes : List (Category × Text)) :
    printed (x :: y :: lexemes) = x.2 ++ ' ' :: printed (y :: lexemes) := by
  simp [printed, List.intercalate]

private theorem getLast?_printed {lexemes : List (Category × Text)}
    (h : ∀ x ∈ lexemes, Lexeme x.1 x.2) : (printed lexemes).getLast? ≠ some '\n' := by
  induction lexemes with
  | nil => simp [printed]
  | cons x lexemes ih =>
    obtain ⟨hx, hrest⟩ := List.forall_mem_cons.mp h
    cases lexemes with
    | nil => simpa [printed] using hx.getLast?_ne
    | cons y lexemes =>
      have hlast := ih hrest
      rw [printed_cons_cons, List.getLast?_append, List.getLast?_cons]
      cases hj : (printed (y :: lexemes)).getLast? with
      | none => simp
      | some d =>
        rw [hj] at hlast
        simpa using hlast

theorem analyze_printed {lexemes : List (Category × Text)}
    (h : ∀ x ∈ lexemes, Lexeme x.1 x.2) :
    (analyzer.analyze (printed lexemes ++ ['\n'])).map bare =
      lexemes.intersperse (.space, [' ']) ++ [(.space, ['\n'])] := by
  have hend : (analyzer.analyze ['\n']).map bare = [(.space, ['\n'])] :=
    analyze_blank (by decide) []
  induction lexemes with
  | nil => exact hend
  | cons x lexemes ih =>
    obtain ⟨hx, hrest⟩ := List.forall_mem_cons.mp h
    cases lexemes with
    | nil =>
      have hprinted : printed [x] = x.2 := by simp [printed]
      rw [hprinted, analyze_lexeme hx (by decide), hend]
      rfl
    | cons y lexemes =>
      rw [printed_cons_cons, List.append_assoc, List.cons_append, analyze_lexeme hx (by decide),
        analyze_blank (by decide), ih hrest]
      rfl

/-- Lexemes that are printed with single blanks between them are read back as they were, each in
its own category, with the blanks and the end mark of the line as the only other tokens. -/
theorem analyzeLine_printed : ∃ l a, language = .ok l ∧ Analyzer.ofLanguage l = .ok a ∧
    ∀ lexemes : List (Category × Text), (∀ x ∈ lexemes, Lexeme x.1 x.2) →
      (a.analyzeLine (printed lexemes)).map bare =
        lexemes.intersperse (.space, [' ']) ++ [(.space, ['\n'])] := by
  refine ⟨xogue, analyzer, language_eq, analyzer_eq, ?_⟩
  intro lexemes h
  have hline : Analyzer.terminated (printed lexemes) = printed lexemes ++ ['\n'] :=
    if_neg (getLast?_printed h)
  change (analyzer.analyze (Analyzer.terminated (printed lexemes))).map bare = _
  rw [hline]
  exact analyze_printed h

/-- One lexeme of each kind, with a slash in front of a comment. -/
private def sample : List (Category × Text) := [
  (.keyword, text "if"), (.identifier, text "_x1"), (.operator, text "/"), (.comment, text "/**/"),
  (.integer, text "0x1_F"), (.floating, text "1."), (.string, text "\"\\\"\""), (.char, text "'''")]

theorem analyzeLine_printed_sample : ∃ l a, language = .ok l ∧ Analyzer.ofLanguage l = .ok a ∧
    (∀ x ∈ sample, Lexeme x.1 x.2) ∧
    (a.analyzeLine (text "if _x1 / /**/ 0x1_F 1. \"\\\"\" '''")).map bare = [
      (.keyword, text "if"), (.space, [' ']), (.identifier, text "_x1"), (.space, [' ']),
      (.operator, text "/"), (.space, [' ']), (.comment, text "/**/"), (.space, [' ']),
      (.integer, text "0x1_F"), (.space, [' ']), (.floating, text "1."), (.space, [' ']),
      (.string, text "\"\\\"\""), (.space, [' ']), (.char, text "'''"), (.space, ['\n'])] := by
  obtain ⟨l, a, hl, ha, hlines⟩ := analyzeLine_printed
  have hkeyword : Word (text "if") :=
    ⟨'i', ['f'], rfl, by decide, List.forall_mem_singleton.mpr (by decide)⟩
  have hidentifier : Word (text "_x1") := ⟨'_', ['x', '1'], rfl, by decide,
    List.forall_mem_cons.mpr ⟨by decide, List.forall_mem_singleton.mpr (by decide)⟩⟩
  have hclosed : ClosesAtEnd ['*', '/'] := by
    refine ⟨List.suffix_rfl, ?_⟩
    intro before after h
    have hlen := congrArg List.length h
    simp only [List.length_append, List.length_cons, List.length_nil] at hlen
    exact List.length_eq_zero_iff.mp (by omega)
  have hcomment : BlockComment (text "/**/") := .closed hclosed
  have hinteger : IntegerText (text "0x1_F") := .hex (.underline (by decide) (.last (by decide)))
  have hdigits : Digits ['1'] := ⟨by decide, List.forall_mem_singleton.mpr (by decide)⟩
  have hfloating : FloatText (text "1.") := .double (.pointed (.closed (v := []) hdigits (by simp)))
  have hstring : StringText (text "\"\\\"\"") := .quoted (.escaped .nil)
  have hsample : ∀ x ∈ sample, Lexeme x.1 x.2 := by
    simpa [sample] using ⟨Lexeme.keyword hkeyword (by decide),
      Lexeme.identifier hidentifier (by decide), Lexeme.operator (by decide),
      Lexeme.comment hcomment, Lexeme.integer hinteger, Lexeme.floating hfloating (by decide),
      Lexeme.string hstring, Lexeme.char (.plain (by decide))⟩
  exact ⟨l, a, hl, ha, hsample, hlines sample hsample⟩

end TokenGraph.Xogue
