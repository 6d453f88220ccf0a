import TokenGraph.Proofs.Xogue.Analyzer

/-!
# Quoted literals

Which texts begin with a string or a character, and what their automata read of all others. Every
beginning of such a literal is read, so an open one is read to where it can no longer be closed.
-/

namespace TokenGraph.Xogue

open Scanner

variable {boundary : Char → Bool} {c : Char} {s v w : Text}

/-! ### Strings -/

theorem StringBody.append (hv : StringBody v) (hw : StringBody w) : StringBody (v ++ w) := by
  induction hv with
  | nil => exact hw
  | plain hquote hslash _ ih => exact .plain hquote hslash ih
  | escaped _ ih => exact .escaped ih

/-- What leads to the states of the automaton of the strings. -/
inductive StringPart : Nat → Text → Prop
  | start : StringPart 0 []
  | body {w : Text} (hw : StringBody w) : StringPart 1 ('"' :: w)
  | escape {w : Text} (hw : StringBody w) : StringPart 2 ('"' :: w ++ ['\\'])
  | closed {w : Text} (hw : StringText w) : StringPart 3 w

private theorem stringPart_step {t u : Nat} (hw : StringPart t w)
    (h : stringMove c t = .advance u) : StringPart u (w ++ [c]) := by
  cases hw with
  | start =>
    rw [stringMove] at h
    split at h
    · next hc =>
      subst hc
      cases h
      exact .body .nil
    · cases h
  | @body w hw =>
    rw [stringMove] at h
    split at h
    · next hc =>
      subst hc
      cases h
      exact .escape hw
    · next hslash =>
      split at h
      · next hc =>
        subst hc
        cases h
        exact .closed (.quoted hw)
      · next hquote =>
        cases h
        exact .body (hw.append (.plain hquote hslash .nil))
  | @escape w hw =>
    cases h
    have hbody : StringBody (w ++ ['\\', c]) := hw.append (.escaped .nil)
    simpa using StringPart.body hbody
  | closed hw => cases h

private theorem stringPart_viable {t : Nat} (hw : StringPart t w) : Viable StringText w := by
  cases hw with
  | start => exact ⟨_, .quoted .nil, List.nil_prefix⟩
  | body hw => exact ⟨_, .quoted hw, List.prefix_append _ _⟩
  | @escape w hw =>
    have hbody : StringBody (w ++ ['\\', '"']) := hw.append (.escaped .nil)
    exact ⟨_, .quoted hbody, ['"', '"'], by simp⟩
  | closed hw => exact ⟨w, hw, List.prefix_rfl⟩

theorem string_covers (boundary : Char → Bool) :
    (scanner stringSteps boundary).Covers StringText StringPart where
  eager := eager_of_table string_table boundary
  start := .start
  step hw h := stringPart_step hw (by rwa [string_move] at h)
  viable := stringPart_viable
  reads hw := ⟨3, reads_string hw⟩

/-- Only at its closing quote a string is accepted. -/
private theorem stringText_of_finishes {t : Nat} {rest : Text} (hw : StringPart t w)
    (h : (scanner stringSteps boundary).Finishes t rest true) : StringText w := by
  cases hw with
  | closed hw => exact hw
  | start | body hw | escape hw =>
    cases h with
    | atEnd hend =>
      rw [scanner, isAccepting_of_table string_table] at hend
      cases hend
    | atCharacter hstop =>
      simp only [string_move, stringMove] at hstop
      repeat' split at hstop
      all_goals cases hstop

/-- Behind an opening quote only the end of the text rejects. -/
private theorem eq_of_finishes {t : Nat} {rest : Text} (hw : StringPart t w)
    (h : (scanner stringSteps boundary).Finishes t rest false) :
    w = if ['"'] <+: w ++ rest then w ++ rest else [] := by
  cases hw with
  | start =>
    cases h with
    | atEnd hend => simp
    | atCharacter hstop =>
      rw [string_move, stringMove] at hstop
      split at hstop
      · cases hstop
      · next hc => simp [Ne.symm hc]
  | body hw | escape hw =>
    cases h with
    | atEnd hend => simp
    | atCharacter hstop =>
      simp only [string_move, stringMove] at hstop
      repeat' split at hstop
      all_goals cases hstop
  | closed hw =>
    cases h with
    | atEnd hend =>
      rw [scanner, isAccepting_of_table string_table] at hend
      cases hend
    | atCharacter hstop =>
      rw [string_move, stringMove] at hstop
      cases hstop

theorem string_accepts_iff :
    (scanner stringSteps boundary).run s = ⟨true, w⟩ ↔ StringText w ∧ w <+: s := by
  refine (string_covers boundary).accepts_iff_of_final stringText_of_finishes ?_
  intro w hw
  have hend : (graph stringSteps).isAccepting 3 = true := isAccepting_of_table string_table 3
  exact ⟨3, reads_string hw, finishes_of_accepting string_table hend⟩

/-- A text that begins with no string is read as a whole, if it begins with a quote at all. -/
theorem string_rejects_iff : (scanner stringSteps boundary).run s = ⟨false, w⟩ ↔
    (¬ ∃ v, StringText v ∧ v <+: s) ∧ w = if ['"'] <+: s then s else [] := by
  have hcovers := string_covers boundary
  have hread : ∀ v, (scanner stringSteps boundary).run s = ⟨false, v⟩ →
      v = if ['"'] <+: s then s else [] := by
    intro v hrun
    obtain ⟨t, rest, rfl, hv, hfinishes⟩ := (run_eq_iff_finishes hcovers.eager).mp hrun
    exact eq_of_finishes (hcovers.part_of_reads hv) hfinishes
  exact rejects_iff (fun _ => string_accepts_iff) hread fun _ _ hu hv => hu.trans hv.symm

/-! ### Characters -/

/-- What leads to the states of the automaton of the characters. -/
inductive CharPart : Nat → Text → Prop
  | start : CharPart 0 []
  | quote : CharPart 1 ['\'']
  | escape : CharPart 2 ['\'', '\\']
  | body {w : Text} (hw : CharText (w ++ ['\''])) : CharPart 3 w
  | closed {w : Text} (hw : CharText w) : CharPart 4 w

private theorem charPart_step {t u : Nat} (hw : CharPart t w) (h : charMove c t = .advance u) :
    CharPart u (w ++ [c]) := by
  cases hw with
  | start =>
    rw [charMove] at h
    split at h
    · next hc =>
      subst hc
      cases h
      exact .quote
    · cases h
  | quote =>
    rw [charMove] at h
    split at h
    · next hc =>
      subst hc
      cases h
      exact .escape
    · next hc =>
      cases h
      exact .body (.plain hc)
  | escape =>
    cases h
    exact .body .escaped
  | body hw =>
    rw [charMove] at h
    split at h
    · next hc =>
      subst hc
      cases h
      exact .closed hw
    · cases h
  | closed hw => cases h

private theorem charPart_viable {t : Nat} (hw : CharPart t w) : Viable CharText w := by
  have hletter : CharText ['\'', 'a', '\''] := .plain (by decide)
  have hescaped : CharText ['\'', '\\', 'a', '\''] := .escaped
  cases hw with
  | start => exact ⟨_, hletter, List.nil_prefix⟩
  | quote => exact ⟨_, hletter, List.prefix_append ['\''] _⟩
  | escape => exact ⟨_, hescaped, List.prefix_append ['\'', '\\'] _⟩
  | body hw => exact ⟨_, hw, List.prefix_append w _⟩
  | closed hw => exact ⟨w, hw, List.prefix_rfl⟩

theorem char_covers (boundary : Char → Bool) :
    (scanner charSteps boundary).Covers CharText CharPart where
  eager := eager_of_table char_table boundary
  start := .start
  step hw h := charPart_step hw (by rwa [char_move] at h)
  viable := charPart_viable
  reads hw := ⟨4, reads_char hw⟩

private theorem charText_of_finishes {t : Nat} {rest : Text} (hw : CharPart t w)
    (h : (scanner charSteps boundary).Finishes t rest true) : CharText w := by
  cases hw with
  | closed hw => exact hw
  | start | quote | escape | body hw =>
    cases h with
    | atEnd hend =>
      rw [scanner, isAccepting_of_table char_table] at hend
      cases hend
    | atCharacter hstop =>
      simp only [char_move, charMove] at hstop
      repeat' split at hstop
      all_goals cases hstop

theorem char_accepts_iff :
    (scanner charSteps boundary).run s = ⟨true, w⟩ ↔ CharText w ∧ w <+: s := by
  refine (char_covers boundary).accepts_iff_of_final charText_of_finishes ?_
  intro w hw
  have hend : (graph charSteps).isAccepting 4 = true := isAccepting_of_table char_table 4
  exact ⟨4, reads_char hw, finishes_of_accepting char_table hend⟩

theorem char_rejects_iff : (scanner charSteps boundary).run s = ⟨false, w⟩ ↔
    (¬ ∃ v, CharText v ∧ v <+: s) ∧ LongestViable CharText s w :=
  rejects_iff (fun _ => char_accepts_iff) (fun _ => (char_covers boundary).longestViable)
    fun _ _ => LongestViable.unique

theorem quote_of_charText (h : CharText w) : ['\''] <+: w := by
  cases h with
  | plain | escaped => exact List.prefix_append ['\''] _

/-- Where no quote stands in front, nothing is read. -/
theorem char_rejects_nil_iff :
    (scanner charSteps boundary).run s = ⟨false, []⟩ ↔ ¬ ['\''] <+: s := by
  have hquote : Viable CharText ['\''] := charPart_viable .quote
  have hnil : ∀ {w}, LongestViable CharText s w → (w = [] ↔ ¬ ['\''] <+: s) :=
    fun h => h.eq_nil_iff hquote fun _ => quote_of_charText
  constructor
  · intro hrun
    exact (hnil (char_rejects_iff.mp hrun).2).mp rfl
  · intro hs
    have hnone : ¬ ∃ v, CharText v ∧ v <+: s := by
      rintro ⟨v, hv, hprefix⟩
      exact hs ((quote_of_charText hv).trans hprefix)
    have hread := (char_covers boundary).longestViable (v := s) rfl
    rw [char_rejects_iff]
    exact ⟨hnone, (hnil hread).mpr hs ▸ hread⟩

/-- The automaton of the strings accepts a text that begins with a string, and reads the string. Of
any other text it reads all where a quote opens a string, and else nothing. The automaton of the
characters accepts a text that begins with a character, and reads that. Of any other text it reads
what a character may begin with, which is nothing only where there is no quote. -/
theorem quoted_scan : ∃ l p q, language = .ok l ∧ l.prototype? .string = some p ∧
    l.prototype? .char = some q ∧ ∀ operators s,
      (∀ w, p.scan operators s = ⟨true, w⟩ ↔ StringText w ∧ w <+: s) ∧
      (∀ w, p.scan operators s = ⟨false, w⟩ ↔
        (¬ ∃ v, StringText v ∧ v <+: s) ∧ w = if ['"'] <+: s then s else []) ∧
      (∀ w, q.scan operators s = ⟨true, w⟩ ↔ CharText w ∧ w <+: s) ∧
      (∀ w, q.scan operators s = ⟨false, w⟩ ↔
        (¬ ∃ v, CharText v ∧ v <+: s) ∧ LongestViable CharText s w) ∧
      (q.scan operators s = ⟨false, []⟩ ↔ ¬ ['\''] <+: s) := by
  refine ⟨xogue, stringTrial, charTrial, language_eq, rfl, rfl, fun operators s => ?_⟩
  exact ⟨fun w => string_accepts_iff, fun w => string_rejects_iff, fun w => char_accepts_iff,
    fun w => char_rejects_iff, char_rejects_nil_iff⟩

/-- A quote behind a backslash closes nothing, and a quote may stand between two others. -/
example : stringTrial.scan [] (text "\"\\\"é") = ⟨false, text "\"\\\"é"⟩ ∧
    charTrial.scan [] (text "'''x") = ⟨true, text "'''"⟩ ∧
    charTrial.scan [] (text "'\\'") = ⟨false, text "'\\'"⟩ := by
  decide +kernel

end TokenGraph.Xogue
