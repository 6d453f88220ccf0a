import TokenGraph.Proofs.Tiling

/-!
# Parts of documents

What is shown of a part of a document is what the whole shows there: a range of lines leaves out the
other lines, and text in front of a line moves it without changing it.
-/

namespace TokenGraph

/-! ### Joining documents -/

/-- Lines are cut behind an end mark whatever follows it. -/
theorem documentLines_append {s : Text} (h : s = [] ∨ ['\n'] <:+ s) (t : Text) :
    documentLines (s ++ t) = documentLines s ++ documentLines t := by
  induction s with
  | nil => rfl
  | cons c s ih =>
    have hmark : ['\n'] <:+ c :: s := h.resolve_left (by simp)
    have hrest : s = [] ∧ c = '\n' ∨ ['\n'] <:+ s := by
      rcases List.suffix_cons_iff.mp hmark with heq | hsuffix
      · obtain ⟨rfl, rfl⟩ := List.cons.inj heq
        exact .inl ⟨rfl, rfl⟩
      · exact .inr hsuffix
    have hlines := ih (hrest.imp_left And.left)
    rw [List.cons_append, documentLines, documentLines, hlines]
    by_cases hc : c = '\n'
    · rw [if_pos hc, if_pos hc, List.cons_append]
    · rw [if_neg hc, if_neg hc]
      have hsuffix : ['\n'] <:+ s := hrest.resolve_left fun h => hc h.2
      cases hs : documentLines s with
      | nil =>
        have hjoined := flatten_documentLines s
        rw [hs] at hjoined
        simp [← hjoined] at hsuffix
      | cons line lines => rfl

theorem Analyzer.terminated_cons (c : Char) {s : Text} (hs : s ≠ []) :
    terminated (c :: s) = c :: terminated s := by
  cases s with
  | nil => exact absurd rfl hs
  | cons d s =>
    rw [terminated, terminated, List.getLast?_cons_cons, List.cons_append, apply_ite (List.cons c)]

/-- The end mark of a document is that of its last line. -/
theorem terminated_documentLines {s : Text} (hs : s ≠ []) :
    Analyzer.terminated s = ((documentLines s).map Analyzer.terminated).flatten := by
  induction s with
  | nil => exact absurd rfl hs
  | cons c s ih =>
    by_cases hnil : s = []
    · subst hnil
      by_cases hc : c = '\n' <;> simp [documentLines, hc]
    · rw [Analyzer.terminated_cons c hnil, ih hnil]
      by_cases hc : c = '\n'
      · simp [documentLines, hc, Analyzer.terminated]
      · cases hlines : documentLines s with
        | nil =>
          have hjoined := flatten_documentLines s
          rw [hlines] at hjoined
          exact absurd hjoined.symm hnil
        | cons line lines =>
          have hline : line ≠ [] := ne_nil_of_mem_documentLines (s := s) (by simp [hlines])
          rw [documentLines, if_neg hc, hlines]
          simp [Analyzer.terminated_cons c hline]

/-- With its end mark a line has no other. -/
theorem terminated_of_mem_documentLines {s line : Text} (h : line ∈ documentLines s) :
    ∃ w, Analyzer.terminated line = w ++ ['\n'] ∧ '\n' ∉ w := by
  have hinner : '\n' ∉ line.dropLast := (documentLines_cut s).inner line h
  cases hlast : line.getLast? with
  | none => exact absurd (List.getLast?_eq_none_iff.mp hlast) (ne_nil_of_mem_documentLines h)
  | some c =>
    rw [Analyzer.terminated, hlast]
    obtain ⟨w, rfl⟩ := List.getLast?_eq_some_iff.mp hlast
    rw [List.dropLast_concat] at hinner
    by_cases hc : c = '\n'
    · exact ⟨w, by simp [hc], hinner⟩
    · exact ⟨w ++ [c], by simp [hc], by simp [hinner, Ne.symm hc]⟩

def Span.shift (span : Span) (chars : Nat) : Span :=
  { span with start := span.start + chars, stop := span.stop + chars }

/-- A line as it stands behind other lines with a number of characters. -/
def HighlightedLine.shift (line : HighlightedLine) (lines chars : Nat) : HighlightedLine where
  number := line.number + lines
  start := line.start + chars
  spans := line.spans.map fun span => span.shift chars

theorem Span.ofTokens_shift (offset lineEnd chars : Nat) (tokens : List Token) :
    ofTokens (offset + chars) (lineEnd + chars) tokens =
      (ofTokens offset lineEnd tokens).map fun span => span.shift chars := by
  induction tokens generalizing offset with
  | nil => rfl
  | cons t tokens ih =>
    rw [ofTokens, ofTokens]
    by_cases hend : lineEnd ≤ offset
    · rw [if_pos hend, if_pos (Nat.add_le_add_right hend chars), List.map_nil]
    · have hstop : min (offset + chars + t.text.length) (lineEnd + chars) =
          min (offset + t.text.length) lineEnd + chars := by omega
      rw [if_neg hend, if_neg (by omega), hstop]
      dsimp only
      rw [ih, List.map_cons, Nat.add_sub_add_right]
      rfl

namespace Analyzer

theorem highlightLine_shift (a : Analyzer) (number start lines chars : Nat) (piece : Text) :
    (a.highlightLine (number + lines) (start + chars) piece).value =
      (a.highlightLine number start piece).value.shift lines chars := by
  have hend : start + chars + piece.length = start + piece.length + chars := by omega
  simp only [highlightLine, Logged.map, HighlightedLine.shift]
  rw [hend, Span.ofTokens_shift]

theorem layout_shift (a : Analyzer) (number start lines chars : Nat) (pieces : List Text) :
    a.layout (number + lines) (start + chars) pieces =
      (a.layout number start pieces).map fun line => line.shift lines chars := by
  induction pieces generalizing number start with
  | nil => rfl
  | cons piece pieces ih =>
    have hnumber : number + lines + 1 = number + 1 + lines := by omega
    have hstart : start + chars + piece.length = start + piece.length + chars := by omega
    rw [layout, layout, List.map_cons, highlightLine_shift, hnumber, hstart, ih]

theorem layout_append (a : Analyzer) (number start : Nat) (pieces others : List Text) :
    a.layout number start (pieces ++ others) = a.layout number start pieces ++
      a.layout (number + pieces.length) (start + pieces.flatten.length) others := by
  induction pieces generalizing number start with
  | nil => rfl
  | cons piece pieces ih =>
    have hnumber : number + 1 + pieces.length = number + (pieces.length + 1) := by omega
    rw [List.cons_append, layout, layout, ih, List.cons_append, List.length_cons,
      List.flatten_cons, List.length_append, hnumber, Nat.add_assoc]

end Analyzer

theorem highlight_eq_layout {l : Language} {a : Analyzer} (h : Analyzer.ofLanguage l = .ok a)
    (s : Text) : ∃ out, l.highlight s = .ok out ∧ out.value = a.layout 0 0 (documentLines s) := by
  refine ⟨a.highlightFrom 0 none 0 0 (documentLines s), ?_, a.highlightFrom_value 0 0 _⟩
  rw [Language.highlight, Language.highlightLines, h]
  rfl

/-- A document that begins with whole lines of another one shows them as they were, and the rest as
a document of its own that is moved behind them. -/
theorem highlight_append {l : Language} {a : Analyzer} (h : Analyzer.ofLanguage l = .ok a)
    {s : Text} (hs : s = [] ∨ ['\n'] <:+ s) (t : Text) :
    ∃ first second both, l.highlight s = .ok first ∧ l.highlight t = .ok second ∧
      l.highlight (s ++ t) = .ok both ∧
      both.value = first.value ++
        second.value.map fun line => line.shift first.value.length s.length := by
  obtain ⟨first, hfirst, hfirstLines⟩ := highlight_eq_layout h s
  obtain ⟨second, hsecond, hsecondLines⟩ := highlight_eq_layout h t
  obtain ⟨both, hboth, hbothLines⟩ := highlight_eq_layout h (s ++ t)
  refine ⟨first, second, both, hfirst, hsecond, hboth, ?_⟩
  rw [hbothLines, documentLines_append hs, a.layout_append, flatten_documentLines, hfirstLines,
    hsecondLines, a.length_layout, ← a.layout_shift]

/-- The second document has multi-byte text in front of it and lacks its end mark. -/
theorem highlight_append_sample : ∃ l a, Analyzer.ofLanguage l = .ok a ∧
    (text "éé\n" = [] ∨ ['\n'] <:+ text "éé\n") ∧
    ∃ first second both, l.highlight (text "éé\n") = .ok first ∧
      l.highlight (text "=é") = .ok second ∧ l.highlight (text "éé\n=é") = .ok both ∧
      both.value = first.value ++
        second.value.map fun line => line.shift first.value.length (text "éé\n").length := by
  obtain ⟨l, a, -, ha, -⟩ := Analyzer.exists_sample
  have hmark : text "éé\n" = [] ∨ ['\n'] <:+ text "éé\n" := .inr (by decide)
  have happend := highlight_append ha hmark (text "=é")
  have hboth : text "éé\n" ++ text "=é" = text "éé\n=é" := by decide
  rw [hboth] at happend
  exact ⟨l, a, ha, hmark, happend⟩

/-! ### Ranges of lines -/

namespace Analyzer

/-- A bound that no line reaches is none. -/
theorem highlightFrom_unbounded (a : Analyzer) (first number start : Nat) {bound : Nat}
    {pieces : List Text} (h : number + pieces.length ≤ bound) :
    a.highlightFrom first (some bound) number start pieces =
      a.highlightFrom first none number start pieces := by
  induction pieces generalizing number start with
  | nil => rfl
  | cons piece pieces ih =>
    rw [List.length_cons] at h
    have hbound : ¬ bound ≤ number := by omega
    have hrest := ih (number + 1) (start + piece.length) (by omega)
    rw [highlightFrom, highlightFrom, hrest]
    simp [hbound]

end Analyzer

/-- The whole document is the range of its lines up to any bound that none of them reaches. -/
theorem highlightLines_unbounded (l : Language) (s : Text) {bound : Nat}
    (h : (documentLines s).length ≤ bound) : l.highlightLines s 0 (some bound) = l.highlight s := by
  rw [Language.highlight, Language.highlightLines, Language.highlightLines]
  congr 1
  funext a
  exact a.highlightFrom_unbounded 0 0 0 (by omega)

end TokenGraph
