import TokenGraph.Highlight
import TokenGraph.Proofs.Coverage

/-!
# Tiling

The spans of a highlighted document, end to end, are the document. Each line shows the tokens of its
own analysis, of which the end mark that a last line lacks is cut off again.
-/

namespace TokenGraph

/-- The pieces of a text that is cut behind every end mark. -/
structure CutIntoLines (s : Text) (pieces : List Text) : Prop where
  joined : pieces.flatten = s
  ne_nil : ∀ piece ∈ pieces, piece ≠ []
  inner : ∀ piece ∈ pieces, '\n' ∉ piece.dropLast
  marked : ∀ piece ∈ pieces.dropLast, ['\n'] <:+ piece

private theorem documentLines_inner {s piece : Text} (h : piece ∈ documentLines s) :
    '\n' ∉ piece.dropLast := by
  induction s generalizing piece with
  | nil => simp [documentLines] at h
  | cons c rest ih =>
    rw [documentLines] at h
    split at h
    · rcases List.mem_cons.mp h with rfl | h
      · simp
      · exact ih h
    · next hc =>
      split at h
      · rw [List.mem_singleton] at h
        simp [h]
      · next line lines hlines =>
        have hline : line ∈ documentLines rest := by simp [hlines]
        rcases List.mem_cons.mp h with rfl | h
        · rw [List.dropLast_cons_of_ne_nil (ne_nil_of_mem_documentLines hline)]
          simp [Ne.symm hc, ih hline]
        · exact ih (by simp [hlines, h])

private theorem documentLines_marked {s piece : Text} (h : piece ∈ (documentLines s).dropLast) :
    ['\n'] <:+ piece := by
  induction s generalizing piece with
  | nil => simp [documentLines] at h
  | cons c rest ih =>
    rw [documentLines] at h
    split at h
    · next hc =>
      cases hlines : documentLines rest with
      | nil => simp [hlines] at h
      | cons line lines =>
        rw [hlines, List.dropLast_cons_of_ne_nil (by simp), List.mem_cons] at h
        rcases h with rfl | h
        · simp [hc]
        · exact ih (by rwa [hlines])
    · split at h
      · simp at h
      · next line lines hlines =>
        cases lines with
        | nil => simp at h
        | cons next lines =>
          rw [List.dropLast_cons_of_ne_nil (by simp), List.mem_cons] at h
          rw [hlines, List.dropLast_cons_of_ne_nil (by simp)] at ih
          rcases h with rfl | h
          · exact (ih (by simp)).trans (List.suffix_cons c line)
          · exact ih (by simp [h])

theorem documentLines_cut (s : Text) : CutIntoLines s (documentLines s) where
  joined := flatten_documentLines s
  ne_nil _ := ne_nil_of_mem_documentLines
  inner _ := documentLines_inner
  marked _ := documentLines_marked

namespace Span

def token (span : Span) : Token := ⟨span.category, span.text, span.style⟩

/-- Spans that follow each other from one offset to another, each as long as its text. -/
def Abut : Nat → List Span → Nat → Prop
  | offset, [], stop => offset = stop
  | offset, span :: rest, stop =>
    span.start = offset ∧ span.start < span.stop ∧ span.length = span.text.length ∧
      Abut span.stop rest stop

theorem Abut.append {i j k : Nat} {spans others : List Span} (h : Abut i spans j)
    (h' : Abut j others k) : Abut i (spans ++ others) k := by
  induction spans generalizing i with
  | nil =>
    cases h
    exact h'
  | cons span spans ih =>
    obtain ⟨hstart, hpos, hlen, hrest⟩ := h
    exact ⟨hstart, hpos, hlen, ih hrest⟩

end Span

/-- Tokens before and after the end mark behind them is cut off: the last token loses it, or goes
where it is nothing else. -/
inductive CutEndMark : List Token → List Token → Prop
  | alone (before : List Token) {last : Token} (h : last.text = ['\n']) :
      CutEndMark (before ++ [last]) before
  | shared (before : List Token) {last : Token} {w : Text} (hw : w ≠ [])
      (h : last.text = w ++ ['\n']) :
      CutEndMark (before ++ [last]) (before ++ [{ last with text := w }])

theorem CutEndMark.cons {tokens shown : List Token} (h : CutEndMark tokens shown) (t : Token) :
    CutEndMark (t :: tokens) (t :: shown) := by
  cases h with
  | alone before h => exact .alone (t :: shown) h
  | shared before hw h => exact .shared (t :: before) hw h

namespace Analyzer

def layout (a : Analyzer) : (number start : Nat) → List Text → List HighlightedLine
  | _, _, [] => []
  | number, start, piece :: rest =>
    (a.highlightLine number start piece).value ::
      a.layout (number + 1) (start + piece.length) rest

theorem highlightFrom_value (a : Analyzer) (number start : Nat) (pieces : List Text) :
    (a.highlightFrom 0 none number start pieces).value = a.layout number start pieces := by
  induction pieces generalizing number start with
  | nil => rfl
  | cons piece pieces ih => simp [highlightFrom, layout, ih]

theorem length_layout (a : Analyzer) (number start : Nat) (pieces : List Text) :
    (a.layout number start pieces).length = pieces.length := by
  induction pieces generalizing number start with
  | nil => rfl
  | cons piece pieces ih => simp [layout, ih]

end Analyzer

end TokenGraph
