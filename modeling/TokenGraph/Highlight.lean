import TokenGraph.Analyzer
/-!
# Highlighting documents

A document is analyzed line by line. Each line gives spans that cover it, in character offsets of
the document; what a token holds beyond the end of its line is cut off.
-/
namespace TokenGraph

structure Span where
  start : Nat
  stop : Nat
  category : Category
  style : FontStyle
  text : Text
  deriving DecidableEq

structure HighlightedLine where
  number : Nat
  start : Nat
  spans : List Span
  deriving DecidableEq

/-- The lines of a document, each with its end mark; the last line may lack it. -/
def documentLines : Text → List Text
  | [] => []
  | c :: rest =>
    if c = '\n' then [c] :: documentLines rest
    else
      match documentLines rest with
      | [] => [[c]]
      | line :: lines => (c :: line) :: lines

theorem flatten_documentLines (s : Text) : (documentLines s).flatten = s := by
  induction s with
  | nil => rfl
  | cons c rest ih =>
    simp only [documentLines]
    split
    · simp [ih]
    · split
      · next h =>
        simp only [h, List.flatten_nil] at ih
        simp [← ih]
      · next h =>
        simp only [h, List.flatten_cons] at ih
        simp [← ih]

theorem ne_nil_of_mem_documentLines {s line : Text} (h : line ∈ documentLines s) : line ≠ [] := by
  induction s generalizing line with
  | nil => simp [documentLines] at h
  | cons c rest ih =>
    simp only [documentLines] at h
    split at h
    · rcases List.mem_cons.1 h with h | h
      · simp [h]
      · exact ih h
    · split at h
      · simp only [List.mem_singleton] at h
        simp [h]
      · next l ls hl =>
        rcases List.mem_cons.1 h with h | h
        · simp [h]
        · exact ih (hl ▸ List.mem_cons_of_mem _ h)

namespace Span

def length (s : Span) : Nat := s.stop - s.start

def isEmpty (s : Span) : Bool := s.start = s.stop

/-- The spans of tokens laid out from an offset up to the end of their line. -/
def ofTokens (offset lineEnd : Nat) : List Token → List Span
  | [] => []
  | t :: rest =>
    if lineEnd ≤ offset then []
    else
      let stop := min (offset + t.text.length) lineEnd
      ⟨offset, stop, t.category, t.style, t.text.take (stop - offset)⟩ :: ofTokens stop lineEnd rest

end Span

namespace Analyzer

def highlightLine (a : Analyzer) (number start : Nat) (line : Text) : Logged HighlightedLine :=
  (a.analyzeLineLogged line).map fun tokens =>
    ⟨number, start, Span.ofTokens start (start + line.length) tokens⟩

/-- Highlights the lines from `first` up to `stop`, if there is one. Lines before count for the
offsets only. -/
def highlightFrom (a : Analyzer) (first : Nat) (stop : Option Nat) (number start : Nat) :
    List Text → Logged (List HighlightedLine)
  | [] => ⟨[], []⟩
  | line :: rest =>
    if stop.any (· ≤ number) then ⟨[], []⟩
    else
      let others := a.highlightFrom first stop (number + 1) (start + line.length) rest
      if first ≤ number then
        let shown := a.highlightLine number start line
        ⟨shown.value :: others.value, shown.events ++ others.events⟩
      else others

end Analyzer

namespace Language

def highlightLines (l : Language) (s : Text) (first : Nat) (stop : Option Nat) :
    Except LanguageError (Logged (List HighlightedLine)) :=
  (Analyzer.ofLanguage l).map fun a => a.highlightFrom first stop 0 0 (documentLines s)

def highlight (l : Language) (s : Text) : Except LanguageError (Logged (List HighlightedLine)) :=
  l.highlightLines s 0 none

end Language

def lineNumbered? (lines : List HighlightedLine) (number : Nat) : Option HighlightedLine :=
  lines.find? fun line => line.number = number

end TokenGraph
