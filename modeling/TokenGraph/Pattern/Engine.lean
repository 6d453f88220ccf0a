import TokenGraph.Text.Basic
/-!
# Pattern engines

The patterns of character classes are read by an engine. All that is asked of a pattern that has
been read is whether it matches somewhere in a text.
-/
namespace TokenGraph

/-- A pattern as an engine has read it. -/
structure CompiledPattern where
  found : Text → Bool

/-- What reads patterns. A text that is no pattern, or too large a one, is refused. -/
class PatternEngine where
  compile? : Text → Option CompiledPattern

end TokenGraph
