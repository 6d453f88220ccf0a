import TokenGraph.Proofs.Priority
import TokenGraph.Proofs.Xogue.Contests

/-!
# Orders of the trials of Xogue

The first character of a text tells which categories can accept some of it. Only three pairs of
categories share such a character, so the trials may be reordered as long as these keep their order.
-/

namespace TokenGraph.Xogue

section Heads

variable {d : Char}

end Heads

theorem trialOrder_eq : xogue.trialOrder =
    [.comment, .identifier, .string, .char, .operator, .floating, .integer, .space] := by
  rfl

end TokenGraph.Xogue
