import TokenGraph.Automaton.Basic
import TokenGraph.Text.Quoted
/-!
# Listing an automaton

The states in order, each followed by the edges that leave it.
-/
namespace TokenGraph

def Role.title : Role → String
  | .start => "Start"
  | .intermediate => "Intermediate"
  | .accepting => "Accepting"
  | .error => "Error"

def EdgeKind.title : EdgeKind → String
  | .charClass => "CharClass"
  | .acceptOnBoundary => "AcceptOnBoundary"
  | .fallbackConsume => "FallbackConsume"
  | .fallbackNoConsume => "FallbackNoConsume"

namespace Automaton

def edgeLine (m : Automaton) (e : Edge) : Text :=
  text "  --[" ++ text e.kind.title ++ [' '] ++ quoted e.label ++ text "]--> " ++
    (m.states[e.dst]?.map State.label).getD [] ++ ['\n']

def stateLines (m : Automaton) (index : Nat) (s : State) : Except MissingEdge Text := do
  let edges ← (m.listed index).all
  return s.label ++ text " (" ++ text s.role.title ++ text ")\n" ++ edges.flatMap m.edgeLine

def listing (m : Automaton) : Except MissingEdge Text := do
  let lines ← m.states.toList.zipIdx.mapM fun (s, i) => m.stateLines i s
  return text "Num of states = " ++ text (toString m.stateCount) ++ ['\n'] ++ lines.flatten

end Automaton

end TokenGraph
