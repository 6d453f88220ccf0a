import TokenGraph.Automaton.Basic
/-!
# Running an automaton

A scanner reads a text from its first character. At each character it takes the first edge whose
class holds it, stops at a boundary, or falls back; it looks no further than that character. A
scanner that falls back more often than there are states without reading is going round in circles
and gives up.

A checked scanner fails if it comes to an edge that a state lists and that is not there. Where it
does not fail it agrees with the other one, which takes such a list to end there.
-/
namespace TokenGraph

structure Outcome where
  accepted : Bool
  consumed : Text
  deriving DecidableEq

/-- An automaton with what it needs to be run. An exact scanner compares characters with the labels
of edges, others test their classes. -/
structure Scanner where
  graph : Automaton
  exact : Bool
  boundary : Char → Bool

/-- What a scanner does at one character in one state. -/
inductive Move where
  | stop (accepted : Bool)
  | stay (next : Nat)
  | advance (next : Nat)
  deriving DecidableEq

/-- How the moves at one character end: the scanner halts, or reads the character. -/
inductive Settled where
  | halted (accepted : Bool)
  | advanced (next : Nat)
  deriving DecidableEq

namespace Scanner

def fires (m : Scanner) (e : Edge) (c : Char) : Bool :=
  if m.exact then e.spells c else e.takes c

/-- The move of the first edge that fires by itself: a class edge reads, a boundary edge accepts. -/
def direct? (m : Scanner) (c : Char) : List Edge → Option Move
  | [] => none
  | e :: rest =>
    match e.kind with
    | .charClass => if m.fires e c then some (.advance e.dst) else m.direct? c rest
    | .acceptOnBoundary => if m.boundary c then some (.stop true) else m.direct? c rest
    | .fallbackConsume | .fallbackNoConsume => m.direct? c rest

def fallback? : List Edge → Option Move
  | [] => none
  | e :: rest =>
    match e.kind with
    | .fallbackConsume => some (.advance e.dst)
    | .fallbackNoConsume => some (.stay e.dst)
    | .charClass | .acceptOnBoundary => fallback? rest

/-- Entering an error state rejects. -/
def guarded (m : Scanner) : Move → Move
  | .stop accepted => .stop accepted
  | .stay next => if m.graph.isError next then .stop false else .stay next
  | .advance next => if m.graph.isError next then .stop false else .advance next

/-- The move in a state at a character. Without an edge to take the state itself decides. -/
def move (m : Scanner) (s : Nat) (c : Char) : Move :=
  let edges := m.graph.outgoing s
  m.guarded (((m.direct? c edges).or (fallback? edges)).getD (.stop (m.graph.isAccepting s)))

/-- The moves at a character, of which at most `stays` may leave it unread. -/
def settle (m : Scanner) (c : Char) : (stays : Nat) → (s : Nat) → Settled
  | stays, s =>
    match m.move s c with
    | .stop accepted => .halted accepted
    | .advance next => .advanced next
    | .stay next =>
      match stays with
      | 0 => .halted false
      | stays + 1 => m.settle c stays next

/-- Runs from a state. At the end of the text the state decides. -/
def runFrom (m : Scanner) (s : Nat) : Text → Outcome
  | [] => ⟨m.graph.isAccepting s, []⟩
  | c :: rest =>
    match m.settle c m.graph.stateCount s with
    | .halted accepted => ⟨accepted, []⟩
    | .advanced next =>
      let tail := m.runFrom next rest
      ⟨tail.accepted, c :: tail.consumed⟩

def run (m : Scanner) (s : Text) : Outcome := m.runFrom Automaton.start s

/-- The move in a state at a character. The edges that fire by themselves are looked through first,
then those that are fallen back on. -/
def checkedMove (m : Scanner) (s : Nat) (c : Char) : Except MissingEdge Move := do
  let edges := m.graph.listed s
  let direct ← edges.search (m.direct? c)
  let found ← if direct.isSome then pure direct else edges.search fallback?
  return m.guarded (found.getD (.stop (m.graph.isAccepting s)))

def checkedSettle (m : Scanner) (c : Char) : (stays : Nat) → (s : Nat) → Except MissingEdge Settled
  | stays, s =>
    match m.checkedMove s c with
    | .error edge => .error edge
    | .ok (.stop accepted) => .ok (.halted accepted)
    | .ok (.advance next) => .ok (.advanced next)
    | .ok (.stay next) =>
      match stays with
      | 0 => .ok (.halted false)
      | stays + 1 => m.checkedSettle c stays next

def checkedRunFrom (m : Scanner) (s : Nat) : Text → Except MissingEdge Outcome
  | [] => .ok ⟨m.graph.isAccepting s, []⟩
  | c :: rest =>
    match m.checkedSettle c m.graph.stateCount s with
    | .error edge => .error edge
    | .ok (.halted accepted) => .ok ⟨accepted, []⟩
    | .ok (.advanced next) => do
      let tail ← m.checkedRunFrom next rest
      return ⟨tail.accepted, c :: tail.consumed⟩

def checkedRun (m : Scanner) (s : Text) : Except MissingEdge Outcome :=
  m.checkedRunFrom Automaton.start s

theorem runFrom_consumed_isPrefix (m : Scanner) (s : Nat) (w : Text) :
    (m.runFrom s w).consumed <+: w := by
  induction w generalizing s with
  | nil => simp [runFrom]
  | cons c rest ih =>
    simp only [runFrom]
    split
    · simp
    · next t _ => exact List.cons_prefix_cons.2 ⟨rfl, ih t⟩

theorem run_consumed_isPrefix (m : Scanner) (w : Text) : (m.run w).consumed <+: w :=
  m.runFrom_consumed_isPrefix Automaton.start w

end Scanner

end TokenGraph
