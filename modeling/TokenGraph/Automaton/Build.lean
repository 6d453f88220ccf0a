import TokenGraph.Automaton.Basic
import TokenGraph.Error
/-!
# Building automata

An automaton is built step by step from the start state. A step that cannot take effect leaves the
graph as it is; the first pattern that is no expression is remembered, and refuses the result. A
state may come from another graph. The numbers in its lists are those of edges there, and building
ends if one of them is looked up and there is no such edge here.
-/
namespace TokenGraph

inductive BuildStep where
  | state (added : State)
  | edge (src label dst : Text) (kind : EdgeKind)
  | literals (symbols : List Text)

namespace Automaton

def pushState (m : Automaton) (added : State) : Automaton :=
  { m with states := m.states.push added }

/-- Adds a state unless it would be a second start or the same as an earlier one. -/
def addState (m : Automaton) (added : State) : Automaton :=
  if added.role = .start then m
  else if (m.findState? added.label added.role).isSome then m
  else m.pushState added

/-- Adds an edge behind all others, whatever edges there are. -/
def pushEdge (m : Automaton) (src dst : Nat) (label : Text) (kind : EdgeKind)
    (chars : Option CharClass) : Automaton :=
  let id := m.edges.size
  { states := (m.states.modify src fun s => { s with outgoing := s.outgoing ++ [id] }).modify dst
      fun s => { s with incoming := s.incoming ++ [id] }
    edges := m.edges.push { id, src, dst, label, kind, chars } }

/-- Adds an edge unless the source lists one of this label to this target. -/
def connect (m : Automaton) (src dst : Nat) (label : Text) (kind : EdgeKind)
    (chars : Option CharClass) : Automaton :=
  if (m.outgoing src).any fun e => e.dst = dst && e.label = label then m
  else m.pushEdge src dst label kind chars

/-- Adds an edge like `connect`, unless an edge that has to be looked at for that is missing. -/
def checkedConnect (m : Automaton) (src dst : Nat) (label : Text) (kind : EdgeKind)
    (chars : Option CharClass) : Except MissingEdge Automaton := do
  let present ← (m.listed src).search fun edges =>
    edges.find? fun e => e.dst = dst && e.label = label
  return if present.isSome then m else m.pushEdge src dst label kind chars

/-- Walks a symbol from a state, adding what is missing of its path. `done` is the part walked
before, and the label of the state reached. -/
def extend (m : Automaton) (s : Nat) (done : Text) : Text → Automaton × Nat
  | [] => (m, s)
  | c :: rest =>
    match m.findEdge? s [c] with
    | some e => m.extend e.dst (done ++ [c]) rest
    | none =>
      let next := m.stateCount
      let m := (m.pushState (.fresh (done ++ [c]) .intermediate)).connect s next [c] .charClass
        (some (.only c))
      m.extend next (done ++ [c]) rest

/-- Adds a symbol to a tree of symbols; the empty symbol adds nothing. -/
def addSymbol (m : Automaton) (symbol : Text) : Automaton :=
  if symbol.isEmpty then m
  else
    let (m, last) := m.extend start [] symbol
    { m with states := m.states.modify last fun s => { s with role := .accepting } }

/-- The tree of the symbols, in which they share their common beginnings. -/
def ofLiterals (symbols : List Text) : Automaton := symbols.foldl addSymbol initial

/-- Drops all states but the first, and all edges. -/
def clear (m : Automaton) : Automaton where
  states := (m.states.take 1).modify 0 fun s => { s with outgoing := [], incoming := [] }
  edges := #[]

end Automaton

/-- An automaton under construction, with the first pattern that could not be read and the first
edge that was looked up and not there. -/
structure Draft where
  graph : Automaton := .initial
  refused : Option Text := none
  missing : Option MissingEdge := none

namespace Draft

variable [PatternEngine]

/-- The class of a new edge, which only class edges have; it can fail to be one. -/
def chars? (label : Text) : EdgeKind → Option (Option CharClass)
  | .charClass => (CharClass.ofPattern? label).map some
  | .acceptOnBoundary | .fallbackConsume | .fallbackNoConsume => some none

/-- Adds an edge between the first states of two labels, if there are such states. -/
def addEdge (d : Draft) (src label dst : Text) (kind : EdgeKind) : Draft :=
  match d.graph.findLabel? src, d.graph.findLabel? dst with
  | some s, some t =>
    match chars? label kind with
    | some chars =>
      match d.graph.checkedConnect s t label kind chars with
      | .ok graph => { d with graph }
      | .error edge => { d with missing := d.missing.or (some edge) }
    | none => { d with refused := d.refused.or (some label) }
  | _, _ => d

def apply (d : Draft) : BuildStep → Draft
  | .state added => { d with graph := d.graph.addState added }
  | .edge src label dst kind => d.addEdge src label dst kind
  | .literals symbols => { d with graph := symbols.foldl Automaton.addSymbol d.graph.clear }

def run (steps : List BuildStep) : Draft := steps.foldl apply {}

/-- What comes of a draft. A missing edge ended the building when it was looked up, so it counts
before any pattern. -/
def finish (d : Draft) : Except LanguageError Automaton :=
  match d.missing, d.refused with
  | some edge, _ => .error (.missingEdge edge.edgeCount edge.id)
  | none, some pattern => .error (.badPattern pattern)
  | none, none => .ok d.graph

end Draft

def Automaton.build [PatternEngine] (steps : List BuildStep) : Except LanguageError Automaton :=
  (Draft.run steps).finish

end TokenGraph
