import TokenGraph.Pattern.Engine
/-!
# Automata

A graph of labelled states. An edge fires on the characters of a class, on a boundary, or on
everything that no other edge of its state takes. States and edges are numbered as they come, and
each state lists the numbers of its edges in that order. State `0` is the start.

A list of a state is read edge by edge. An edge that is listed and not there ends the program, so
whatever reads such a list may fail.
-/
namespace TokenGraph

inductive Role where
  | start
  | intermediate
  | accepting
  | error
  deriving DecidableEq

structure State where
  label : Text
  role : Role
  outgoing : List Nat := []
  incoming : List Nat := []
  deriving DecidableEq

inductive EdgeKind where
  | charClass
  | acceptOnBoundary
  | fallbackConsume
  | fallbackNoConsume
  deriving DecidableEq

/-- The characters of an edge: a single one, or those that a pattern matches. -/
inductive CharClass where
  | only (c : Char)
  | pattern (r : CompiledPattern)

structure Edge where
  id : Nat
  src : Nat
  dst : Nat
  label : Text
  kind : EdgeKind
  chars : Option CharClass

structure Automaton where
  states : Array State
  edges : Array Edge

/-- An edge that is looked up and not there, beside the number of edges that are. -/
structure MissingEdge where
  edgeCount : Nat
  id : Nat
  deriving DecidableEq

/-- Edges that are looked up one after the other: those that are found, and the one that is missing
behind them if the list does not end there. -/
structure Lookup where
  found : List Edge
  missing : Option MissingEdge

namespace State

/-- A state without edges. -/
def fresh (label : Text) (role : Role) : State := { label, role }

/-- States are the same when label and role agree, whatever their edges. -/
def same (a b : State) : Bool := a.role = b.role && a.label = b.label

def isAccepting (s : State) : Bool := s.role = .accepting

def isError (s : State) : Bool := s.role = .error

end State

namespace EdgeKind

def isFallback : EdgeKind → Bool
  | fallbackConsume | fallbackNoConsume => true
  | charClass | acceptOnBoundary => false

end EdgeKind

namespace CharClass

/-- The class of a written pattern. The pattern is put between anchors as text, so that a
parenthesis in it can close the group around it. -/
def ofPattern? [PatternEngine] (written : Text) : Option CharClass :=
  (PatternEngine.compile? (text "^(?:" ++ written ++ text ")$")).map pattern

def contains : CharClass → Char → Bool
  | only d, c => d = c
  | pattern r, c => r.found [c]

end CharClass

namespace Edge

def same (a b : Edge) : Bool := a.id = b.id

/-- Whether the class of the edge holds the character; edges without a class hold none. -/
def takes (e : Edge) (c : Char) : Bool := e.chars.any (·.contains c)

def spells (e : Edge) (c : Char) : Bool := e.label = [c]

end Edge

namespace Lookup

/-- What a search through the edges finds. It fails if it comes to the one that is missing. -/
def search {α : Type} (l : Lookup) (find : List Edge → Option α) : Except MissingEdge (Option α) :=
  match find l.found, l.missing with
  | none, some edge => .error edge
  | result, _ => .ok result

/-- All the edges, of which none may be missing. -/
def all (l : Lookup) : Except MissingEdge (List Edge) :=
  match l.missing with
  | none => .ok l.found
  | some edge => .error edge

end Lookup

namespace Automaton

def start : Nat := 0

def startLabel : Text := text "START"

def initial : Automaton := ⟨#[.fresh startLabel .start], #[]⟩

def stateCount (m : Automaton) : Nat := m.states.size

def edgeCount (m : Automaton) : Nat := m.edges.size

def lookUp (m : Automaton) : List Nat → Lookup
  | [] => ⟨[], none⟩
  | id :: ids =>
    match m.edges[id]? with
    | some e =>
      let rest := m.lookUp ids
      ⟨e :: rest.found, rest.missing⟩
    | none => ⟨[], some ⟨m.edgeCount, id⟩⟩

/-- The edges that a state lists. -/
def listed (m : Automaton) (s : Nat) : Lookup :=
  m.lookUp ((m.states[s]?.map State.outgoing).getD [])

/-- The edges that leave a state in the order of its list, as far as they are there. -/
def outgoing (m : Automaton) (s : Nat) : List Edge := (m.listed s).found

def findState? (m : Automaton) (label : Text) (role : Role) : Option Nat :=
  m.states.findIdx? fun s => s.role = role && s.label = label

def findLabel? (m : Automaton) (label : Text) : Option Nat :=
  m.states.findIdx? fun s => s.label = label

def findEdge? (m : Automaton) (s : Nat) (label : Text) : Option Edge :=
  (m.outgoing s).find? fun e => e.label = label

def checkedFindEdge (m : Automaton) (s : Nat) (label : Text) : Except MissingEdge (Option Edge) :=
  (m.listed s).search fun edges => edges.find? fun e => e.label = label

def isAccepting (m : Automaton) (s : Nat) : Bool := m.states[s]?.any State.isAccepting

def isError (m : Automaton) (s : Nat) : Bool := m.states[s]?.any State.isError

end Automaton

end TokenGraph
