import TokenGraph.Automaton.Scan
import TokenGraph.Error
import TokenGraph.FontStyle
/-!
# Languages

A language binds categories to automata and styles, and says in which order they are tried. Blanks
and its one-character operators are the boundaries at which open-ended tokens stop.
-/
namespace TokenGraph

structure Prototype where
  category : Category
  machine : Automaton
  style : FontStyle

structure Language where
  name : Text
  prototype? : Category → Option Prototype
  keywords : List Text
  operators : List Text
  priority : List Category
  keywordsFromIdentifiers : Bool

/-- A character before which a token may end. -/
def isBoundary (operators : List Text) (c : Char) : Bool :=
  isBlank c || operators.any fun symbol => symbol = [c]

namespace Prototype

/-- Automata of operators compare characters with the labels of their edges. -/
def scanner (p : Prototype) (operators : List Text) : Scanner :=
  ⟨p.machine, p.category = .operator, isBoundary operators⟩

def scan (p : Prototype) (operators : List Text) (s : Text) : Outcome :=
  (p.scanner operators).run s

def checkedScan (p : Prototype) (operators : List Text) (s : Text) : Except MissingEdge Outcome :=
  (p.scanner operators).checkedRun s

end Prototype

namespace Language

def require (l : Language) (c : Category) : Except LanguageError Prototype :=
  match l.prototype? c with
  | some p => .ok p
  | none => .error (.noPrototype c)

def isKeyword (l : Language) (word : Text) : Bool := l.keywords.contains word

/-- The categories that are tried, in order. Keywords are not when identifiers yield them. -/
def trialOrder (l : Language) : List Category :=
  l.priority.filter fun c => c ≠ .unknown && !(l.keywordsFromIdentifiers && c = .keyword)

def unknownStyle (l : Language) : FontStyle :=
  match l.prototype? .unknown with
  | some p => p.style
  | none => .unknownDefault

end Language

end TokenGraph
