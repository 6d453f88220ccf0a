import TokenGraph.Automaton.Build
import TokenGraph.Language.Basic
/-!
# Setting up languages

A language is set up step by step. Literal prototypes stand for whole tables, so their automata are
made only when all steps are known. The priority list is checked first, then the prototypes.
-/
namespace TokenGraph

inductive LiteralTable where
  | keywords
  | operators
  deriving DecidableEq

/-- Where the automaton of a prototype comes from. -/
inductive Recognizer where
  | machine (machine : Automaton)
  | literals (table : LiteralTable)

structure Registration where
  category : Category
  recognizer : Recognizer
  style : FontStyle

inductive SetupStep where
  | prototype (registration : Registration)
  | keywords (words : List Text)
  | operators (symbols : List Text)
  | priority (order : List Category)
  | keywordsFromIdentifiers (enabled : Bool)

structure Setup where
  name : Text
  registrations : List Registration := []
  keywords : List Text := []
  operators : List Text := []
  priority : Option (List Category) := none
  keywordsFromIdentifiers : Bool := false

/-- The first entry that a priority list may not hold, after the entries in `seen`. -/
def priorityFault? (seen : List Category) : List Category → Option PriorityFault
  | [] => none
  | c :: rest =>
    if c = .unknown then some .unknownListed
    else if seen.contains c then some (.repeated c)
    else priorityFault? (c :: seen) rest

namespace Setup

def apply (s : Setup) : SetupStep → Setup
  | .prototype registration => { s with registrations := s.registrations ++ [registration] }
  | .keywords words => { s with keywords := s.keywords ++ words }
  | .operators symbols => { s with operators := s.operators ++ symbols }
  | .priority order => { s with priority := some order }
  | .keywordsFromIdentifiers enabled => { s with keywordsFromIdentifiers := enabled }

def run (name : Text) (steps : List SetupStep) : Setup := steps.foldl apply { name }

/-- The words of a table as they are when the language is finished. -/
def table (s : Setup) : LiteralTable → List Text
  | .keywords => s.keywords
  | .operators => s.operators

/-- The prototype of a registration once the tables are known. -/
def prototype (s : Setup) (r : Registration) : Prototype where
  category := r.category
  machine := match r.recognizer with
    | .machine machine => machine
    | .literals table => .ofLiterals (s.table table)
  style := r.style

/-- The explicit priority list if it is sound, and every tried category where there is none. -/
def order (s : Setup) : Except LanguageError (List Category) :=
  match s.priority with
  | none => .ok Category.tried
  | some order =>
    match priorityFault? [] order with
    | some fault => .error (.invalidPriority fault)
    | none => .ok order

/-- Fills the slots of the categories; none may be filled twice. -/
def fill (s : Setup) (slots : Category → Option Prototype) :
    List Registration → Except LanguageError (Category → Option Prototype)
  | [] => .ok slots
  | r :: rest =>
    if (slots r.category).isSome then .error (.duplicatePrototype r.category)
    else s.fill (fun c => if c = r.category then some (s.prototype r) else slots c) rest

def finish (s : Setup) : Except LanguageError Language := do
  let priority ← s.order
  let slots ← s.fill (fun _ => none) s.registrations
  return {
    name := s.name
    prototype? := slots
    keywords := s.keywords
    operators := s.operators
    priority
    keywordsFromIdentifiers := s.keywordsFromIdentifiers }

end Setup

def Language.build (name : Text) (steps : List SetupStep) : Except LanguageError Language :=
  (Setup.run name steps).finish

end TokenGraph
