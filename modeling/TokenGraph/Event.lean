import TokenGraph.Category
/-!
# Events

What the library reports while it works, in order, beside its results.
-/
namespace TokenGraph

inductive Event where
  | accepted (category : Category) (consumed : Text)
  | unrecognized (language : Text) (offset : Nat) (consumed : Text)
  | registered (language : Text)
  | activated (language : Text)
  | compiled (language : Text)
  deriving DecidableEq

inductive EventLevel where
  | debug
  | trace

namespace Event

def level : Event → EventLevel
  | accepted .. => .trace
  | _ => .debug

def message : Event → String
  | accepted .. => "accepted"
  | unrecognized .. => "no automaton accepted; emitting unknown token"
  | registered _ => "registered language"
  | activated _ => "active language changed"
  | compiled _ => "compiled language definition"

end Event

/-- A result with the events on the way to it. -/
structure Logged (α : Type) where
  value : α
  events : List Event := []
  deriving DecidableEq

namespace Logged

def map {α β : Type} (f : α → β) (a : Logged α) : Logged β := ⟨f a.value, a.events⟩

/-- Goes on from a result, with its events first. -/
def andThen {α β : Type} (a : Logged α) (f : α → Logged β) : Logged β :=
  ⟨(f a.value).value, a.events ++ (f a.value).events⟩

end Logged

end TokenGraph
