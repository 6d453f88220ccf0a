import TokenGraph.Pattern.CharSet
import TokenGraph.Text.Basic
/-!
# Regular expressions

A regular expression is matched against a text by the positions that it can reach: started at
one position, it ends at some list of later positions. `found` asks for a match anywhere.
-/
namespace TokenGraph

/-- A side of a word: where word characters begin or end. -/
inductive WordEdge where
  | either
  | neither
  | start
  | stop
  | startHalf
  | stopHalf
  deriving DecidableEq

inductive Anchor where
  | textStart
  | textEnd
  | lineStart
  | lineEnd
  | lineStartCrlf
  | lineEndCrlf
  | word (edge : WordEdge) (set : CharSet)
  deriving DecidableEq

inductive Regex where
  | empty
  | one (set : CharSet)
  | anchor (place : Anchor)
  | seq (r s : Regex)
  | alt (r s : Regex)
  | repeated (r : Regex) (least : Nat) (most : Option Nat)
  deriving DecidableEq

namespace WordEdge

/-- Whether the edge lies between two sides, each being a word character or not. -/
def holds : WordEdge → Bool → Bool → Bool
  | either, b, a => b != a
  | neither, b, a => b == a
  | start, b, a => !b && a
  | stop, b, a => b && !a
  | startHalf, b, _ => !b
  | stopHalf, _, a => !a

end WordEdge

namespace Anchor

/-- Whether the condition holds between the character before and the character after. -/
def holds (before after : Option Char) : Anchor → Bool
  | textStart => before = none
  | textEnd => after = none
  | lineStart => before = none || before = some '\n'
  | lineEnd => after = none || after = some '\n'
  | lineStartCrlf =>
    before = none || before = some '\n' || (before = some '\r' && after ≠ some '\n')
  | lineEndCrlf =>
    after = none || after = some '\r' || (after = some '\n' && before ≠ some '\r')
  | word edge set => edge.holds (before.any set.contains) (after.any set.contains)

end Anchor

namespace Regex

def rounds (step : Nat → List Nat) : Nat → List Nat → List Nat
  | 0, places => places
  | n + 1, places => rounds step n (places.flatMap step).eraseDups

def roundsUpTo (step : Nat → List Nat) : Nat → List Nat → List Nat
  | 0, places => places
  | n + 1, places => (places ++ roundsUpTo step n (places.flatMap step).eraseDups).eraseDups

/-- The positions of `w` at which a match that starts at `i` can end. More rounds of a repetition
than the text has characters, and one, reach no further position. -/
def ends (w : Text) : Regex → Nat → List Nat
  | empty, i => [i]
  | one set, i => if w[i]?.any set.contains then [i + 1] else []
  | anchor place, i =>
    if place.holds (if i = 0 then none else w[i - 1]?) w[i]? then [i] else []
  | seq r s, i => ((r.ends w i).flatMap fun j => s.ends w j).eraseDups
  | alt r s, i => (r.ends w i ++ s.ends w i).eraseDups
  | repeated r least most, i =>
    let enough := w.length + 1
    let more := match most with
      | none => enough
      | some m => min (m - least) enough
    roundsUpTo (fun j => r.ends w j) more (rounds (fun j => r.ends w j) (min least enough) [i])

/-- Whether the expression matches somewhere in the text. -/
def found (r : Regex) (w : Text) : Bool :=
  (List.range (w.length + 1)).any fun i => !(r.ends w i).isEmpty

/-- Whether the expression matches the text from its start to its end. -/
def spans (r : Regex) (w : Text) : Bool := (r.ends w 0).contains w.length

end Regex

end TokenGraph
