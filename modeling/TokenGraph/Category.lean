import TokenGraph.Text.Basic
/-!
# Token categories

The ten kinds of token in their fixed order. The last one, `unknown`, is never tried: it names
text that no other category accepts.
-/
namespace TokenGraph

inductive Category where
  | comment
  | keyword
  | identifier
  | string
  | char
  | operator
  | floating
  | integer
  | space
  | unknown
  deriving DecidableEq

namespace Category

def all : List Category :=
  [comment, keyword, identifier, string, char, operator, floating, integer, space, unknown]

/-- Every category that a language may try, in order. -/
def tried : List Category := all.filter (· ≠ unknown)

def index : Category → Nat
  | comment => 0
  | keyword => 1
  | identifier => 2
  | string => 3
  | char => 4
  | operator => 5
  | floating => 6
  | integer => 7
  | space => 8
  | unknown => 9

def name : Category → String
  | comment => "comment"
  | keyword => "keyword"
  | identifier => "identifier"
  | string => "string"
  | char => "char"
  | operator => "operator"
  | floating => "floating"
  | integer => "integer"
  | space => "space"
  | unknown => "unknown"

def ofText? (s : Text) : Option Category :=
  all.find? fun c => text c.name = s

theorem ofText?_name (c : Category) : ofText? (text c.name) = some c := by
  cases c <;> rfl

theorem all_getElem?_index (c : Category) : all[c.index]? = some c := by
  cases c <;> rfl

end Category

end TokenGraph
