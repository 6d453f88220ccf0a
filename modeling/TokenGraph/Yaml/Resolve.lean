import TokenGraph.Decimal
import TokenGraph.Yaml.Node
/-!
# What scalars mean

A plain scalar without a tag may be null, a boolean, an integer or a floating number; anything else
is a string. Where a value of one kind is asked for, the text is read as that kind alone.
-/
namespace TokenGraph.Yaml

def isNull (s : Text) : Bool :=
  ["~", "null", "Null", "NULL"].any fun word => word.toList = s

def boolean? (s : Text) : Option Bool :=
  if ["true", "True", "TRUE"].any fun word => word.toList = s then some true
  else if ["false", "False", "FALSE"].any fun word => word.toList = s then some false
  else none

/-- A floating number: infinity, a NaN, or a decimal number in the range of double precision. -/
def floating? (s : Text) : Option Binary32 :=
  let unsigned := match s with
    | '+' :: rest => rest
    | _ => s
  if [".inf", ".Inf", ".INF"].any fun word => word.toList = unsigned then some .infinity
  else if ["-.inf", "-.Inf", "-.INF"].any fun word => word.toList = s then
    some Binary32.infinity.negated
  else if [".nan", ".NaN", ".NAN"].any fun word => word.toList = s then some .nan
  else (Decimal.ofText? s).bind (·.toBinary32?)

/-- Digits after a leading zero, which are a string and no number. -/
def isZeroPadded (s : Text) : Bool :=
  let digits := match s with
    | '+' :: rest | '-' :: rest => rest
    | _ => s
  match digits with
  | '0' :: d :: rest => (d :: rest).all Char.isDigit
  | _ => false

/-- The number that digits spell in a base of at most sixteen. -/
def numberIn? (base : Nat) : Text → Option Nat
  | [] => none
  | digits => digits.foldlM (fun n c => do
      let d ← hexDigit? c
      if d < base then some (base * n + d) else none) 0

/-- The size of an integer without its sign: decimal, or in another base after a zero and a letter. -/
def integerSize? : Text → Option Nat
  | '0' :: 'x' :: digits => numberIn? 16 digits
  | '0' :: 'o' :: digits => numberIn? 8 digits
  | '0' :: 'b' :: digits => numberIn? 2 digits
  | digits => numberIn? 10 digits

def isInteger (s : Text) : Bool :=
  if isZeroPadded s then false
  else
    match s with
    | '-' :: digits => (integerSize? digits).any (· ≤ Nat.pow 2 127)
    | '+' :: digits => (integerSize? digits).any (· < Nat.pow 2 128)
    | digits => (integerSize? digits).any (· < Nat.pow 2 128)

def isPlainString (s : Text) : Bool :=
  !(s.isEmpty || isNull s || (boolean? s).isSome || isInteger s ||
    (!isZeroPadded s && (floating? s).isSome))

def coreTag (name : String) : Text := "tag:yaml.org,2002:".toList ++ name.toList

def localTag? : Option Text → Option Text
  | some ['!'] => some ['!']
  | some ('!' :: name) => some name
  | _ => none

namespace Node

/-- Whether a value of this core type may be read from a scalar: it is plain, or a literal block with
the tag of the type. -/
def readsAs (type : String) (tag : Option Text) (style : ScalarStyle) : Bool :=
  style = .plain || (style = .literal && tag = some (coreTag type))

def boolean? : Node → Option Bool
  | scalar tag style value => if readsAs "bool" tag style then Yaml.boolean? value else none
  | _ => none

def floating? : Node → Option Binary32
  | scalar tag style value => if readsAs "float" tag style then Yaml.floating? value else none
  | _ => none

def string? : Node → Option Text
  | scalar _ _ value => some value
  | _ => none

/-- An empty plain scalar, which stands for an empty collection. -/
def isBlank : Node → Bool
  | scalar _ .plain [] => true
  | _ => false

def items? : Node → Option (List Node)
  | sequence _ items => some items
  | node => if node.isBlank then some [] else none

def entries? : Node → Option (List (Node × Node))
  | mapping _ entries => some entries
  | node => if node.isBlank then some [] else none

/-- Whether an optional value is absent; none when it is neither absent nor present. A tag makes even
an empty scalar a value, and the tag of null admits nothing but null. -/
def isAbsent? : Node → Option Bool
  | scalar (some tag) .plain value =>
    if tag = coreTag "null" then if isNull value then some true else none else some false
  | scalar none .plain value => some (value.isEmpty || isNull value)
  | _ => some false

/-- The string that an untyped scalar resolves to, if it is one. -/
def untypedString? : Node → Option Text
  | scalar none .plain value => if isPlainString value then some value else none
  | scalar none _ value => some value
  | scalar (some tag) _ value =>
    if (localTag? (some tag)).isSome || ["bool", "int", "float", "null"].any fun type => coreTag type = tag
    then none else some value
  | _ => none

/-- The name of a choice: the text of a scalar, or its local tag if the rest of it is null. -/
def choice? : Node → Option Text
  | scalar tag style value =>
    match localTag? tag with
    | some name => if style = .plain && (value.isEmpty || isNull value) then some name else none
    | none => some value
  | _ => none

end Node

end TokenGraph.Yaml
