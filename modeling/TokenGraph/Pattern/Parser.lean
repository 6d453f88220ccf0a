import TokenGraph.Pattern.Engine
import TokenGraph.Pattern.Regex
/-!
# The written form of regular expressions

Reads the usual notation: alternatives, groups with flags, repetitions, anchors, escapes and
bracketed classes with set operations. A text that is no expression has no reading. Each round of
a reader takes at least one character, so the length of the text bounds the number of rounds.
-/
namespace TokenGraph

structure PatternFlags where
  ignoreCase : Bool := false
  multiLine : Bool := false
  dotAll : Bool := false
  crlf : Bool := false
  swapGreed : Bool := false
  unicode : Bool := true
  verbose : Bool := false

namespace PatternFlags

def set? (flags : PatternFlags) (on : Bool) : Char → Option PatternFlags
  | 'i' => some { flags with ignoreCase := on }
  | 'm' => some { flags with multiLine := on }
  | 's' => some { flags with dotAll := on }
  | 'R' => some { flags with crlf := on }
  | 'U' => some { flags with swapGreed := on }
  | 'u' => some { flags with unicode := on }
  | 'x' => some { flags with verbose := on }
  | _ => none

/-- The set in either case, where case is ignored; without Unicode only ASCII letters have one. -/
def fold (flags : PatternFlags) (set : CharSet) : CharSet :=
  if !flags.ignoreCase then set
  else if flags.unicode then .anyCase set
  else .inter (.anyCase set) (.range '\x00' '\x7F')

/-- A set or its complement; without Unicode a complement would hold single bytes. -/
def negate? (flags : PatternFlags) (negated : Bool) (set : CharSet) : Option CharSet :=
  if !negated then some set else if flags.unicode then some (.compl set) else none

def digits (flags : PatternFlags) : CharSet := if flags.unicode then .digits else .asciiDigits
def blanks (flags : PatternFlags) : CharSet := if flags.unicode then .blanks else .asciiBlanks
def wordChars (flags : PatternFlags) : CharSet :=
  if flags.unicode then .wordChars else .asciiWordChars

def lineStart (flags : PatternFlags) : Anchor :=
  if !flags.multiLine then .textStart else if flags.crlf then .lineStartCrlf else .lineStart

def lineEnd (flags : PatternFlags) : Anchor :=
  if !flags.multiLine then .textEnd else if flags.crlf then .lineEndCrlf else .lineEnd

def dot? (flags : PatternFlags) : Option CharSet :=
  if !flags.unicode then none
  else if flags.dotAll then some (.compl .none)
  else if flags.crlf then some (.compl (.union (.single '\n') (.single '\r')))
  else some .notLineFeed

end PatternFlags

/-- Drops blanks and comments, which a verbose pattern may hold anywhere. -/
def dropRemarks (inComment : Bool) : Text → Text
  | [] => []
  | c :: rest =>
    if inComment then dropRemarks (c ≠ '\n') rest
    else if isBlank c then dropRemarks false rest
    else if c = '#' then dropRemarks true rest
    else c :: rest

def PatternFlags.skip (flags : PatternFlags) (s : Text) : Text :=
  if flags.verbose then dropRemarks false s else s

/-- A character of a pattern, or what its escape stands for. -/
inductive Primitive where
  | literal (c : Char)
  | set (set : CharSet)
  | anchor (place : Anchor)

def scalar? (n : Nat) : Option Char :=
  if n < 0xD800 ∨ (0xDFFF < n ∧ n < 0x110000) then some (Char.ofNat n) else none

def hexDigits? (skip : Text → Text) : (count : Nat) → (value : Nat) → Text → Option (Nat × Text)
  | 0, value, rest => some (value, rest)
  | _ + 1, _, [] => none
  | count + 1, value, c :: rest => do
    hexDigits? skip count (16 * value + (← hexDigit? c)) (skip rest)

/-- Reads everything up to a character, and that character. -/
def upTo? (c : Char) : Text → Option (Text × Text)
  | [] => none
  | d :: rest =>
    if d = c then some ([], rest) else (upTo? c rest).map fun (read, rest) => (d :: read, rest)

/-- Without Unicode two digits stand for a byte, and only an ASCII byte is a character. -/
def PatternFlags.byte? (flags : PatternFlags) (n : Nat) : Option Char :=
  if flags.unicode || n < 128 then scalar? n else none

/-- Reads a number in braces, or so many digits, and the character that it stands for. -/
def hexEscape? (skip : Text → Text) (plain? : Nat → Option Char) (count : Nat) (s : Text) :
    Option (Char × Text) :=
  match skip s with
  | '\x7B' :: rest => do
    let (digits, rest) ← upTo? '\x7D' rest
    let n ← hexNumber? (digits.filter fun c => (skip [c]).length = 1)
    return (← scalar? n, skip rest)
  | rest => do
    let (n, rest) ← hexDigits? skip count 0 rest
    return (← plain? n, rest)

def WordEdge.named? (name : Text) : Option WordEdge :=
  match String.ofList name with
  | "start" => some .start
  | "end" => some .stop
  | "start-half" => some .startHalf
  | "end-half" => some .stopHalf
  | _ => none

/-- The name of a word edge in braces; other braces are left for a repetition. -/
def wordEdge? (rest : Text) : Option (WordEdge × Text) :=
  match rest with
  | '\x7B' :: c :: inner =>
    if c.isAlpha || c = '-' then do
      let (name, rest) ← upTo? '\x7D' (c :: inner)
      return (← WordEdge.named? name, rest)
    else some (.either, rest)
  | _ => some (.either, rest)

/-- Reads an escape after its backslash. Letters and digits without a meaning are refused. -/
def escape? (flags : PatternFlags) : Text → Option (Primitive × Text)
  | [] => none
  | c :: rest =>
    match c with
    | 'x' => (hexEscape? flags.skip flags.byte? 2 rest).map fun (d, rest) => (.literal d, rest)
    | 'u' => (hexEscape? flags.skip scalar? 4 rest).map fun (d, rest) => (.literal d, rest)
    | 'U' => (hexEscape? flags.skip scalar? 8 rest).map fun (d, rest) => (.literal d, rest)
    | 'd' => some (.set flags.digits, rest)
    | 's' => some (.set flags.blanks, rest)
    | 'w' => some (.set flags.wordChars, rest)
    | 'D' => (flags.negate? true flags.digits).map fun set => (.set set, rest)
    | 'S' => (flags.negate? true flags.blanks).map fun set => (.set set, rest)
    | 'W' => (flags.negate? true flags.wordChars).map fun set => (.set set, rest)
    | 'a' => some (.literal '\x07', rest)
    | 'f' => some (.literal '\x0C', rest)
    | 't' => some (.literal '\t', rest)
    | 'n' => some (.literal '\n', rest)
    | 'r' => some (.literal '\r', rest)
    | 'v' => some (.literal '\x0B', rest)
    | 'A' => some (.anchor .textStart, rest)
    | 'z' => some (.anchor .textEnd, rest)
    | 'b' => (wordEdge? rest).map fun (edge, rest) => (.anchor (.word edge flags.wordChars), rest)
    | 'B' => some (.anchor (.word .neither flags.wordChars), rest)
    | '<' => some (.anchor (.word .start flags.wordChars), rest)
    | '>' => some (.anchor (.word .stop flags.wordChars), rest)
    | c => if c.isAlphanum || 127 < c.toNat then none else some (.literal c, rest)

inductive SetOp where
  | inter
  | diff
  | symmDiff

def SetOp.apply : SetOp → CharSet → CharSet → CharSet
  | .inter, a, b => .inter a b
  | .diff, a, b => .diff a b
  | .symmDiff, a, b => .symmDiff a b

/-- Joins the part of a class just read to the operation that waits for it. -/
def joinClass (flags : PatternFlags) (waiting : Option (SetOp × CharSet)) (part : CharSet) : CharSet :=
  match waiting with
  | none => part
  | some (op, left) => op.apply (flags.fold left) (flags.fold part)

/-- Reads the name of a class and its closing colon and bracket. -/
def className? (flags : PatternFlags) (negated : Bool) (s : Text) : Option (CharSet × Text) := do
  match ← upTo? ':' s with
  | (name, ']' :: rest) =>
    let set ← CharSet.named? (String.ofList name)
    return (← flags.negate? negated (flags.fold set), rest)
  | _ => none

def namedClass? (flags : PatternFlags) : Text → Option (CharSet × Text)
  | ':' :: '^' :: rest => className? flags true rest
  | ':' :: rest => className? flags false rest
  | _ => none

/-- Reads the hyphens that open a class as themselves. -/
def openingHyphens (skip : Text → Text) : (rounds : Nat) → Option CharSet → Text → Option CharSet × Text
  | rounds + 1, _, '-' :: rest => openingHyphens skip rounds (some (.single '-')) (skip rest)
  | _, set, rest => (set, rest)

def classNegation (flags : PatternFlags) (s : Text) : Bool × Text :=
  match flags.skip s with
  | '^' :: rest => (true, flags.skip rest)
  | rest => (false, rest)

/-- Reads what opens a class as itself: hyphens, or a closing bracket. -/
def openingSet (flags : PatternFlags) (s : Text) : CharSet × Text :=
  match openingHyphens flags.skip s.length none s with
  | (some set, rest) => (set, rest)
  | (none, ']' :: rest) => (.single ']', rest)
  | (none, rest) => (.none, rest)

/-- Reads what opens a class after its bracket. -/
def openClass (flags : PatternFlags) (s : Text) : Bool × CharSet × Text :=
  let (negated, rest) := classNegation flags s
  let (set, rest) := openingSet flags rest
  (negated, set, rest)

def classPrimitive? (flags : PatternFlags) : Text → Option (Primitive × Text)
  | [] => none
  | '\\' :: rest => escape? flags rest
  | c :: rest => some (.literal c, rest)

/-- A character may be in a class by itself unless the class is one of bytes. -/
def PatternFlags.classRange? (flags : PatternFlags) (first last : Char) : Option CharSet :=
  if flags.unicode || last.toNat < 128 then some (.range first last) else none

/-- The set of a part of a class that is not a range. An anchor is none. -/
def Primitive.alone? (flags : PatternFlags) : Primitive → Option CharSet
  | .literal c => flags.classRange? c c
  | .set chosen => some chosen
  | .anchor _ => none

/-- The range between two characters in their order. -/
def Primitive.range? (flags : PatternFlags) : Primitive → Primitive → Option CharSet
  | .literal a, .literal b => if a ≤ b then flags.classRange? a b else none
  | _, _ => none

/-- Reads one character, range or escaped class inside a bracketed class. A hyphen in front of a
bracket or another hyphen makes no range. -/
def classItem? (flags : PatternFlags) (s : Text) : Option (CharSet × Text) := do
  let (first, rest) ← classPrimitive? flags s
  match flags.skip rest with
  | '-' :: after =>
    match flags.skip after with
    | ']' :: _ => return (← first.alone? flags, '-' :: after)
    | '-' :: _ => return (← first.alone? flags, '-' :: after)
    | after =>
      let (last, rest) ← classPrimitive? flags after
      return (← first.range? flags last, rest)
  | rest => return (← first.alone? flags, rest)

/-- Reads what stands next in a bracketed class, given the parts read so far, and goes on with
`more`. -/
def classPart? (more : Option (SetOp × CharSet) → CharSet → Text → Option (CharSet × Text))
    (flags : PatternFlags) (waiting : Option (SetOp × CharSet)) (set : CharSet) :
    Text → Option (CharSet × Text)
  | [] => none
  | '[' :: rest =>
    match namedClass? flags rest with
    | some (named, rest) => more waiting (.union set named) rest
    | none => do
      let (negated, inner, rest) := openClass flags rest
      let (inner, rest) ← more none inner rest
      let inner ← flags.negate? negated (flags.fold inner)
      more waiting (.union set inner) rest
  | ']' :: rest => some (joinClass flags waiting set, rest)
  | '&' :: '&' :: rest => more (some (.inter, joinClass flags waiting set)) .none rest
  | '-' :: '-' :: rest => more (some (.diff, joinClass flags waiting set)) .none rest
  | '~' :: '~' :: rest => more (some (.symmDiff, joinClass flags waiting set)) .none rest
  | rest => do
    let (item, rest) ← classItem? flags rest
    more waiting (.union set item) rest

/-- Reads a bracketed class up to its closing bracket. -/
def classBody? (flags : PatternFlags) :
    (rounds : Nat) → Option (SetOp × CharSet) → CharSet → Text → Option (CharSet × Text)
  | 0, _, _, _ => none
  | rounds + 1, waiting, set, s =>
    classPart? (classBody? flags rounds) flags waiting set (flags.skip s)

def bracketClass? (flags : PatternFlags) (s : Text) : Option (CharSet × Text) := do
  let (negated, set, rest) := openClass flags s
  let (set, rest) ← classBody? flags (s.length + 1) none set rest
  return (← flags.negate? negated (flags.fold set), rest)

/-- Reads the flags of a group up to the colon or parenthesis that ends them, which is kept. No
flag may come twice, and a minus sign must come before some flag. -/
def groupFlags? (seen : List Char) (negated dangling : Bool) (flags : PatternFlags) :
    Text → Option (PatternFlags × Text)
  | [] => none
  | c :: rest =>
    if c = ':' ∨ c = ')' then if dangling then none else some (flags, c :: rest)
    else if seen.contains c then none
    else if c = '-' then groupFlags? (c :: seen) true true flags rest
    else do groupFlags? (c :: seen) negated false (← flags.set? (!negated) c) rest

inductive GroupHead where
  | group (flags : PatternFlags) (name : Option Text)
  | directive (flags : PatternFlags)

def isNameChar (first : Bool) (c : Char) : Bool :=
  let letter := if c.toNat < 128 then c.isAlpha else isWordChar c
  c = '_' || letter || (!first && (c = '.' || c = '[' || c = ']' || isDecimalDigit c))

def isGroupName : Text → Bool
  | [] => false
  | c :: more => isNameChar true c && more.all (isNameChar false)

def namedHead? (flags : PatternFlags) (s : Text) : Option (GroupHead × Text) := do
  let (name, rest) ← upTo? '>' s
  if isGroupName name then some (.group flags (some name), rest) else none

def flagsHead? (flags : PatternFlags) (s : Text) : Option (GroupHead × Text) := do
  let (set, rest) ← groupFlags? [] false false flags s
  match rest with
  | ':' :: after => some (.group set none, after)
  | ')' :: after => if s.length = rest.length then none else some (.directive set, after)
  | _ => none

/-- Reads what follows the question mark of a group. The marks of look-around are neither flags nor
begin a name, so that it is refused. -/
def groupMark? (flags : PatternFlags) : Text → Option (GroupHead × Text)
  | 'P' :: '<' :: rest => namedHead? flags rest
  | '<' :: rest => namedHead? flags rest
  | rest => flagsHead? flags rest

/-- Reads what follows an opening parenthesis. -/
def groupHead? (flags : PatternFlags) (s : Text) : Option (GroupHead × Text) :=
  match flags.skip s with
  | '?' :: rest => groupMark? flags rest
  | rest => some (.group flags none, rest)

def repeatCount? (flags : PatternFlags) (s : Text) : Option (Nat × Text) := do
  let s := s.dropWhile isBlank
  let n ← decimalNumber? (s.takeWhile Char.isDigit)
  if n < Nat.pow 2 32 then some (n, flags.skip ((s.dropWhile Char.isDigit).dropWhile isBlank))
  else none

/-- Reads what follows the comma of a repetition that comes at least so often. -/
def repeatLimit? (flags : PatternFlags) (least : Nat) (s : Text) : Option (Option Nat × Text) :=
  match flags.skip s with
  | '\x7D' :: rest => some (none, rest)
  | rest => do
    match ← repeatCount? flags rest with
    | (most, '\x7D' :: rest) => if least ≤ most then some (some most, rest) else none
    | _ => none

def repeatCounts? (flags : PatternFlags) (s : Text) : Option ((Nat × Option Nat) × Text) := do
  match ← repeatCount? flags (flags.skip s) with
  | (least, '\x7D' :: rest) => some ((least, some least), rest)
  | (least, ',' :: rest) =>
    let (most, rest) ← repeatLimit? flags least rest
    return ((least, most), rest)
  | _ => none

/-- Drops the mark of a lazy repetition: which match is preferred does not matter here. -/
def dropLazy : Text → Text
  | '?' :: rest => rest
  | rest => rest

/-- The pieces of one alternative, the last first; a flag directive is a piece without content. -/
abbrev PatternPieces := List (Option Regex)

def PatternPieces.join (pieces : PatternPieces) : Regex :=
  pieces.foldl (fun after piece =>
    match piece, after with
    | none, r => r
    | some r, .empty => r
    | some r, s => .seq r s) .empty

/-- What is known at one place of a pattern: the flags in force there, the group names given so far,
the alternatives before this one and the pieces of this one. -/
structure PatternReading where
  flags : PatternFlags := {}
  names : List Text := []
  before : Option Regex := none
  pieces : PatternPieces := []

namespace PatternReading

/-- The expression of the alternatives that end here. -/
def joined (reading : PatternReading) : Regex :=
  match reading.before with
  | none => reading.pieces.join
  | some r => .alt r reading.pieces.join

def add (reading : PatternReading) (r : Regex) : PatternReading :=
  { reading with pieces := some r :: reading.pieces }

/-- Repeats the last piece, which has to be something that can be repeated. -/
def repeat? (reading : PatternReading) (least : Nat) (most : Option Nat) : Option PatternReading :=
  match reading.pieces with
  | some r :: pieces => some { reading with pieces := some (.repeated r least most) :: pieces }
  | _ => none

end PatternReading

/-- The expression of a single character. Without Unicode the case of others than ASCII characters
cannot be ignored. -/
def PatternFlags.literal? (flags : PatternFlags) (c : Char) : Option Regex :=
  if flags.ignoreCase && !flags.unicode && 127 < c.toNat then none
  else some (.one (flags.fold (.single c)))

def Primitive.regex? (flags : PatternFlags) : Primitive → Option Regex
  | .literal c => flags.literal? c
  | .set chosen => some (.one chosen)
  | .anchor place => some (.anchor place)

/-- Reads what stands next in an alternative and goes on with `more`. A closing parenthesis is kept;
the flags that a group sets end with it, its names do not. -/
def nextPiece? (more : PatternReading → Text → Option ((Regex × List Text) × Text))
    (reading : PatternReading) : Text → Option ((Regex × List Text) × Text)
  | [] => some ((reading.joined, reading.names), [])
  | ')' :: rest => some ((reading.joined, reading.names), ')' :: rest)
  | '|' :: rest => more { reading with before := some reading.joined, pieces := [] } rest
  | '(' :: rest => do
    match ← groupHead? reading.flags rest with
    | (.directive set, rest) =>
      more { reading with flags := set, pieces := none :: reading.pieces } rest
    | (.group inner name, rest) =>
      if name.any reading.names.contains then none
      else
        match ← more { flags := inner, names := name.toList ++ reading.names } rest with
        | ((group, names), ')' :: rest) => more { reading.add group with names } rest
        | _ => none
  | '[' :: rest => do
    let (set, rest) ← bracketClass? reading.flags rest
    more (reading.add (.one set)) rest
  | '?' :: rest => do more (← reading.repeat? 0 (some 1)) (dropLazy rest)
  | '*' :: rest => do more (← reading.repeat? 0 none) (dropLazy rest)
  | '+' :: rest => do more (← reading.repeat? 1 none) (dropLazy rest)
  | '\x7B' :: rest => do
    let ((least, most), rest) ← repeatCounts? reading.flags rest
    more (← reading.repeat? least most) (dropLazy (reading.flags.skip rest))
  | '\\' :: rest => do
    let (primitive, rest) ← escape? reading.flags rest
    more (reading.add (← primitive.regex? reading.flags)) rest
  | '.' :: rest => do more (reading.add (.one (← reading.flags.dot?))) rest
  | '^' :: rest => more (reading.add (.anchor reading.flags.lineStart)) rest
  | '$' :: rest => more (reading.add (.anchor reading.flags.lineEnd)) rest
  | c :: rest => do more (reading.add (← reading.flags.literal? c)) rest

/-- Reads alternatives up to a closing parenthesis, which is kept, or the end. -/
def alternatives? : (rounds : Nat) → PatternReading → Text → Option ((Regex × List Text) × Text)
  | 0, _, _ => none
  | rounds + 1, reading, s => nextPiece? (alternatives? rounds) reading (reading.flags.skip s)

/-- The part of a text that reads as a pattern, and what stands behind it: nothing, or a closing
parenthesis that nothing has opened. -/
def Regex.readFront? (s : Text) : Option (Regex × Text) :=
  (alternatives? (s.length + 1) {} s).map fun ((r, _), rest) => (r, rest)

def Regex.parse? (s : Text) : Option Regex :=
  match Regex.readFront? s with
  | some (r, []) => some r
  | _ => none

/-- The engine that reads the notation above. It knows no classes of Unicode properties, and sets no
limits to the size and the depth of a pattern. -/
instance Regex.engine : PatternEngine where
  compile? s := (Regex.parse? s).map fun r => ⟨r.found⟩

end TokenGraph
