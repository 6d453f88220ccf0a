import TokenGraph.Yaml.Scalar
/-!
# YAML tokens

A text is first cut into tokens. Indentation shows as tokens of its own that open and close block
collections. Where a simple key may begin, a slot is kept among the tokens; it is filled once a
colon shows that there was a key.
-/
namespace TokenGraph.Yaml

inductive Token where
  | version (major minor : Nat)
  | tagHandle (handle lead : Text)
  | documentStart
  | documentEnd
  | blockSequenceStart
  | blockMappingStart
  | blockEnd
  | flowSequenceStart
  | flowSequenceEnd
  | flowMappingStart
  | flowMappingEnd
  | blockEntry
  | flowEntry
  | key
  | value
  | alias (name : Text)
  | anchor (name : Text)
  | tag (handle rest : Text)
  | scalar (style : ScalarStyle) (value : Text)

/-- A place where a simple key may have begun, with the slot kept for it. In a block mapping a key
that begins at the indentation has to turn out to be one. -/
structure KeyStart where
  slot : Nat
  required : Bool
  index : Nat
  line : Nat
  column : Nat

/-- The tokens of a text up to a place. The head of `keys` belongs to the innermost flow collection. -/
structure Lexing where
  cursor : Cursor
  slots : Array (List Token) := #[]
  keyAllowed : Bool := true
  keys : List (Option KeyStart) := [none]
  indent : Int := -1
  indents : List Int := []

namespace Lexing

def inFlow (l : Lexing) : Bool := 1 < l.keys.length

def column (l : Lexing) : Int := Int.ofNat l.cursor.column

def emit (l : Lexing) (t : Token) : Lexing := { l with slots := l.slots.push [t] }

def emitMark (l : Lexing) (t : Token) (length : Nat) : Lexing :=
  { l.emit t with cursor := l.cursor.advance length }

/-- Opens a block collection if the column is deeper than the indentation. -/
def open? (l : Lexing) (column : Int) : Option Lexing :=
  if !l.inFlow && l.indent < column then
    some { l with indent := column, indents := l.indent :: l.indents }
  else none

/-- Closes the block collections that are deeper than a column. -/
def closeTo (column : Int) (slots : Array (List Token)) (indent : Int) :
    List Int → Array (List Token) × Int × List Int
  | [] => (slots, indent, [])
  | outer :: rest =>
    if column < indent then closeTo column (slots.push [.blockEnd]) outer rest
    else (slots, indent, outer :: rest)

def closeBlocks (l : Lexing) (column : Int) : Lexing :=
  if l.inFlow then l
  else
    let (slots, indent, indents) := closeTo column l.slots l.indent l.indents
    { l with slots, indent, indents }

def dropKey? (l : Lexing) : Option Lexing :=
  match l.keys with
  | some key :: outer => if key.required then none else some { l with keys := none :: outer }
  | _ => some l

def startKey? (l : Lexing) : Option Lexing :=
  if !l.keyAllowed then some l
  else do
    let l ← l.dropKey?
    let key : KeyStart := {
      slot := l.slots.size
      required := !l.inFlow && l.indent = l.column
      index := l.cursor.index
      line := l.cursor.line
      column := l.cursor.column }
    return { l with slots := l.slots.push [], keys := some key :: l.keys.tail }

def dropStale? (l : Lexing) : Option Lexing := do
  let keys ← l.keys.mapM fun key? =>
    match key? with
    | none => some none
    | some key =>
      if key.line < l.cursor.line || key.index + 1024 < l.cursor.index then
        if key.required then none else some none
      else some (some key)
  return { l with keys }

/-- Skips blanks, comments and breaks before a token. A tab is no blank where a key may begin in a
block. -/
def skipBlanks : (rounds : Nat) → Lexing → Lexing
  | 0, l => l
  | rounds + 1, l =>
    let c := if l.cursor.index = 0 && l.cursor.rest.head? = some '\uFEFF' then l.cursor.advance 1
      else l.cursor
    let c := c.skip fun d => d = ' ' || (d = '\t' && (l.inFlow || !l.keyAllowed))
    let c := if c.rest.head? = some '#' then c.skip fun _ => true else c
    match c.lineBreak? with
    | some (_, c) =>
      skipBlanks rounds { l with cursor := c, keyAllowed := l.keyAllowed || !l.inFlow }
    | none => { l with cursor := c }

/-- Ends the block structure and gives up a pending key, as the marks of documents do. -/
def endBlocks? (l : Lexing) : Option Lexing := do
  let l ← (l.closeBlocks (-1)).dropKey?
  return { l with keyAllowed := false }

def anchorName? (c : Cursor) : Option (Text × Cursor) :=
  let (name, c) := c.span isNameChar
  let ended := endsWord c.rest || match c.rest with
    | d :: _ => ['?', ':', ',', ']', '\x7D', '%', '@', '\x60'].contains d
    | [] => true
  if name.isEmpty || !ended then none else some (name, c)

/-- A character that may stand in a tag, percent signs apart. -/
def isTagChar (verbatim : Bool) (c : Char) : Bool :=
  isNameChar c || ";/?:@&=+$.!~*'()".toList.contains c || (verbatim && (c = ',' || c = '[' || c = ']'))

def leadLength? (byte : Nat) : Option Nat :=
  if byte < 0x80 then some 1
  else if 0xC0 ≤ byte && byte < 0xE0 then some 2
  else if 0xE0 ≤ byte && byte < 0xF0 then some 3
  else if 0xF0 ≤ byte && byte < 0xF8 then some 4
  else none

def escapedByte? : Text → Option Nat
  | '%' :: a :: b :: _ => hexNumber? [a, b]
  | _ => none

/-- The bytes that continue a character, each with its escape. -/
def continuation? : (count : Nat) → (value : Nat) → Text → Option (Nat × Text)
  | 0, value, rest => some (value, rest)
  | count + 1, value, rest => do
    let byte ← escapedByte? rest
    if 0x80 ≤ byte && byte < 0xC0 then continuation? count (value * 64 + (byte - 0x80)) (rest.drop 3)
    else none

/-- Reads a character written as its escaped bytes, and gives how long the escapes are. -/
def escapedChar? (s : Text) : Option (Char × Nat) := do
  let lead ← escapedByte? s
  let length ← leadLength? lead
  let bits := if length = 1 then lead else lead % Nat.pow 2 (7 - length)
  let (n, _) ← continuation? (length - 1) bits (s.drop 3)
  return ((scalar? n).getD '\uFFFD', 3 * length)

def tagText? (verbatim : Bool) : (rounds : Nat) → Text → Cursor → Option (Text × Cursor)
  | 0, _, _ => none
  | rounds + 1, value, c =>
    match c.rest with
    | '%' :: _ => do
      let (d, length) ← escapedChar? c.rest
      tagText? verbatim rounds (value ++ [d]) (c.advance length)
    | d :: _ =>
      if isTagChar verbatim d then tagText? verbatim rounds (value ++ [d]) (c.advance 1)
      else some (value, c)
    | [] => some (value, c)

/-- Reads a tag handle: an exclamation mark, a name, and perhaps another mark. -/
def handle? (c : Cursor) : Option (Text × Cursor) :=
  match c.rest with
  | '!' :: _ =>
    let (name, c) := (c.advance 1).span isNameChar
    if c.rest.head? = some '!' then some (['!'] ++ name ++ ['!'], c.advance 1)
    else some ('!' :: name, c)
  | _ => none

/-- Reads a tag as a handle and what follows it. A verbatim tag and the lone mark have no handle. -/
def tag? (inFlow : Bool) (c : Cursor) : Option (Token × Cursor) := do
  let (tag, c) ← match c.rest with
    | '!' :: '<' :: _ => do
      let (name, c) ← tagText? true (c.rest.length + 1) [] (c.advance 2)
      if name.isEmpty || c.rest.head? ≠ some '>' then none
      else some (Token.tag [] name, c.advance 1)
    | _ => do
      let (handle, c) ← handle? c
      if 1 < handle.length && handle.getLast? = some '!' then
        let (rest, c) ← tagText? false (c.rest.length + 1) [] c
        if rest.isEmpty then none else some (Token.tag handle rest, c)
      else
        let (rest, c) ← tagText? false (c.rest.length + 1) handle.tail c
        if rest.isEmpty then some (Token.tag [] ['!'], c) else some (Token.tag ['!'] rest, c)
  if (inFlow && c.rest.head? = some ',') || endsWord c.rest then some (tag, c) else none

def versionNumber? (c : Cursor) : Option (Nat × Cursor) := do
  let (digits, c) := c.span Char.isDigit
  if 9 < digits.length then none else return (← decimalNumber? digits, c)

def directive? (c : Cursor) : Option (Token × Cursor) := do
  let (name, c) := c.span isNameChar
  if name.isEmpty || !endsWord c.rest then none
  let (token, c) ← match String.ofList name with
    | "YAML" => do
      let (major, c) ← versionNumber? (c.skip isGapChar)
      if c.rest.head? ≠ some '.' then none
      let (minor, c) ← versionNumber? (c.advance 1)
      some (Token.version major minor, c)
    | "TAG" => do
      let (handle, c) ← handle? (c.skip isGapChar)
      if handle.getLast? ≠ some '!' || !(c.rest.head?.any isGapChar) then none
      let (lead, c) ← tagText? true (c.rest.length + 1) [] (c.skip isGapChar)
      if lead.isEmpty || !endsWord c.rest then none
      some (Token.tagHandle handle lead, c)
    | _ => none
  let c := c.skipRemark
  if endsLine c.rest then some (token, c.skipBreak) else none

def emitRead (l : Lexing) (read : Token × Cursor) : Lexing :=
  { l.emit read.1 with cursor := read.2 }

def openFlow? (l : Lexing) (t : Token) : Option Lexing := do
  let l ← l.startKey?
  return { l.emitMark t 1 with keys := none :: l.keys, keyAllowed := true }

def closeFlow? (l : Lexing) (t : Token) : Option Lexing := do
  let l ← l.dropKey?
  let keys := if l.inFlow then l.keys.tail else l.keys
  return { l.emitMark t 1 with keys, keyAllowed := false }

def flowEntry? (l : Lexing) : Option Lexing := do
  let l ← l.dropKey?
  return { l.emitMark .flowEntry 1 with keyAllowed := true }

/-- Opens a block collection at this column if the block structure allows one to begin here. -/
def openBlock? (l : Lexing) (t : Token) : Option Lexing :=
  if l.inFlow then some l
  else if !l.keyAllowed then none
  else match l.open? l.column with
    | some deeper => some (deeper.emit t)
    | none => some l

def blockEntry? (l : Lexing) : Option Lexing := do
  let l ← (← l.openBlock? .blockSequenceStart).dropKey?
  return { l.emitMark .blockEntry 1 with keyAllowed := true }

def explicitKey? (l : Lexing) : Option Lexing := do
  let l ← (← l.openBlock? .blockMappingStart).dropKey?
  return { l.emitMark .key 1 with keyAllowed := !l.inFlow }

/-- A colon turns the pending key into one; without a key it stands for itself. -/
def value? (l : Lexing) : Option Lexing :=
  match l.keys with
  | some key :: outer =>
    let (l, filled) := match l.open? (Int.ofNat key.column) with
      | some deeper => (deeper, [Token.blockMappingStart, .key])
      | none => (l, [Token.key])
    some { l.emitMark .value 1 with
      slots := (l.slots.setIfInBounds key.slot filled).push [.value]
      keys := none :: outer
      keyAllowed := false }
  | _ => do
    let l ← l.openBlock? .blockMappingStart
    return { l.emitMark .value 1 with keyAllowed := !l.inFlow }

def content? (l : Lexing) (read : Lexing → Option (Token × Cursor)) : Option Lexing := do
  let l ← l.startKey?
  return { l.emitRead (← read l) with keyAllowed := false }

def blockScalarToken? (l : Lexing) (literal : Bool) : Option Lexing := do
  let l ← l.dropKey?
  let (value, c) ← blockScalar? literal l.indent (l.cursor.advance 1)
  return { l.emitRead (.scalar (if literal then .literal else .folded) value, c) with
    keyAllowed := true }

def plainToken? (l : Lexing) : Option Lexing := do
  let l ← l.startKey?
  let c := l.cursor
  let scalar ← plainScalar? l.inFlow (l.indent + 1).toNat (c.rest.length + 1) [] {} c
  return { l.emitRead (.scalar .plain scalar.value, scalar.behind) with
    keyAllowed := scalar.broken }

def startsPlain (inFlow : Bool) : Text → Bool
  | [] => false
  | c :: rest =>
    let next := rest.head?
    if c = '-' then !next.any isGapChar
    else if c = '?' || c = ':' then !inFlow && !endsWord rest
    else !(endsWord [c] || isFlowMark c || "#&*!|>'\"%@".toList.contains c || c = '\x60')

def token? (l : Lexing) : Option Lexing :=
  let c := l.cursor
  if c.column = 0 && c.rest.head? = some '%' then do
    let l ← l.endBlocks?
    return l.emitRead (← directive? (c.advance 1))
  else if c.atDocumentMark then do
    let mark := if c.rest.head? = some '-' then Token.documentStart else Token.documentEnd
    return (← l.endBlocks?).emitMark mark 3
  else
    match c.rest with
    | '[' :: _ => l.openFlow? .flowSequenceStart
    | '\x7B' :: _ => l.openFlow? .flowMappingStart
    | ']' :: _ => l.closeFlow? .flowSequenceEnd
    | '\x7D' :: _ => l.closeFlow? .flowMappingEnd
    | ',' :: _ => l.flowEntry?
    | '*' :: _ => l.content? fun l => do
      let (name, c) ← anchorName? (l.cursor.advance 1)
      return (.alias name, c)
    | '&' :: _ => l.content? fun l => do
      let (name, c) ← anchorName? (l.cursor.advance 1)
      return (.anchor name, c)
    | '!' :: _ => l.content? fun l => tag? l.inFlow l.cursor
    | '\'' :: _ => l.content? fun l => do
      let (value, c) ← quotedScalar? true (l.cursor.rest.length + 1) [] (l.cursor.advance 1)
      return (.scalar .singleQuoted value, c)
    | '"' :: _ => l.content? fun l => do
      let (value, c) ← quotedScalar? false (l.cursor.rest.length + 1) [] (l.cursor.advance 1)
      return (.scalar .doubleQuoted value, c)
    | d :: rest =>
      if d = '-' && endsWord rest then l.blockEntry?
      else if d = '?' && (l.inFlow || endsWord rest) then l.explicitKey?
      else if d = ':' && (l.inFlow || endsWord rest) then l.value?
      else if d = '|' && !l.inFlow then l.blockScalarToken? true
      else if d = '>' && !l.inFlow then l.blockScalarToken? false
      else if startsPlain l.inFlow c.rest then l.plainToken?
      else none
    | [] => none

def tokens? : (rounds : Nat) → Lexing → Option (List Token)
  | 0, _ => none
  | rounds + 1, l => do
    let l ← (l.skipBlanks (l.cursor.rest.length + 1)).dropStale?
    let l := l.closeBlocks l.column
    if l.cursor.rest.isEmpty then return (← l.endBlocks?).slots.toList.flatten
    else tokens? rounds (← l.token?)

end Lexing

def Token.ofText? (s : Text) : Option (List Token) :=
  if s.all isAllowed then Lexing.tokens? (s.length + 1) { cursor := { rest := s } } else none

end TokenGraph.Yaml
