import TokenGraph.Yaml.Cursor
import TokenGraph.Pattern.Parser
/-!
# Scalars as written

Plain, quoted and block scalars, read to the text that they stand for. Breaks between the words of
a scalar are folded: one becomes a space, further ones stay. No reading means the text is malformed.
Loops take a character each round, so the length of the text bounds them.
-/
namespace TokenGraph.Yaml

inductive ScalarStyle where
  | plain
  | singleQuoted
  | doubleQuoted
  | literal
  | folded
  deriving DecidableEq

/-- The blanks and breaks between two words: blanks count only where no break is. -/
structure Gap where
  blanks : Text := []
  broken : Bool := false
  first : Option Char := none
  further : Text := []

namespace Gap

def addBlank (g : Gap) (c : Char) : Gap :=
  if g.broken then g else { g with blanks := g.blanks ++ [c] }

def addBreak (g : Gap) (b : Char) : Gap :=
  if g.broken then { g with further := g.further ++ [b] }
  else { broken := true, first := some b }

def fold (g : Gap) : Text :=
  if !g.broken then g.blanks
  else
    match g.first with
    | some '\n' => if g.further.isEmpty then [' '] else g.further
    | some b => b :: g.further
    | none => g.further

/-- Reads on in a gap. After a break no tab may stand before the column `indent`. -/
def read? (indent : Nat) : (rounds : Nat) → Gap → Cursor → Option (Gap × Cursor)
  | 0, g, c => some (g, c)
  | rounds + 1, g, c =>
    match c.lineBreak? with
    | some (b, c) => read? indent rounds (g.addBreak b) c
    | none =>
      match c.rest with
      | [] => some (g, c)
      | d :: _ =>
        if !isGapChar d then some (g, c)
        else if d = '\t' && g.broken && c.column < indent then none
        else read? indent rounds (g.addBlank d) (c.advance 1)

end Gap

def isFlowMark (c : Char) : Bool := c = ',' || c = '[' || c = ']' || c = '\x7B' || c = '\x7D'

/-- The end of a word of a plain scalar: its length, unless a colon stands where none may. -/
def plainWord? (inFlow : Bool) : Text → Option Nat
  | [] => some 0
  | c :: rest =>
    if isGapChar c || isBreak c then some 0
    else if inFlow && c = ':' && (match rest with | d :: _ => d = '?' || isFlowMark d | [] => false) then
      none
    else if (c = ':' && endsWord rest) || (inFlow && isFlowMark c) then some 0
    else (plainWord? inFlow rest).map (· + 1)

/-- A plain scalar: its text, whether a break came after it, and the place behind. -/
structure PlainScalar where
  value : Text
  broken : Bool
  behind : Cursor

/-- Reads on in a plain scalar, with the gap before the next word. -/
def plainScalar? (inFlow : Bool) (indent : Nat) :
    (rounds : Nat) → Text → Gap → Cursor → Option PlainScalar
  | 0, value, gap, c => some ⟨value, gap.broken, c⟩
  | rounds + 1, value, gap, c =>
    if c.atDocumentMark || c.rest.head? = some '#' then some ⟨value, gap.broken, c⟩
    else do
      let length ← plainWord? inFlow c.rest
      let word := c.rest.take length
      let (value, gap) := if word.isEmpty then (value, gap) else (value ++ gap.fold ++ word, {})
      let c := c.advance length
      if c.rest.isEmpty || !endsWord c.rest then some ⟨value, gap.broken, c⟩
      else
        let (gap, c) ← Gap.read? indent (c.rest.length + 1) gap c
        if !inFlow && c.column < indent then some ⟨value, gap.broken, c⟩
        else plainScalar? inFlow indent rounds value gap c

def letterEscape? : Char → Option Char
  | '0' => some '\x00'
  | 'a' => some '\x07'
  | 'b' => some '\x08'
  | 't' => some '\t'
  | '\t' => some '\t'
  | 'n' => some '\n'
  | 'v' => some '\x0B'
  | 'f' => some '\x0C'
  | 'r' => some '\r'
  | 'e' => some '\x1B'
  | ' ' => some ' '
  | '"' => some '"'
  | '/' => some '/'
  | '\\' => some '\\'
  | 'N' => some '\x85'
  | '_' => some '\xA0'
  | 'L' => some '\u2028'
  | 'P' => some '\u2029'
  | _ => none

def escapeWidth? : Char → Option Nat
  | 'x' => some 2
  | 'u' => some 4
  | 'U' => some 8
  | _ => none

/-- Reads an escape after its backslash: the character, and the length of the escape. -/
def quotedEscape? : Text → Option (Char × Nat)
  | [] => none
  | letter :: rest =>
    match escapeWidth? letter with
    | none => (letterEscape? letter).map (·, 1)
    | some width => do
      let digits := rest.take width
      if digits.length < width then none
      else return (← scalar? (← hexNumber? digits), width + 1)

/-- Reads a word of a quoted scalar. A break after a backslash joins two lines and ends the word. -/
def quotedWord? (single : Bool) : (rounds : Nat) → Text → Cursor → Option (Text × Gap × Cursor)
  | 0, _, _ => none
  | rounds + 1, value, c =>
    match c.rest with
    | [] => some (value, {}, c)
    | d :: rest =>
      if isGapChar d || isBreak d then some (value, {}, c)
      else if single then
        if d = '\'' then
          if rest.head? = some '\'' then quotedWord? single rounds (value ++ ['\'']) (c.advance 2)
          else some (value, {}, c)
        else quotedWord? single rounds (value ++ [d]) (c.advance 1)
      else if d = '"' then some (value, {}, c)
      else if d = '\\' then
        match (c.advance 1).lineBreak? with
        | some (_, c) => some (value, { broken := true }, c)
        | none => do
          let (e, length) ← quotedEscape? rest
          quotedWord? single rounds (value ++ [e]) (c.advance (length + 1))
      else quotedWord? single rounds (value ++ [d]) (c.advance 1)

def quotedScalar? (single : Bool) : (rounds : Nat) → Text → Cursor → Option (Text × Cursor)
  | 0, _, _ => none
  | rounds + 1, value, c =>
    if c.atDocumentMark || c.rest.isEmpty then none
    else do
      let (value, gap, c) ← quotedWord? single (c.rest.length + 1) value c
      if c.rest.head? = some (if single then '\'' else '"') then some (value, c.advance 1)
      else
        let (gap, c) ← Gap.read? 0 (c.rest.length + 1) gap c
        quotedScalar? single rounds (value ++ gap.fold) c

/-- What becomes of the breaks at the end of a block scalar. -/
inductive Chomping where
  | strip
  | clip
  | keep

/-- The marks after the bar or angle of a block scalar, in either order. -/
structure BlockHeader where
  chomping : Chomping := .clip
  increment : Nat := 0

namespace BlockHeader

def chomping? : Text → Option Chomping
  | '+' :: _ => some .keep
  | '-' :: _ => some .strip
  | _ => none

/-- Reads a header; an indentation of zero cannot be asked for. -/
def read? (c : Cursor) : Option (BlockHeader × Cursor) :=
  let digit? (s : Text) : Option Nat := (s.head?.filter Char.isDigit).map fun d => d.toNat - '0'.toNat
  match chomping? c.rest with
  | some chomping =>
    let c := c.advance 1
    match digit? c.rest with
    | some 0 => none
    | some n => some (⟨chomping, n⟩, c.advance 1)
    | none => some ({ chomping }, c)
  | none =>
    match digit? c.rest with
    | some 0 => none
    | some n =>
      let c := c.advance 1
      match chomping? c.rest with
      | some chomping => some (⟨chomping, n⟩, c.advance 1)
      | none => some ({ increment := n }, c)
    | none => some ({}, c)

end BlockHeader

/-- Reads the breaks and the indentation before a line of a block scalar, giving the breaks, the
deepest indentation met, and the place behind. An `indent` of zero is not known yet. -/
def blockBreaks? (indent : Nat) : (rounds : Nat) → Text → (deepest : Nat) → Cursor →
    Option (Text × Nat × Cursor)
  | 0, breaks, deepest, c => some (breaks, deepest, c)
  | rounds + 1, breaks, deepest, c =>
    let limit := if indent = 0 then c.rest.length else indent - c.column
    let c := c.advance ((c.rest.take limit).takeWhile (· = ' ')).length
    let deepest := max deepest c.column
    if (indent = 0 || c.column < indent) && c.rest.head? = some '\t' then none
    else
      match c.lineBreak? with
      | some (b, c) => blockBreaks? indent rounds (breaks ++ [b]) deepest c
      | none => some (breaks, deepest, c)

/-- A block scalar while its lines are read: the text so far, the break after the last line, the
empty lines behind it, and whether the last line began with a blank. -/
structure BlockLines where
  value : Text := []
  last : Option Char := none
  empty : Text := []
  blank : Bool := false

def blockLines? (literal : Bool) (indent : Nat) :
    (rounds : Nat) → BlockLines → Cursor → Option (BlockLines × Cursor)
  | 0, lines, c => some (lines, c)
  | rounds + 1, lines, c =>
    if c.column ≠ indent || c.rest.isEmpty then some (lines, c)
    else do
      let blank := c.rest.head?.any isGapChar
      let joined :=
        if !literal && lines.last = some '\n' && !lines.blank && !blank then
          if lines.empty.isEmpty then [' '] else []
        else lines.last.toList
      let (content, c) := c.span fun _ => true
      let (last, c) := match c.lineBreak? with
        | some (b, c) => (some b, c)
        | none => (none, c)
      let (empty, _, c) ← blockBreaks? indent (c.rest.length + 1) [] 0 c
      blockLines? literal indent rounds
        ⟨lines.value ++ joined ++ lines.empty ++ content, last, empty, blank⟩ c

/-- Reads a block scalar after its bar or angle, inside a collection indented by `parent`. -/
def blockScalar? (literal : Bool) (parent : Int) (c : Cursor) : Option (Text × Cursor) := do
  let (header, c) ← BlockHeader.read? c
  let c := c.skipRemark
  if !endsLine c.rest then none
  let c := c.skipBreak
  let given := if header.increment = 0 then 0 else (max parent 0).toNat + header.increment
  let (empty, deepest, c) ← blockBreaks? given (c.rest.length + 1) [] 0 c
  let indent := if given = 0 then max deepest (max (parent + 1).toNat 1) else given
  let (lines, c) ← blockLines? literal indent (c.rest.length + 1) { empty } c
  let tail := match header.chomping with
    | .strip => []
    | .clip => lines.last.toList
    | .keep => lines.last.toList ++ lines.empty
  return (lines.value ++ tail, c)

end TokenGraph.Yaml
