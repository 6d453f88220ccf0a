import TokenGraph.Text.Basic
/-!
# Places in a YAML text

A cursor is what is left of a text, with the place it is at. A carriage return with a line feed is
one line break; all breaks but the two Unicode separators read as a line feed.
-/
namespace TokenGraph.Yaml

/-- A character that a stream may hold. -/
def isAllowed (c : Char) : Bool :=
  let n := c.toNat
  n = 0x09 || n = 0x0A || n = 0x0D || (0x20 ≤ n && n ≤ 0x7E) || n = 0x85 ||
    (0xA0 ≤ n && n ≤ 0xD7FF) || (0xE000 ≤ n && n ≤ 0xFFFD) || 0x10000 ≤ n

def isBreak (c : Char) : Bool :=
  c = '\n' || c = '\r' || c = '\x85' || c = '\u2028' || c = '\u2029'

def isGapChar (c : Char) : Bool := c = ' ' || c = '\t'

/-- A character of anchors, tag handles and directive names. -/
def isNameChar (c : Char) : Bool := c.isAlphanum || c = '_' || c = '-'

/-- Whether a word cannot go on: at a blank, a break or the end. -/
def endsWord : Text → Bool
  | [] => true
  | c :: _ => isGapChar c || isBreak c

def endsLine : Text → Bool
  | [] => true
  | c :: _ => isBreak c

structure Cursor where
  rest : Text
  index : Nat := 0
  line : Nat := 0
  column : Nat := 0

namespace Cursor

def advance (c : Cursor) (n : Nat) : Cursor :=
  { c with rest := c.rest.drop n, index := c.index + n, column := c.column + n }

def nextLine (c : Cursor) (n : Nat) : Cursor :=
  { rest := c.rest.drop n, index := c.index + n, line := c.line + 1, column := 0 }

/-- The break at this place as it reads, and the place after it. -/
def lineBreak? (c : Cursor) : Option (Char × Cursor) :=
  match c.rest with
  | '\r' :: '\n' :: _ => some ('\n', c.nextLine 2)
  | '\u2028' :: _ => some ('\u2028', c.nextLine 1)
  | '\u2029' :: _ => some ('\u2029', c.nextLine 1)
  | b :: _ => if isBreak b then some ('\n', c.nextLine 1) else none
  | [] => none

def skipBreak (c : Cursor) : Cursor :=
  match c.lineBreak? with
  | some (_, c) => c
  | none => c

/-- The longest run of characters with a property, none of them a break. -/
def span (c : Cursor) (p : Char → Bool) : Text × Cursor :=
  let run := c.rest.takeWhile fun d => p d && !isBreak d
  (run, c.advance run.length)

def skip (c : Cursor) (p : Char → Bool) : Cursor := (c.span p).2

/-- The place after blanks and a comment on the rest of the line. -/
def skipRemark (c : Cursor) : Cursor :=
  let c := c.skip isGapChar
  match c.rest with
  | '#' :: _ => c.skip fun _ => true
  | _ => c

/-- Whether a line opens with the mark that begins or ends a document. -/
def atDocumentMark (c : Cursor) : Bool :=
  c.column = 0 &&
    match c.rest with
    | '-' :: '-' :: '-' :: rest => endsWord rest
    | '.' :: '.' :: '.' :: rest => endsWord rest
    | _ => false

end Cursor

end TokenGraph.Yaml
