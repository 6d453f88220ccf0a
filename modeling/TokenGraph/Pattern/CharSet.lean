import TokenGraph.Text.Blank
import TokenGraph.Text.CaseFold
import TokenGraph.Text.Digit
import TokenGraph.Text.WordChar
/-!
# Character sets

The sets that a pattern can name, built from ranges and three large classes by the usual
operations, and closed under change of case where the pattern ignores case.
-/
namespace TokenGraph

inductive CharSet where
  | none
  | range (first last : Char)
  | digits
  | blanks
  | wordChars
  | union (a b : CharSet)
  | inter (a b : CharSet)
  | diff (a b : CharSet)
  | symmDiff (a b : CharSet)
  | compl (a : CharSet)
  | anyCase (a : CharSet)
  deriving DecidableEq

namespace CharSet

def contains : CharSet → Char → Bool
  | none, _ => false
  | range first last, c => first ≤ c && c ≤ last
  | digits, c => isDecimalDigit c
  | blanks, c => isBlank c
  | wordChars, c => isWordChar c
  | union a b, c => a.contains c || b.contains c
  | inter a b, c => a.contains c && b.contains c
  | diff a b, c => a.contains c && !b.contains c
  | symmDiff a b, c => a.contains c != b.contains c
  | compl a, c => !a.contains c
  | anyCase a, c => (caseVariants c).any fun d => a.contains d

def single (c : Char) : CharSet := range c c

def notLineFeed : CharSet := compl (single '\n')

def ofRanges : List (Char × Char) → CharSet
  | [] => none
  | [(a, b)] => range a b
  | (a, b) :: rest => union (range a b) (ofRanges rest)

def asciiDigits : CharSet := range '0' '9'
def asciiBlanks : CharSet := ofRanges [('\t', '\r'), (' ', ' ')]
def asciiWordChars : CharSet := ofRanges [('0', '9'), ('A', 'Z'), ('_', '_'), ('a', 'z')]

/-- The ASCII set of a bracketed name such as `alpha`. -/
def named? (name : String) : Option CharSet :=
  match name with
  | "alnum" => some (ofRanges [('0', '9'), ('A', 'Z'), ('a', 'z')])
  | "alpha" => some (ofRanges [('A', 'Z'), ('a', 'z')])
  | "ascii" => some (range '\x00' '\x7F')
  | "blank" => some (ofRanges [('\t', '\t'), (' ', ' ')])
  | "cntrl" => some (ofRanges [('\x00', '\x1F'), ('\x7F', '\x7F')])
  | "digit" => some asciiDigits
  | "graph" => some (range '!' '~')
  | "lower" => some (range 'a' 'z')
  | "print" => some (range ' ' '~')
  | "punct" => some (ofRanges [('!', '/'), (':', '@'), ('[', '\x60'), ('\x7B', '~')])
  | "space" => some asciiBlanks
  | "upper" => some (range 'A' 'Z')
  | "word" => some asciiWordChars
  | "xdigit" => some (ofRanges [('0', '9'), ('A', 'F'), ('a', 'f')])
  | _ => Option.none

end CharSet

end TokenGraph
