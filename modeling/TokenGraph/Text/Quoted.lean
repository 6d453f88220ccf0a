import TokenGraph.Text.Basic
import TokenGraph.Text.Hidden
/-!
# Quoted texts

A text between double quotes, with a backslash form for quotes, backslashes, the common controls,
and every character that has no glyph of its own.
-/
namespace TokenGraph

def hexDigits (n : Nat) : Text := Nat.toDigits 16 n

def quoteChar (c : Char) : Text :=
  match c with
  | '"' => ['\\', '"']
  | '\\' => ['\\', '\\']
  | '\n' => ['\\', 'n']
  | '\t' => ['\\', 't']
  | '\r' => ['\\', 'r']
  | '\x00' => ['\\', '0']
  | c => if isHidden c then ['\\', 'u', '\x7B'] ++ hexDigits c.toNat ++ ['\x7D'] else [c]

def quoted (s : Text) : Text := ['"'] ++ s.flatMap quoteChar ++ ['"']

end TokenGraph
