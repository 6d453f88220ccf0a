/-!
# Texts

A text is the list of its characters, so that cutting and joining are list operations.
-/
namespace TokenGraph

abbrev Text := List Char

def byteSize : Text → Nat
  | [] => 0
  | c :: rest => c.utf8Size + byteSize rest

def text (s : String) : Text := s.toList

def hexDigit? (c : Char) : Option Nat :=
  if '0' ≤ c ∧ c ≤ '9' then some (c.toNat - '0'.toNat)
  else if 'a' ≤ c ∧ c ≤ 'f' then some (c.toNat - 'a'.toNat + 10)
  else if 'A' ≤ c ∧ c ≤ 'F' then some (c.toNat - 'A'.toNat + 10)
  else none

/-- The number that hexadecimal digits spell; none for other characters or no digit. -/
def hexNumber? : Text → Option Nat
  | [] => none
  | digits => digits.foldlM (fun n c => (hexDigit? c).map (16 * n + ·)) 0

/-- The number that decimal digits spell; none for other characters or no digit. -/
def decimalNumber? (digits : Text) : Option Nat :=
  if digits.isEmpty || !digits.all Char.isDigit then none
  else some (digits.foldl (fun n c => 10 * n + (c.toNat - '0'.toNat)) 0)

end TokenGraph
