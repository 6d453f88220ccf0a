import TokenGraph.Binary32
import TokenGraph.Text.Basic
/-!
# Decimal numbers

A decimal number is a coefficient with a power of ten. It becomes a single-precision number by way
of double precision: each step takes the nearest number of its format, and the even one of two that
are equally near.
-/
namespace TokenGraph

structure Decimal where
  negative : Bool
  coefficient : Nat
  exponent : Int

namespace Decimal

/-- Reads a decimal exponent after its letter. -/
def exponentOf? : Text → Option Int
  | '+' :: digits => (decimalNumber? digits).map Int.ofNat
  | '-' :: digits => (decimalNumber? digits).map fun n => -Int.ofNat n
  | digits => (decimalNumber? digits).map Int.ofNat

/-- Reads digits with at most one point among or beside them, and perhaps an exponent. -/
def unsigned? (negative : Bool) (s : Text) : Option Decimal := do
  let whole := s.takeWhile Char.isDigit
  let rest := s.drop whole.length
  let (places, rest) := match rest with
    | '.' :: rest =>
      let places := rest.takeWhile Char.isDigit
      (places, rest.drop places.length)
    | rest => ([], rest)
  let coefficient ← decimalNumber? (whole ++ places)
  let exponent ← match rest with
    | [] => some 0
    | c :: rest => if c = 'e' ∨ c = 'E' then exponentOf? rest else none
  return ⟨negative, coefficient, exponent - places.length⟩

def ofText? : Text → Option Decimal
  | '+' :: rest => unsigned? false rest
  | '-' :: rest => unsigned? true rest
  | rest => unsigned? false rest

end Decimal

/-- The natural number nearest to a quotient, the even one at a tie. -/
def nearest (num den : Nat) : Nat :=
  let q := num / den
  let twice := 2 * (num % den)
  if twice < den then q else if den < twice then q + 1 else q + q % 2

def scaleDown (num den : Nat) : Int → Nat × Nat
  | .ofNat e => (num, den * Nat.pow 2 e)
  | .negSucc e => (num * Nat.pow 2 (e + 1), den)

def leadingExponent (num den : Nat) : Int :=
  let guess : Int := Int.ofNat num.log2 - Int.ofNat den.log2
  let (n, d) := scaleDown num den guess
  if n < d then guess - 1 else guess

/-- A multiple of a power of two. -/
structure Dyadic where
  multiple : Nat
  exponent : Int

/-- The nearest number with so many binary digits, none below the least exponent. -/
def roundTo (digits : Nat) (least : Int) (num den : Nat) : Dyadic :=
  if num = 0 then ⟨0, least⟩
  else
    let e := max least (leadingExponent num den - Int.ofNat digits + 1)
    let (n, d) := scaleDown num den e
    ⟨nearest n d, e⟩

namespace Dyadic

def quotient (x : Dyadic) : Nat × Nat := scaleDown x.multiple 1 (-x.exponent)

/-- The nearest double-precision number, if it is in range. -/
def double? (num den : Nat) : Option Dyadic :=
  let x := roundTo 53 (-1074) num den
  if Int.ofNat x.multiple.log2 + x.exponent < 1024 then some x else none

/-- The nearest single-precision number; those out of range become infinity. -/
def single (x : Dyadic) : Binary32 :=
  let (num, den) := x.quotient
  let y := roundTo 24 (-149) num den
  let bits := (y.exponent + 149).toNat * Nat.pow 2 23 + y.multiple
  if bits < 0x7F800000 then ⟨UInt32.ofNat bits⟩ else .infinity

end Dyadic

namespace Decimal

def digitCount (n : Nat) : Nat := (Nat.toDigits 10 n).length

/-- The nearest double-precision number without the sign, if it is in range. Numbers far from that
range are told apart by their size alone. -/
def double? (x : Decimal) : Option Dyadic :=
  let size := Int.ofNat (digitCount x.coefficient) + x.exponent
  if x.coefficient = 0 ∨ size < -400 then some ⟨0, -1074⟩
  else if 400 < size then none
  else
    match x.exponent with
    | .ofNat e => Dyadic.double? (x.coefficient * Nat.pow 10 e) 1
    | .negSucc e => Dyadic.double? x.coefficient (Nat.pow 10 (e + 1))

/-- The single-precision number of a decimal that is in the range of double precision. -/
def toBinary32? (x : Decimal) : Option Binary32 :=
  x.double?.map fun d => if x.negative then d.single.negated else d.single

end Decimal

end TokenGraph
