import TokenGraph.Text.Basic
import TokenGraph.Text.Blank
/-!
# Colors

A color is four byte channels, written `#RRGGBB`, or `#RRGGBBAA` when it is not opaque.
-/
namespace TokenGraph

structure Color where
  red : UInt8
  green : UInt8
  blue : UInt8
  alpha : UInt8
  deriving DecidableEq

namespace Color

def opaqueOf (red green blue : UInt8) : Color := ⟨red, green, blue, 0xFF⟩

def white : Color := opaqueOf 0xFF 0xFF 0xFF
def transparent : Color := ⟨0, 0, 0, 0⟩
def pureRed : Color := opaqueOf 0xFF 0 0
def darkGray : Color := opaqueOf 0xA9 0xA9 0xA9
def orange : Color := opaqueOf 0xFF 0xA5 0x00
def lightGreen : Color := opaqueOf 0x90 0xEE 0x90
def greenYellow : Color := opaqueOf 0xAD 0xFF 0x2F
def peachPuff : Color := opaqueOf 0xFF 0xDA 0xB9
def skyBlue : Color := opaqueOf 0x87 0xCE 0xEB

def isTransparent (c : Color) : Bool := c.alpha = 0

/-- A channel is two hexadecimal digits; the first may be a plus sign instead. -/
def channel? (high low : Char) : Option UInt8 :=
  match hexDigit? low with
  | none => none
  | some l =>
    if high = '+' then some (UInt8.ofNat l)
    else (hexDigit? high).map fun h => UInt8.ofNat (16 * h + l)

/-- Reads a color, ignoring white space around it. -/
def ofText? (s : Text) : Option Color :=
  match trim s with
  | ['#', r, r', g, g', b, b'] => do
    pure ⟨← channel? r r', ← channel? g g', ← channel? b b', 0xFF⟩
  | ['#', r, r', g, g', b, b', a, a'] => do
    pure ⟨← channel? r r', ← channel? g g', ← channel? b b', ← channel? a a'⟩
  | _ => none

def digit (n : Nat) : Char :=
  Char.ofNat (if n < 10 then '0'.toNat + n else 'A'.toNat + (n - 10))

def channelText (v : UInt8) : Text := [digit (v.toNat / 16), digit (v.toNat % 16)]

/-- Writes a color; the alpha channel is written only when it is not full. -/
def toText (c : Color) : Text :=
  '#' :: (channelText c.red ++ channelText c.green ++ channelText c.blue ++
    (if c.alpha = 0xFF then [] else channelText c.alpha))

end Color

end TokenGraph
