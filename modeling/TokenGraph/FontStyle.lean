import TokenGraph.Binary32
import TokenGraph.Color
/-!
# Font styles

How tokens of a category are drawn: size, colors, weight, slant and underline.
-/
namespace TokenGraph

structure FontStyle where
  size : Binary32 := .one
  foreground : Color := .white
  bold : Bool := false
  italic : Bool := false
  underlined : Bool := false
  underline : Color := .transparent
  background : Color := .transparent
  deriving DecidableEq

inductive StyleChange where
  | size (ratio : Binary32)
  | foreground (color : Color)
  | background (color : Color)
  | underline (color : Color)
  | bold
  | italic

namespace FontStyle

/-- The default style: plain white text of normal size. -/
def plain : FontStyle := {}

def change (style : FontStyle) : StyleChange → FontStyle
  | .size ratio => { style with size := ratio }
  | .foreground color => { style with foreground := color }
  | .background color => { style with background := color }
  | .underline color => { style with underlined := true, underline := color }
  | .bold => { style with bold := true }
  | .italic => { style with italic := true }

def inColor (color : Color) : FontStyle := plain.change (.foreground color)

/-- How unknown text is drawn when a language does not say. -/
def unknownDefault : FontStyle :=
  { foreground := .white, background := ⟨0x4D, 0x4D, 0x4D, 0x99⟩,
    underlined := true, underline := .pureRed }

/-- Equality of styles, where sizes are compared as numbers. -/
def same (a b : FontStyle) : Bool :=
  a.size.same b.size && a.foreground = b.foreground && a.bold = b.bold && a.italic = b.italic &&
    a.underlined = b.underlined && a.underline = b.underline && a.background = b.background

end FontStyle

end TokenGraph
