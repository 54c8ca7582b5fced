/-!
# Colours

Sixteen colours: eight, and the same eight bright. The low three bits of a colour's number are its
blue, red and green parts.
-/

namespace Spectrum48.Video

/-- A colour by its number. -/
abbrev Colour := Fin 16

/-- A colour by the strengths of its parts and its opacity. -/
structure Rgba where
  red : UInt8
  green : UInt8
  blue : UInt8
  alpha : UInt8
  deriving DecidableEq, Repr

namespace Colour

/-- The strength of a part that is present. -/
def strength (colour : Colour) : UInt8 := if colour.val / 8 = 1 then 255 else 192

/-- The strength of the part that a bit of the colour's number stands for. -/
def part (colour : Colour) (bit : Nat) : UInt8 :=
  if colour.val.testBit bit then strength colour else 0

/-- The parts of a colour. All colours are opaque. -/
def rgba (colour : Colour) : Rgba := ⟨part colour 1, part colour 2, part colour 0, 255⟩

/-- Bright white. -/
def white : Colour := 15

/-- The colour that a byte sets as border. -/
def ofBorder (value : UInt8) : Colour := ⟨value.toNat % 8, by omega⟩

end Colour

/-- The four bytes of a colour in a picture. -/
def Rgba.bytes (colour : Rgba) : List UInt8 :=
  [colour.red, colour.green, colour.blue, colour.alpha]

end Spectrum48.Video
