import Spectrum48.Video.Palette

/-!
# Attributes

One byte gives the colours of a cell of eight by eight pixels: three bits for the ink, three for
the paper, one that makes both bright, and one that makes them swap with the flash phase.
-/

namespace Spectrum48.Video.Attribute

/-- What brightness adds to a colour's number. -/
def bright (cell : UInt8) : Nat := if cell &&& 0x40 != 0 then 8 else 0

/-- Brightness adds eight or nothing. -/
theorem bright_le (cell : UInt8) : bright cell ≤ 8 := by
  unfold bright
  split <;> omega

/-- The colour of set pixels. -/
def ink (cell : UInt8) : Colour :=
  ⟨cell.toNat % 8 + bright cell, by have := bright_le cell; omega⟩

/-- The colour of clear pixels. -/
def paper (cell : UInt8) : Colour :=
  ⟨cell.toNat / 8 % 8 + bright cell, by have := bright_le cell; omega⟩

/-- Whether the colours swap with the flash phase. -/
def flashes (cell : UInt8) : Bool := cell &&& 0x80 != 0

/-- The colour of a pixel of a cell. -/
def colour (cell : UInt8) (inverted set : Bool) : Colour :=
  if (set ^^ (inverted && flashes cell)) then ink cell else paper cell

end Spectrum48.Video.Attribute
