import Spectrum48.Config.Basic
import Spectrum48.Video.Attribute
import Spectrum48.Video.Layout

/-!
# Pictures

A picture is the screen with a border around it. Lines are listed from the top, pixels of a line
from the left.
-/

namespace Spectrum48.Video

/-- A picture of coloured pixels. -/
structure Picture where
  /-- Pixels of a line. -/
  width : Nat
  /-- Lines. -/
  height : Nat
  /-- The pixels, line after line. -/
  pixels : Array Colour
  /-- No pixel is missing. -/
  size_pixels : pixels.size = width * height

namespace Picture

/-- A picture of one colour. -/
def plain (width height : Nat) (colour : Colour) : Picture where
  width := width
  height := height
  pixels := Array.replicate (width * height) colour
  size_pixels := Array.size_replicate

/-- The colour of a pixel. -/
def pixel? (picture : Picture) (x y : Nat) : Option Colour :=
  if x < picture.width then picture.pixels[y * picture.width + x]? else none

/-- The pixels of a line. -/
def line (picture : Picture) (y : Nat) : Array Colour :=
  picture.pixels.extract (y * picture.width) ((y + 1) * picture.width)

/-- The bytes of a picture, four for each pixel. -/
def bytes (picture : Picture) : Array UInt8 :=
  picture.pixels.foldl (fun bytes colour =>
    let rgba := colour.rgba
    (((bytes.push rgba.red).push rgba.green).push rgba.blue).push rgba.alpha) #[]

/-- The bytes of a picture are those of its pixels, one after the other. -/
theorem toList_bytes (picture : Picture) :
    picture.bytes.toList = picture.pixels.toList.flatMap fun colour => colour.rgba.bytes := by
  have added : ∀ (colours : List Colour) (bytes : Array UInt8),
      (colours.foldl (fun bytes colour =>
        let rgba := colour.rgba
        (((bytes.push rgba.red).push rgba.green).push rgba.blue).push rgba.alpha) bytes).toList
        = bytes.toList ++ colours.flatMap fun colour => colour.rgba.bytes := by
    intro colours
    induction colours with
    | nil => simp
    | cons colour rest ih =>
      intro bytes
      rw [List.foldl_cons, ih]
      simp [Rgba.bytes]
  rw [bytes, ← Array.foldl_toList, added]
  rfl

/-- A picture has four bytes for each pixel. -/
theorem size_bytes (picture : Picture) :
    picture.bytes.size = 4 * (picture.width * picture.height) := by
  have four : ∀ colours : List Colour,
      (colours.flatMap fun colour => colour.rgba.bytes).length = 4 * colours.length := by
    intro colours
    induction colours with
    | nil => rfl
    | cons colour rest ih =>
      rw [List.flatMap_cons, List.length_append, ih, List.length_cons, Rgba.bytes]
      simp only [List.length_cons, List.length_nil]
      omega
  rw [← Array.length_toList, toList_bytes, four, Array.length_toList, picture.size_pixels]

end Picture

/-- Add the eight pixels of a byte of the bitmap, the highest bit first. -/
def addByte (cell : UInt8) (inverted : Bool) (bits : UInt8) (pixels : Array Colour) :
    Array Colour :=
  let set := Attribute.colour cell inverted true
  let clear := Attribute.colour cell inverted false
  (List.range 8).foldl
    (fun pixels bit => pixels.push (if bits.toNat.testBit (7 - bit) then set else clear)) pixels

/-- Add the pixels of one column of a line, from lines in display order. -/
def addColumn (lines : Array UInt8) (inverted : Bool) (y : Nat) (pixels : Array Colour)
    (column : Nat) : Array Colour :=
  addByte (lines.getD (bitmapSize + y / cellHeight * rowBytes + column) 0) inverted
    (lines.getD (y * rowBytes + column) 0) pixels

/-- A line of the screen, from lines in display order. -/
def screenLine (lines : Array UInt8) (inverted : Bool) (y : Nat) : Array Colour :=
  (List.range rowBytes).foldl (addColumn lines inverted y)
    (Array.emptyWithCapacity Config.screenWidth)

/-- The measures and the colour of a border. -/
structure Border where
  /-- Pixels left and right of the screen. -/
  x : Nat
  /-- Lines above and below the screen. -/
  y : Nat
  /-- The colour. -/
  colour : Colour

/-- Pixels of a line with its border. -/
def Border.width (border : Border) : Nat := Config.screenWidth + 2 * border.x

/-- Lines with their border. -/
def Border.height (border : Border) : Nat := Config.screenHeight + 2 * border.y

/-- The lines above the screen, and as many below it. -/
def Border.band (border : Border) : Array Colour :=
  Array.replicate (border.y * border.width) border.colour

/-- The border at one end of a line of the screen. -/
def Border.side (border : Border) : Array Colour := Array.replicate border.x border.colour

/-- Add a line of the screen with its border. -/
def Border.addLine (border : Border) (line : Nat → Array Colour) (pixels : Array Colour) (y : Nat) :
    Array Colour :=
  pixels ++ border.side ++ line y ++ border.side

/-- The pixels of a picture whose screen has the lines given. -/
def Border.frame (border : Border) (line : Nat → Array Colour) : Array Colour :=
  (List.range rowCount).foldl (border.addLine line) border.band ++ border.band

/-- Steps that each add the same number of pixels add that many times their count. -/
theorem size_foldl_of_size_add {step : Array Colour → Nat → Array Colour} {count : Nat}
    (grows : ∀ pixels index, (step pixels index).size = pixels.size + count)
    (indices : List Nat) (pixels : Array Colour) :
    (indices.foldl step pixels).size = pixels.size + indices.length * count := by
  induction indices generalizing pixels with
  | nil => simp
  | cons index rest ih =>
    rw [List.foldl_cons, ih, grows, List.length_cons, Nat.succ_mul]
    omega

/-- A byte of the bitmap is eight pixels. -/
theorem size_addByte (cell : UInt8) (inverted : Bool) (bits : UInt8) (pixels : Array Colour) :
    (addByte cell inverted bits pixels).size = pixels.size + 8 := by
  rw [addByte, size_foldl_of_size_add fun _ _ => Array.size_push _]
  rfl

/-- A line of the screen has its full width. -/
theorem size_screenLine (lines : Array UInt8) (inverted : Bool) (y : Nat) :
    (screenLine lines inverted y).size = Config.screenWidth := by
  have grows : ∀ pixels column,
      (addColumn lines inverted y pixels column).size = pixels.size + 8 :=
    fun _ _ => size_addByte _ _ _ _
  rw [screenLine, size_foldl_of_size_add grows]
  rfl

/-- Framed lines of full width fill the picture. -/
theorem Border.size_frame (border : Border) {line : Nat → Array Colour}
    (full : ∀ y, (line y).size = Config.screenWidth) :
    (border.frame line).size = border.width * border.height := by
  have grows : ∀ pixels y, (border.addLine line pixels y).size = pixels.size + border.width := by
    intro pixels y
    simp only [Border.addLine, Array.size_append, full, Border.side, Array.size_replicate,
      Border.width]
    omega
  rw [Border.frame, Array.size_append, size_foldl_of_size_add grows, Border.band,
    Array.size_replicate, List.length_range, Border.height, Nat.mul_add, ← Nat.mul_assoc,
    Nat.mul_comm border.width 2, Nat.mul_assoc 2, Nat.mul_comm border.width border.y,
    Nat.mul_comm border.width]
  show _ = Config.screenHeight * border.width + _
  rw [show rowCount = Config.screenHeight from rfl]
  omega

/-- Draw a screen with a border. The screen must have its full size. -/
def draw (border : Border) (screen : Array UInt8) (inverted : Bool) : Except Fault Picture :=
  match deinterlace screen with
  | .error fault => .error fault
  | .ok lines => .ok
    { width := border.width
      height := border.height
      pixels := border.frame (screenLine lines inverted)
      size_pixels := border.size_frame (size_screenLine lines inverted) }

end Spectrum48.Video
