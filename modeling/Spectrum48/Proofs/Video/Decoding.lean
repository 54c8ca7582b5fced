import Spectrum48.Processor.Scripted
import Spectrum48.Proofs.Machine.Cycles

/-!
# The picture, pixel by pixel

A picture is drawn by adding pixels line after line: a band of border, the lines of the screen with
border on both sides, and another band. Where a pixel ends up, and which bytes of the screen decide
on it, follows from the sizes of what was added before. The addresses of these bytes are those that
the picture circuit computes from the place of the pixel.
-/

namespace Spectrum48.Video

/-! ### The circuit's addresses and colours -/

/-- The address of the bitmap byte of a pixel, from the start of the screen. -/
def bitmapAddress (x y : Nat) : Nat :=
  (y &&& 0xC0) <<< 5 ||| (y &&& 0x07) <<< 8 ||| (y &&& 0x38) <<< 2 ||| x >>> 3

/-- The address of the attribute of a pixel, from the start of the screen. -/
def attributeAddress (x y : Nat) : Nat := 6144 + 32 * (y / 8) + x / 8

/-- The number of the colour that the bytes of a screen give to a pixel. -/
def colourNumber (screen : Array UInt8) (inverted : Bool) (x y : Nat) : Nat :=
  let cell := (screen.getD (attributeAddress x y) 0).toNat
  let set := (screen.getD (bitmapAddress x y) 0).toNat.testBit (7 - x % 8)
  let bright := if cell.testBit 6 then 1 else 0
  let ink := (cell &&& 0x07) + 8 * bright
  let paper := (cell >>> 3 &&& 0x07) + 8 * bright
  if inverted && cell.testBit 7 then if set then paper else ink
  else if set then ink else paper

/-- The colours by number: red, green, blue and opacity. -/
def palette : List (List UInt8) :=
  [[0, 0, 0, 255], [0, 0, 192, 255], [192, 0, 0, 255], [192, 0, 192, 255],
   [0, 192, 0, 255], [0, 192, 192, 255], [192, 192, 0, 255], [192, 192, 192, 255],
   [0, 0, 0, 255], [0, 0, 255, 255], [255, 0, 0, 255], [255, 0, 255, 255],
   [0, 255, 0, 255], [0, 255, 255, 255], [255, 255, 0, 255], [255, 255, 255, 255]]

/-- The bytes of a colour are those of the palette. -/
theorem palette_getElem? (colour : Colour) : palette[colour.val]? = some colour.rgba.bytes := by
  revert colour
  decide

/-- The border takes the three lowest bits of its byte. -/
theorem val_ofBorder (value : UInt8) : (Colour.ofBorder value).val = value.toNat &&& 0x07 :=
  (Nat.and_two_pow_sub_one_eq_mod value.toNat 3).symm

namespace Attribute

/-- The bit for brightness adds eight to the number of a colour. -/
theorem bright_eq (cell : UInt8) :
    bright cell = 8 * if cell.toNat.testBit 6 then 1 else 0 := by
  have bit : ∀ bits : BitVec 8, (UInt8.ofBitVec bits &&& 0x40 != 0) = bits.toNat.testBit 6 := by
    decide
  rw [bright, bit cell.toBitVec]
  change _ = 8 * if cell.toBitVec.toNat.testBit 6 then 1 else 0
  split <;> rfl

/-- The bit for flashing is the highest one. -/
theorem flashes_eq (cell : UInt8) : flashes cell = cell.toNat.testBit 7 := by
  have bit : ∀ bits : BitVec 8, (UInt8.ofBitVec bits &&& 0x80 != 0) = bits.toNat.testBit 7 := by
    decide
  exact bit cell.toBitVec

/-- The number of the ink. -/
theorem val_ink (cell : UInt8) : (ink cell).val =
    (cell.toNat &&& 0x07) + 8 * if cell.toNat.testBit 6 then 1 else 0 := by
  rw [← bright_eq]
  exact congrArg (· + _) (Nat.and_two_pow_sub_one_eq_mod cell.toNat 3).symm

/-- The number of the paper. -/
theorem val_paper (cell : UInt8) : (paper cell).val =
    (cell.toNat >>> 3 &&& 0x07) + 8 * if cell.toNat.testBit 6 then 1 else 0 := by
  rw [← bright_eq, Nat.shiftRight_eq_div_pow]
  exact congrArg (· + _) (Nat.and_two_pow_sub_one_eq_mod (cell.toNat / 8) 3).symm

end Attribute

/-! ### Blocks of one size -/

/-- Steps that each add a block at the end add the blocks one after the other. -/
theorem toList_foldl_of_adds {step : Array Colour → Nat → Array Colour}
    (block : Nat → List Colour)
    (adds : ∀ pixels index, (step pixels index).toList = pixels.toList ++ block index)
    (indices : List Nat) (pixels : Array Colour) :
    (indices.foldl step pixels).toList = pixels.toList ++ indices.flatMap block := by
  induction indices generalizing pixels with
  | nil => simp
  | cons index rest ih =>
    rw [List.foldl_cons, ih, adds, List.flatMap_cons, List.append_assoc]

/-- Among blocks of one size, a place is found by the number of its block and its place there. -/
theorem getElem?_flatMap_of_length {α β : Type} {block : α → List β} {size : Nat}
    (sized : ∀ entry, (block entry).length = size) (entries : List α) (number : Nat) {place : Nat}
    (inside : place < size) :
    (entries.flatMap block)[number * size + place]? =
      entries[number]?.bind fun entry => (block entry)[place]? := by
  induction entries generalizing number with
  | nil => simp
  | cons entry rest ih =>
    rw [List.flatMap_cons]
    cases number with
    | zero =>
      rw [Nat.zero_mul, Nat.zero_add, List.getElem?_append_left (by rw [sized]; exact inside)]
      rfl
    | succ number =>
      rw [List.getElem?_append_right (by rw [sized, Nat.succ_mul]; omega), sized,
        show (number + 1) * size + place - size = number * size + place by
          rw [Nat.succ_mul]; omega, ih]
      rfl

/-- Blocks of one size have that size together, for each of them. -/
theorem length_flatMap_of_length {α β : Type} {block : α → List β} {size : Nat}
    (sized : ∀ entry, (block entry).length = size) (entries : List α) :
    (entries.flatMap block).length = entries.length * size := by
  induction entries with
  | nil => simp
  | cons entry rest ih =>
    rw [List.flatMap_cons, List.length_append, sized, ih, List.length_cons, Nat.succ_mul,
      Nat.add_comm]

/-- A place in one of the first blocks lies before the end of these blocks. -/
theorem place_lt {number count place size : Nat} (within : number < count) (inside : place < size) :
    number * size + place < count * size := by
  have next := Nat.mul_le_mul_right size within
  rw [Nat.succ_mul] at next
  omega

/-! ### Lines of the screen -/

/-- The eight pixels of a byte of the bitmap. -/
def byteColours (cell : UInt8) (inverted : Bool) (bits : UInt8) : List Colour :=
  (List.range 8).map fun bit => Attribute.colour cell inverted (bits.toNat.testBit (7 - bit))

/-- Adding a byte of the bitmap adds its pixels. -/
theorem toList_addByte (cell : UInt8) (inverted : Bool) (bits : UInt8) (pixels : Array Colour) :
    (addByte cell inverted bits pixels).toList = pixels.toList ++ byteColours cell inverted bits := by
  unfold addByte
  dsimp only
  rw [toList_foldl_of_adds fun bit =>
    [Attribute.colour cell inverted (bits.toNat.testBit (7 - bit))]]
  · rw [byteColours, List.map_eq_flatMap]
  · intro pixels bit
    rw [Array.toList_push]
    cases bits.toNat.testBit (7 - bit) <;> rfl

/-- A byte of the bitmap has eight pixels. -/
theorem length_byteColours (cell : UInt8) (inverted : Bool) (bits : UInt8) :
    (byteColours cell inverted bits).length = 8 := by
  simp [byteColours]

/-- The eight pixels of a column of a line. -/
def columnColours (lines : Array UInt8) (inverted : Bool) (y column : Nat) : List Colour :=
  byteColours (lines.getD (bitmapSize + y / cellHeight * rowBytes + column) 0) inverted
    (lines.getD (y * rowBytes + column) 0)

/-- A line of the screen is its columns, one after the other. -/
theorem toList_screenLine (lines : Array UInt8) (inverted : Bool) (y : Nat) :
    (screenLine lines inverted y).toList =
      (List.range rowBytes).flatMap (columnColours lines inverted y) := by
  rw [screenLine, toList_foldl_of_adds (columnColours lines inverted y)]
  · simp
  · intro pixels column
    exact toList_addByte _ _ _ _

/-- A pixel of a line of the screen. -/
theorem getElem?_screenLine (lines : Array UInt8) (inverted : Bool) (y : Nat) {x : Nat}
    (inside : x < Config.screenWidth) :
    (screenLine lines inverted y)[x]? =
      some (Attribute.colour (lines.getD (bitmapSize + y / cellHeight * rowBytes + x / 8) 0) inverted
        ((lines.getD (y * rowBytes + x / 8) 0).toNat.testBit (7 - x % 8))) := by
  have place : x = x / 8 * 8 + x % 8 := by omega
  have column : x / 8 < rowBytes := by
    simp only [Config.screenWidth, rowBytes] at *
    omega
  have bit : x % 8 < 8 := Nat.mod_lt _ (by decide)
  have sized : ∀ column, (columnColours lines inverted y column).length = 8 :=
    fun _ => length_byteColours _ _ _
  have found := getElem?_flatMap_of_length sized (List.range rowBytes) (x / 8) bit
  rw [← place, List.getElem?_range column, Option.bind_some] at found
  rw [← Array.getElem?_toList, toList_screenLine, found]
  simp [columnColours, byteColours, bit]

/-! ### The border -/

namespace Border

/-- The pixels of a line of the screen with its border. -/
def lineColours (border : Border) (line : Nat → Array Colour) (y : Nat) : List Colour :=
  border.side.toList ++ (line y).toList ++ border.side.toList

/-- The pixels of a framed screen are a band, the lines with their border, and another band. -/
theorem toList_frame (border : Border) (line : Nat → Array Colour) :
    (border.frame line).toList =
      border.band.toList ++ ((List.range rowCount).flatMap (border.lineColours line) ++
        border.band.toList) := by
  rw [frame, Array.toList_append, toList_foldl_of_adds (border.lineColours line),
    List.append_assoc]
  intro pixels y
  simp only [addLine, lineColours, Array.toList_append, List.append_assoc]

/-- A line of the screen with its border has the width of the picture. -/
theorem length_lineColours (border : Border) {line : Nat → Array Colour}
    (full : ∀ y, (line y).size = Config.screenWidth) (y : Nat) :
    (border.lineColours line y).length = border.width := by
  simp only [lineColours, side, List.length_append, Array.length_toList, Array.size_replicate, full,
    width]
  omega

/-- A pixel of a line with its border. -/
theorem getElem?_lineColours {border : Border} {line : Nat → Array Colour}
    (full : ∀ y, (line y).size = Config.screenWidth) (y : Nat) {x : Nat} (inside : x < border.width) :
    (border.lineColours line y)[x]? =
      if border.x ≤ x ∧ x < border.x + Config.screenWidth then (line y)[x - border.x]?
      else some border.colour := by
  simp only [lineColours, side, Array.toList_replicate, width] at *
  by_cases left : x < border.x
  · rw [List.append_assoc, List.getElem?_append_left (by simpa using left), if_neg (by omega)]
    simp [left]
  · by_cases right : x < border.x + Config.screenWidth
    · rw [List.append_assoc, List.getElem?_append_right (by simpa using left), 
        List.getElem?_append_left (by simp [full]; omega), if_pos (by omega)]
      simp
    · rw [List.getElem?_append_right (by simp [full]; omega), if_neg (by omega),
        List.getElem?_replicate, if_pos (by simp [full]; omega)]

/-- A pixel of a framed screen. -/
theorem getElem?_frame (border : Border) {line : Nat → Array Colour}
    (full : ∀ y, (line y).size = Config.screenWidth) {x y : Nat} (column : x < border.width)
    (row : y < border.y + rowCount + border.y) :
    (border.frame line)[y * border.width + x]? =
      if border.x ≤ x ∧ x < border.x + Config.screenWidth ∧
          border.y ≤ y ∧ y < border.y + rowCount then
        (line (y - border.y))[x - border.x]?
      else some border.colour := by
  have band : border.band.toList = List.replicate (border.y * border.width) border.colour := by
    rw [Border.band, Array.toList_replicate]
  have lines := length_flatMap_of_length (border.length_lineColours full) (List.range rowCount)
  rw [List.length_range] at lines
  rw [← Array.getElem?_toList, toList_frame, band]
  by_cases above : y < border.y
  · have inside := place_lt above column
    rw [List.getElem?_append_left (by rw [List.length_replicate]; exact inside),
      List.getElem?_replicate, if_pos inside, if_neg (by omega)]
  · -- The rest of the picture starts below the upper band.
    obtain ⟨number, rfl⟩ := Nat.exists_eq_add_of_le (Nat.le_of_not_lt above)
    rw [Nat.add_mul, Nat.add_assoc, List.getElem?_append_right (by rw [List.length_replicate]; omega),
      List.length_replicate, Nat.add_sub_cancel_left]
    by_cases within : number < rowCount
    · rw [List.getElem?_append_left (by rw [lines]; exact place_lt within column),
        getElem?_flatMap_of_length (border.length_lineColours full) _ _ column,
        List.getElem?_range within, Option.bind_some, getElem?_lineColours full _ column,
        Nat.add_sub_cancel_left]
      congr 1
      rw [eq_iff_iff]
      omega
    · obtain ⟨below, rfl⟩ := Nat.exists_eq_add_of_le (Nat.le_of_not_lt within)
      have inside := place_lt (show below < border.y by omega) column
      rw [Nat.add_mul, Nat.add_assoc, List.getElem?_append_right (by rw [lines]; omega), lines,
        Nat.add_sub_cancel_left, List.getElem?_replicate, if_pos inside, if_neg (by omega)]

end Border

/-! ### The bytes that decide on a pixel -/

/-- The byte of a line's bitmap is stored at the circuit's address. -/
theorem storedOffset_bitmap {x y : Nat} (column : x < Config.screenWidth) (row : y < rowCount) :
    storedOffset (y * rowBytes + x / 8) = bitmapAddress x y := by
  have byte : x / 8 < rowBytes := by
    simp only [Config.screenWidth, rowBytes] at *
    omega
  have rows : ∀ y ∈ List.range rowCount,
      2 ^ 5 * displayRow y = (y &&& 0xC0) <<< 5 ||| (y &&& 0x07) <<< 8 ||| (y &&& 0x38) <<< 2 := by
    decide +kernel
  have inside : y * rowBytes + x / 8 < bitmapSize := by
    rw [bitmapSize, Nat.mul_comm rowBytes]
    exact place_lt row byte
  have quotient : (y * rowBytes + x / 8) / rowBytes = y := by
    simp only [rowBytes] at *
    omega
  have remainder : (y * rowBytes + x / 8) % rowBytes = x / 8 := by
    simp only [rowBytes] at *
    omega
  rw [storedOffset, if_pos inside, quotient, remainder, bitmapAddress,
    ← rows y (List.mem_range.2 row), Nat.shiftRight_eq_div_pow, Nat.mul_comm]
  exact Nat.two_pow_add_eq_or_of_lt (show x / 8 < 2 ^ 5 from byte) (displayRow y)

/-- The attributes of a line are stored where they are. -/
theorem storedOffset_attribute (x y : Nat) :
    storedOffset (bitmapSize + y / cellHeight * rowBytes + x / 8) = attributeAddress x y := by
  unfold storedOffset attributeAddress
  rw [if_neg (by omega)]
  simp only [bitmapSize, rowBytes, rowCount, cellHeight]
  omega

/-- A byte of a deinterlaced screen is the one stored at its place. -/
theorem getD_of_deinterlace {screen lines : Array UInt8} (ok : deinterlace screen = .ok lines)
    {offset : Nat} (inside : offset < Memory.screenSize) :
    lines.getD offset 0 = screen.getD (storedOffset offset) 0 := by
  rw [Array.getD_eq_getD_getElem?, Array.getD_eq_getD_getElem?, getElem?_of_deinterlace ok inside]

/-- The colour that is drawn for a pixel of the screen has the number that the screen's bytes give
to it. -/
theorem val_colour_of_deinterlace {screen lines : Array UInt8} (ok : deinterlace screen = .ok lines)
    (inverted : Bool) {x y : Nat} (column : x < Config.screenWidth) (row : y < rowCount) :
    (Attribute.colour (lines.getD (bitmapSize + y / cellHeight * rowBytes + x / 8) 0) inverted
      ((lines.getD (y * rowBytes + x / 8) 0).toNat.testBit (7 - x % 8))).val =
      colourNumber screen inverted x y := by
  have bitmap : y * rowBytes + x / 8 < Memory.screenSize := by
    simp only [Config.screenWidth, rowBytes, rowCount, Memory.screenSize] at *
    omega
  have attributes : bitmapSize + y / cellHeight * rowBytes + x / 8 < Memory.screenSize := by
    simp only [Config.screenWidth, bitmapSize, rowBytes, rowCount, cellHeight,
      Memory.screenSize] at *
    omega
  rw [getD_of_deinterlace ok bitmap, getD_of_deinterlace ok attributes,
    storedOffset_bitmap column row, storedOffset_attribute]
  unfold colourNumber Attribute.colour
  dsimp only
  rw [Attribute.flashes_eq, ← Attribute.val_ink, ← Attribute.val_paper]
  generalize (screen.getD (bitmapAddress x y) 0).toNat.testBit (7 - x % 8) = set
  generalize (screen.getD (attributeAddress x y) 0).toNat.testBit 7 = flashes
  cases set <;> cases inverted <;> cases flashes <;> rfl

/-! ### Pictures -/

/-- The bytes of a pixel of a picture. -/
theorem bytes_of_pixel? {picture : Picture} {x y : Nat} {colour : Colour}
    (pixel : picture.pixel? x y = some colour) :
    (picture.bytes.extract (4 * (y * picture.width + x)) (4 * (y * picture.width + x) + 4)).toList =
      colour.rgba.bytes := by
  have found : picture.pixels.toList[y * picture.width + x]? = some colour := by
    unfold Picture.pixel? at pixel
    split at pixel
    · rw [Array.getElem?_toList]
      exact pixel
    · cases pixel
  have sized : ∀ colour : Colour, colour.rgba.bytes.length = 4 := fun _ => rfl
  rw [Array.toList_extract, picture.toList_bytes, List.extract_eq_take_drop, Nat.add_sub_cancel_left]
  apply List.ext_getElem?
  intro part
  by_cases inside : part < 4
  · rw [List.getElem?_take_of_lt inside, List.getElem?_drop, Nat.mul_comm 4,
      getElem?_flatMap_of_length sized _ _ inside, found, Option.bind_some]
  · rw [List.getElem?_take_eq_none (by omega), List.getElem?_eq_none (by rw [sized]; omega)]

/-- A screen of its full size is drawn. -/
theorem draw_returns (border : Border) {screen : Array UInt8}
    (full : screen.size = Memory.screenSize) (inverted : Bool) :
    ∃ picture, draw border screen inverted = .ok picture := by
  unfold draw deinterlace
  rw [dif_pos full]
  exact ⟨_, rfl⟩

/-- A screen of any other size is refused. -/
theorem draw_eq_error (border : Border) {screen : Array UInt8}
    (other : screen.size ≠ Memory.screenSize) (inverted : Bool) :
    draw border screen inverted = .error (.malformedScreen Memory.screenSize screen.size) := by
  unfold draw deinterlace
  rw [dif_neg other]

/-- A picture that was drawn has the measures of its border. -/
theorem measures_of_draw {border : Border} {screen : Array UInt8} {inverted : Bool}
    {picture : Picture} (drawn : draw border screen inverted = .ok picture) :
    picture.width = border.width ∧ picture.height = border.height := by
  unfold draw at drawn
  split at drawn
  · cases drawn
  · cases drawn
    exact ⟨rfl, rfl⟩

/-- A pixel of a picture that was drawn. -/
theorem pixel?_of_draw {border : Border} {screen : Array UInt8} {inverted : Bool}
    {picture : Picture} (drawn : draw border screen inverted = .ok picture) {x y : Nat}
    (column : x < border.width) (row : y < border.height) :
    ∃ colour, picture.pixel? x y = some colour ∧ colour.val =
      if border.x ≤ x ∧ x < border.x + 256 ∧ border.y ≤ y ∧ y < border.y + 192 then
        colourNumber screen inverted (x - border.x) (y - border.y)
      else border.colour.val := by
  unfold draw at drawn
  split at drawn
  · cases drawn
  · next lines ok =>
    cases drawn
    have found := Border.getElem?_frame border (size_screenLine lines inverted) column
      (show y < border.y + rowCount + border.y by
        rw [Border.height] at row
        simp only [Config.screenHeight, rowCount] at *
        omega)
    rw [Picture.pixel?, if_pos column]
    change ∃ colour, (border.frame (screenLine lines inverted))[y * border.width + x]? = _ ∧ _
    rw [found]
    change ∃ colour, (if border.x ≤ x ∧ x < border.x + 256 ∧ border.y ≤ y ∧ y < border.y + 192 then
      _ else _) = _ ∧ _
    split
    · next window =>
      have inside : x - border.x < Config.screenWidth := by
        simp only [Config.screenWidth]
        omega
      rw [getElem?_screenLine lines inverted (y - border.y) inside]
      exact ⟨_, rfl, val_colour_of_deinterlace ok inverted inside
        (show y - border.y < 192 by omega)⟩
    · exact ⟨border.colour, rfl, rfl⟩

/-- A screen of its full size is drawn, and it replaces whatever picture was shown. Each pixel has
the bytes of its colour: in the window of the screen the colour that the circuit decodes from the
bytes of the screen, outside of it the colour of the border. A screen of any other size is refused,
and the picture stays as it was. -/
theorem showDrawn_draw {τ σ : Type} (machine : Machine τ σ) (xBorder yBorder : Nat)
    (screen : Array UInt8) (value : UInt8) (inverted : Bool) :
    let drawn := draw ⟨xBorder, yBorder, .ofBorder value⟩ screen inverted
    let shown := (machine.showDrawn drawn).picture
    (screen.size = 6912 →
      drawn = .ok shown ∧ shown.width = 256 + 2 * xBorder ∧ shown.height = 192 + 2 * yBorder ∧
      shown.bytes.size = 4 * (shown.width * shown.height) ∧
      ∀ x < shown.width, ∀ y < shown.height,
        let number :=
          if xBorder ≤ x ∧ x < xBorder + 256 ∧ yBorder ≤ y ∧ y < yBorder + 192 then
            colourNumber screen inverted (x - xBorder) (y - yBorder)
          else value.toNat &&& 0x07
        let place := 4 * (y * shown.width + x)
        palette[number]? = some (shown.bytes.extract place (place + 4)).toList) ∧
    (screen.size ≠ 6912 →
      drawn = .error (.malformedScreen 6912 screen.size) ∧ shown = machine.picture) := by
  intro drawn shown
  constructor
  · intro full
    obtain ⟨picture, ok⟩ := draw_returns ⟨xBorder, yBorder, .ofBorder value⟩ full inverted
    have same : shown = picture := by
      unfold shown drawn
      rw [ok]
      rfl
    obtain ⟨width, height⟩ := measures_of_draw ok
    rw [same]
    refine ⟨ok, width, height, picture.size_bytes, ?_⟩
    intro x column y row number place
    rw [width] at column
    rw [height] at row
    obtain ⟨colour, pixel, val⟩ := pixel?_of_draw ok column row
    rw [val_ofBorder] at val
    rw [bytes_of_pixel? pixel, ← palette_getElem?, val]
  · intro other
    have refused : drawn = .error (.malformedScreen 6912 screen.size) :=
      draw_eq_error _ other inverted
    refine ⟨refused, ?_⟩
    unfold shown
    rw [refused]
    rfl

/-- A screen whose cells are bright, flash, and have blue ink on black; every byte of its bitmap
sets the first, the second and the last pixel. -/
def flashingScreen : Array UInt8 := Array.replicate 6912 0xC1

/-- While the flash phase is inverted, set pixels of a flashing screen are black and clear ones are
blue; the border is red. -/
theorem showDrawn_draw_of_flashingScreen :
    ∃ machine : Machine Float Scripted,
      Machine.build Config.standard (.ofScript #[] false true) = .ok machine ∧
      let shown := (machine.showDrawn (draw ⟨32, 24, .ofBorder 0x0A⟩ flashingScreen true)).picture
      shown.width = 320 ∧ shown.height = 240 ∧
      (shown.bytes.extract (4 * (24 * 320 + 33)) (4 * (24 * 320 + 33) + 4)).toList
        = [0, 0, 0, 255] ∧
      (shown.bytes.extract (4 * (24 * 320 + 34)) (4 * (24 * 320 + 34) + 4)).toList
        = [0, 0, 255, 255] ∧
      (shown.bytes.extract (4 * (24 * 320 + 31)) (4 * (24 * 320 + 31) + 4)).toList
        = [192, 0, 0, 255] := by
  have valid : (Config.standard : Config Float).Valid := by decide +kernel
  obtain ⟨machine, built⟩ := Machine.build_returns valid (Scripted.ofScript #[] false true)
  refine ⟨machine, built, ?_⟩
  intro shown
  obtain ⟨full, -⟩ := showDrawn_draw machine 32 24 flashingScreen 0x0A true
  obtain ⟨-, width, height, -, pixels⟩ := full Array.size_replicate
  have bytes : ∀ place < 6912, flashingScreen.getD place 0 = 0xC1 := by
    intro place inside
    simp [flashingScreen, Array.getD_eq_getD_getElem?, inside]
  have black : colourNumber flashingScreen true 1 0 = 8 := by
    rw [colourNumber, bytes _ (by decide), bytes _ (by decide)]
    rfl
  have blue : colourNumber flashingScreen true 2 0 = 9 := by
    rw [colourNumber, bytes _ (by decide), bytes _ (by decide)]
    rfl
  have first := pixels 33 (by rw [width]; decide) 24 (by rw [height]; decide)
  have second := pixels 34 (by rw [width]; decide) 24 (by rw [height]; decide)
  have beside := pixels 31 (by rw [width]; decide) 24 (by rw [height]; decide)
  rw [width] at first second beside
  rw [if_pos (by decide), black] at first
  rw [if_pos (by decide), blue] at second
  rw [if_neg (by decide)] at beside
  exact ⟨width, height, (Option.some.inj first).symm, (Option.some.inj second).symm,
    (Option.some.inj beside).symm⟩

end Spectrum48.Video
