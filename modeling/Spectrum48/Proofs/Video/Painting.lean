import Mathlib.Tactic.Ring
import Spectrum48.Proofs.Checked.Basic
import Spectrum48.Proofs.Video.Decoding

/-!
# Painting over a picture

A picture can also be drawn into the buffer of the picture that was shown before: the whole buffer
takes the colour of the border, and a brush goes over the lines of the screen, each time moving on
by the border between two lines. The brush knows of no lines and no edges but its offset in the
buffer. It never paints outside of the buffer, never lacks a row, and leaves behind the picture that
is drawn pixel by pixel, whatever the buffer held. Behind the last line it moves on once more, which
leads out of the buffer if there is a border at the sides but none below.
-/

namespace Spectrum48.Video

/-! ### The painter -/

namespace Painter

/-- The bytes of a colour of the palette. -/
def paletteEntry (number : Nat) : Checked (Array UInt8) :=
  Checked.entry (palette.map List.toArray).toArray number

/-- The number of the colour of set pixels. -/
def inkNumber (cell : UInt8) : Nat := (cell &&& 0x07).toNat ||| Attribute.bright cell

/-- The number of the colour of clear pixels. -/
def paperNumber (cell : UInt8) : Nat := ((cell &&& 0x38) >>> 3).toNat ||| Attribute.bright cell

/-- The bytes of the colours of set and of clear pixels. -/
def cellColours (cell : UInt8) (inverted : Bool) : Checked (Array UInt8 × Array UInt8) := do
  let ink ← paletteEntry (inkNumber cell)
  let paper ← paletteEntry (paperNumber cell)
  pure (if inverted && cell &&& 0x80 != 0 then (paper, ink) else (ink, paper))

/-- Place rows, as they are stored from a number on, on the lines on which they are displayed. -/
def placeRows : (rows : List (Array UInt8)) → (number : Nat) → (lines : Array UInt8) →
    Checked (Array UInt8)
  | [], _, lines => pure lines
  | row :: rest, number, lines => do
    let start := displayRow number * rowBytes
    let lines ← Checked.copy lines start (start + rowBytes) row
    placeRows rest (number + 1) lines

/-- The screen with the rows of its bitmap in display order. -/
def deinterlace (screen : Array UInt8) : Checked (Except Fault (Array UInt8)) :=
  if screen.size ≠ Memory.screenSize then
    pure (.error (.malformedScreen Memory.screenSize screen.size))
  else do
    let bitmap ← Checked.slice screen 0 bitmapSize
    let rows ← Checked.chunks rowBytes false bitmap
    let lines ← placeRows rows 0 (Array.replicate Memory.screenSize 0)
    let attributes ← Checked.slice screen bitmapSize (bitmapSize + 768)
    let lines ← Checked.copy lines bitmapSize lines.size attributes
    pure (.ok lines)

/-- Fill a buffer with a colour. -/
def fill (buffer colour : Array UInt8) : Checked (Array UInt8) :=
  (List.range (buffer.size / 4)).foldlM
    (fun buffer index => Checked.copy buffer (4 * index) (4 * index + 4) colour) buffer

/-- A brush in the buffer of a picture. -/
structure Brush where
  /-- The buffer. -/
  buffer : Array UInt8
  /-- Where the next pixel is painted. -/
  offset : Nat
  /-- How often there was no row left to paint. -/
  missing : Nat

namespace Brush

/-- Paint a pixel. -/
def dot (brush : Brush) (colour : Array UInt8) : Checked Brush := do
  let buffer ← Checked.copy brush.buffer brush.offset (brush.offset + 4) colour
  pure { brush with buffer := buffer, offset := brush.offset + 4 }

/-- Paint the eight pixels of a byte of the bitmap. -/
def byte (inverted : Bool) (brush : Brush) (column : UInt8 × UInt8) : Checked Brush := do
  let (bits, cell) := column
  let (ink, paper) ← cellColours cell inverted
  (List.range 8).foldlM
    (fun brush bit =>
      brush.dot (if bits &&& (0x80 : UInt8) >>> UInt8.ofNat bit != 0 then ink else paper)) brush

/-- Paint a row of the bitmap and move on to the next line. -/
def line (inverted : Bool) (skip : Nat) (brush : Brush) (row cells : Array UInt8) :
    Checked Brush := do
  let brush ← (row.toList.zip cells.toList).foldlM (byte inverted) brush
  pure { brush with offset := brush.offset + skip }

/-- Paint the next rows with the same attributes, and give the rows that are left. It ends early if
there are none. -/
def rows (inverted : Bool) (skip : Nat) (cells : Array UInt8) :
    (count : Nat) → List (Array UInt8) × Brush → Checked (List (Array UInt8) × Brush)
  | 0, state => pure state
  | _ + 1, ([], brush) => pure ([], { brush with missing := brush.missing + 1 })
  | count + 1, (row :: rest, brush) => do
    let brush ← brush.line inverted skip row cells
    rows inverted skip cells count (rest, brush)

end Brush

/-- What the brush skips between two lines of the screen. -/
def skipOf (xBorder : Nat) : Nat := 4 * 2 * xBorder

/-- Draw a screen with a border over what a buffer holds, and give the brush at the end. -/
def paint (xBorder yBorder : Nat) (screen : Array UInt8) (value : UInt8) (inverted : Bool)
    (buffer : Array UInt8) : Checked (Except Fault Brush) := do
  match ← deinterlace screen with
  | .error fault => pure (.error fault)
  | .ok lines =>
    let colour ← paletteEntry (inkNumber (value &&& 0x07))
    let buffer ← fill buffer colour
    let offset := 4 * (yBorder * (Config.screenWidth + 2 * xBorder) + xBorder)
    let bitmap ← Checked.slice lines 0 bitmapSize
    let attributes ← Checked.slice lines bitmapSize lines.size
    let stored ← Checked.chunks rowBytes false bitmap
    let (_, brush) ← (List.range 24).foldlM
      (fun state number => do
        let cells ← Checked.slice attributes (32 * number) (32 * (number + 1))
        Brush.rows inverted (skipOf xBorder) cells cellHeight state)
      (stored, ⟨buffer, offset, 0⟩)
    pure (.ok brush)

/-! ### Colours -/

/-- The bytes of pixels, one after the other. -/
def bytesOf (colours : List Colour) : Array UInt8 :=
  (colours.flatMap fun colour => colour.rgba.bytes).toArray

/-- Pixels in a row have their bytes in a row. -/
theorem bytesOf_append (first second : List Colour) :
    bytesOf (first ++ second) = bytesOf first ++ bytesOf second := by
  simp [bytesOf]

/-- A pixel has four bytes. -/
theorem size_bytesOf (colours : List Colour) : (bytesOf colours).size = 4 * colours.length := by
  have sized : ∀ colour : Colour, colour.rgba.bytes.length = 4 := fun _ => rfl
  rw [bytesOf, List.size_toArray, length_flatMap_of_length sized, Nat.mul_comm]

/-- The bytes of a picture are those of its pixels. -/
theorem bytesOf_pixels (picture : Picture) : bytesOf picture.pixels.toList = picture.bytes :=
  Array.toList_inj.1 picture.toList_bytes.symm

/-- A colour is found in the palette by its number. -/
theorem paletteEntry_val (colour : Colour) : paletteEntry colour.val = pure (bytesOf [colour]) := by
  apply Checked.entry_eq
  rw [List.getElem?_toArray, List.getElem?_map, palette_getElem?]
  simp [bytesOf]

/-- The number of the ink is found from the bits of a cell. -/
theorem inkNumber_eq (cell : UInt8) : inkNumber cell = (Attribute.ink cell).val := by
  have all : ∀ bits : BitVec 8,
      inkNumber (UInt8.ofBitVec bits) = (Attribute.ink (UInt8.ofBitVec bits)).val := by
    decide
  exact all cell.toBitVec

/-- The number of the paper is found from the bits of a cell. -/
theorem paperNumber_eq (cell : UInt8) : paperNumber cell = (Attribute.paper cell).val := by
  have all : ∀ bits : BitVec 8,
      paperNumber (UInt8.ofBitVec bits) = (Attribute.paper (UInt8.ofBitVec bits)).val := by
    decide
  exact all cell.toBitVec

/-- The number of the border's colour has no bit for brightness. -/
theorem borderNumber_eq (value : UInt8) :
    inkNumber (value &&& 0x07) = (Colour.ofBorder value).val := by
  have all : ∀ bits : BitVec 8,
      inkNumber (UInt8.ofBitVec bits &&& 0x07) = (Colour.ofBorder (UInt8.ofBitVec bits)).val := by
    decide
  exact all value.toBitVec

/-- The colours of a cell are those of its set and of its clear pixels. -/
theorem cellColours_eq (cell : UInt8) (inverted : Bool) :
    cellColours cell inverted = pure
      (bytesOf [Attribute.colour cell inverted true],
        bytesOf [Attribute.colour cell inverted false]) := by
  unfold cellColours
  rw [inkNumber_eq, paperNumber_eq, paletteEntry_val, paletteEntry_val, pure_bind, pure_bind]
  change pure (if (inverted && Attribute.flashes cell) = true then _ else _) = _
  unfold Attribute.colour
  cases inverted && Attribute.flashes cell <;> rfl

/-! ### Lines in display order -/

/-- A stored row of a bitmap. -/
def storedRow (bitmap : Array UInt8) (number : Nat) : Array UInt8 :=
  bitmap.extract (number * rowBytes) (number * rowBytes + rowBytes)

/-- A stored row has its full length. -/
theorem size_storedRow {bitmap : Array UInt8} {number : Nat}
    (inside : number * rowBytes + rowBytes ≤ bitmap.size) :
    (storedRow bitmap number).size = rowBytes := by
  rw [storedRow, Array.size_extract]
  omega

/-- A row lies within its bitmap. -/
theorem rowEnd_le {number : Nat} (stored : number < rowCount) :
    number * rowBytes + rowBytes ≤ bitmapSize := by
  simp only [bitmapSize, rowBytes, rowCount] at *
  omega

/-- A byte of a bitmap belongs to one of its rows. -/
theorem row_lt {offset : Nat} (inside : offset < bitmapSize) : offset / rowBytes < rowCount := by
  simp only [bitmapSize, rowBytes, rowCount] at *
  omega

/-- A screen of its full size is its bitmap and the attributes behind it. -/
theorem bitmapSize_add : bitmapSize + 768 = Memory.screenSize := by
  decide

/-- A byte is placed with its row if the row is displayed on its line. -/
theorem displayRow_eq_iff {number offset : Nat} (stored : number < rowCount)
    (inside : offset < bitmapSize) :
    displayRow number * rowBytes ≤ offset ∧ offset < displayRow number * rowBytes + rowBytes ↔
      displayRow (offset / rowBytes) = number := by
  have line := row_lt inside
  constructor
  · intro within
    have same : offset / rowBytes = displayRow number := by
      simp only [rowBytes] at *
      omega
    rw [same, displayRow_displayRow stored]
  · rintro rfl
    rw [displayRow_displayRow line]
    simp only [rowBytes]
    omega

/-- A byte of the bitmap is stored in the row that its line shows. -/
theorem storedOffset_eq {offset : Nat} (inside : offset < bitmapSize) :
    storedOffset offset = displayRow (offset / rowBytes) * rowBytes + offset % rowBytes ∧
      storedOffset offset < bitmapSize := by
  have line := rowEnd_le (displayRow_lt (row_lt inside))
  rw [storedOffset, if_pos inside]
  refine ⟨?_, ?_⟩
  · simp only [rowBytes]
  · simp only [rowBytes] at *
    omega

/-- Rows are placed on lines of the bitmap, and each byte ends up where its line shows it. -/
theorem placeRows_eq (bitmap : Array UInt8) (full : bitmap.size = bitmapSize) {count first : Nat}
    (last : first + count = rowCount) (lines : Array UInt8)
    (sized : lines.size = Memory.screenSize) :
    ∃ placed, placeRows ((List.range' first count).map (storedRow bitmap)) first lines =
        pure placed ∧ placed.size = Memory.screenSize ∧
      ∀ offset, placed[offset]? =
        if offset < bitmapSize ∧ first ≤ displayRow (offset / rowBytes) then
          bitmap[storedOffset offset]?
        else lines[offset]? := by
  induction count generalizing first lines with
  | zero =>
    refine ⟨lines, rfl, sized, ?_⟩
    intro offset
    rw [if_neg]
    rintro ⟨bitmapByte, later⟩
    have := displayRow_lt (row_lt bitmapByte)
    omega
  | succ count ih =>
    have stored : first < rowCount := by omega
    have length : displayRow first * rowBytes + (storedRow bitmap first).size =
        displayRow first * rowBytes + rowBytes := by
      rw [size_storedRow (full ▸ rowEnd_le stored)]
    have inside : displayRow first * rowBytes + rowBytes ≤ lines.size := by
      rw [sized, ← bitmapSize_add]
      exact (rowEnd_le (displayRow_lt stored)).trans (Nat.le_add_right _ _)
    rw [List.range'_succ, List.map_cons, placeRows, Checked.copy_eq length inside, pure_bind]
    have next : first + 1 + count = rowCount := by omega
    obtain ⟨placed, returned, size, bytes⟩ :=
      ih next _ ((Checked.size_copied length inside).trans sized)
    refine ⟨placed, returned, size, ?_⟩
    intro offset
    rw [bytes, Checked.getElem?_copied length inside]
    by_cases bitmapByte : offset < bitmapSize
    · have shown := displayRow_eq_iff stored bitmapByte
      by_cases own : displayRow (offset / rowBytes) = first
      · have within := shown.2 own
        have place : first * rowBytes + (offset - displayRow first * rowBytes) =
            storedOffset offset := by
          rw [(storedOffset_eq bitmapByte).1, own]
          simp only [rowBytes] at *
          omega
        have end_le := rowEnd_le stored
        rw [if_neg (by omega), if_pos within, if_pos ⟨bitmapByte, own.ge⟩, storedRow,
          Array.getElem?_extract, if_pos (by omega), place]
      · rw [if_neg (fun within => own (shown.1 within))]
        by_cases later : first + 1 ≤ displayRow (offset / rowBytes)
        · rw [if_pos ⟨bitmapByte, later⟩, if_pos ⟨bitmapByte, by omega⟩]
        · rw [if_neg (fun both => later both.2), if_neg (by omega)]
    · have below := rowEnd_le (displayRow_lt stored)
      rw [if_neg (fun both => bitmapByte both.1), if_neg (by omega),
        if_neg (fun both => bitmapByte both.1)]

/-- A screen of its full size can be put in display order. -/
theorem deinterlace_returns {screen : Array UInt8} (full : screen.size = Memory.screenSize) :
    ∃ lines, Video.deinterlace screen = .ok lines := by
  unfold Video.deinterlace
  rw [dif_pos full]
  exact ⟨_, rfl⟩

/-- A bitmap is cut into its rows. -/
theorem chunks_bitmap {bitmap : Array UInt8} (full : bitmap.size = bitmapSize) :
    Checked.chunks rowBytes false bitmap =
      pure ((List.range' 0 rowCount).map (storedRow bitmap)) := by
  have count : (bitmap.size + if false = true then rowBytes - 1 else 0) / rowBytes = rowCount := by
    rw [full]
    decide
  rw [Checked.chunks_eq (by decide), count, ← List.range_eq_range']
  exact congrArg pure (List.map_congr_left fun _ _ => rfl)

/-- Placed rows with the attributes of the screen behind them are the screen in display order. -/
theorem append_placed {screen placed lines : Array UInt8}
    (ok : Video.deinterlace screen = .ok lines) (full : screen.size = Memory.screenSize)
    (sized : placed.size = Memory.screenSize)
    (bytes : ∀ offset, placed[offset]? =
      if offset < bitmapSize ∧ 0 ≤ displayRow (offset / rowBytes) then
        (screen.extract 0 bitmapSize)[storedOffset offset]?
      else (Array.replicate Memory.screenSize (0 : UInt8))[offset]?)
    (length : bitmapSize + (screen.extract bitmapSize (bitmapSize + 768)).size = placed.size) :
    placed.extract 0 bitmapSize ++ screen.extract bitmapSize (bitmapSize + 768) ++
      placed.extract placed.size placed.size = lines := by
  have whole : bitmapSize + 768 = screen.size := by
    rw [bitmapSize_add, full]
  apply Array.ext_getElem?
  intro offset
  rw [Checked.getElem?_copied length le_rfl]
  by_cases inside : offset < Memory.screenSize
  · rw [getElem?_of_deinterlace ok inside]
    by_cases bitmapByte : offset < bitmapSize
    · have stored := (storedOffset_eq bitmapByte).2
      rw [if_neg (fun both => absurd both.1 (Nat.not_le.2 bitmapByte)), bytes,
        if_pos ⟨bitmapByte, Nat.zero_le _⟩, Array.getElem?_extract,
        if_pos (by omega), Nat.zero_add]
    · have own : storedOffset offset = offset := if_neg bitmapByte
      have from_bitmap : bitmapSize ≤ offset := Nat.not_lt.1 bitmapByte
      rw [sized, if_pos ⟨from_bitmap, inside⟩, Array.getElem?_extract, if_pos (by omega),
        Nat.add_sub_cancel' from_bitmap, own]
  · have beyond : Memory.screenSize ≤ offset := Nat.not_lt.1 inside
    have lineSized := size_of_deinterlace ok
    rw [sized, if_neg (fun both => inside both.2), Array.getElem?_eq_none (sized ▸ beyond),
      Array.getElem?_eq_none (lineSized ▸ beyond)]

/-- The painter puts the rows of a screen in the order in which they are displayed. -/
theorem deinterlace_eq (screen : Array UInt8) :
    deinterlace screen = pure (Video.deinterlace screen) := by
  by_cases full : screen.size = Memory.screenSize
  · have whole : bitmapSize + 768 = screen.size := by
      rw [bitmapSize_add, full]
    have bitmapSized : (screen.extract 0 bitmapSize).size = bitmapSize := by
      rw [Array.size_extract]
      omega
    obtain ⟨placed, returned, size, bytes⟩ :=
      placeRows_eq _ bitmapSized (Nat.zero_add rowCount) (Array.replicate Memory.screenSize 0)
        Array.size_replicate
    have length : bitmapSize + (screen.extract bitmapSize (bitmapSize + 768)).size =
        placed.size := by
      rw [Array.size_extract, size, ← full]
      omega
    obtain ⟨lines, ok⟩ := deinterlace_returns full
    rw [deinterlace, if_neg (not_not.2 full), Checked.slice_eq (Nat.zero_le _) (by omega),
      pure_bind, chunks_bitmap bitmapSized, pure_bind, returned, pure_bind,
      Checked.slice_eq (by omega) whole.le, pure_bind, Checked.copy_eq length le_rfl, pure_bind,
      append_placed ok full size bytes length, ok]
  · rw [deinterlace, Video.deinterlace, if_pos full, dif_neg full]

/-! ### Painting over what is there -/

/-- A step of the brush paints colours if it puts them in the place of as many pixels as there are,
whatever these were, and moves on behind them. -/
def Paints (step : Brush → Checked Brush) (colours : List Colour) : Prop :=
  ∀ (before old after : List Colour) (missing : Nat), old.length = colours.length →
    step ⟨bytesOf (before ++ old ++ after), 4 * before.length, missing⟩ =
      pure ⟨bytesOf (before ++ colours ++ after), 4 * (before ++ colours).length, missing⟩

/-- A pixel is painted. -/
theorem paints_dot (colour : Colour) : Paints (Brush.dot · (bytesOf [colour])) [colour] := by
  intro before old after missing length
  have sized : (bytesOf [colour]).size = (bytesOf old).size := by
    rw [size_bytesOf, size_bytesOf, length]
  have copied := @Checked.copy_append _ (bytesOf before) _ _ (bytesOf after) sized
  rw [size_bytesOf before, size_bytesOf [colour]] at copied
  simp only [Brush.dot, bytesOf_append]
  rw [show 4 * before.length + 4 = 4 * before.length + 4 * [colour].length from rfl, copied]
  simp only [pure_bind, List.length_append, Nat.mul_add]

/-- One step after the other paints one block behind the other. -/
theorem paints_foldlM {β : Type} {step : Brush → β → Checked Brush} {block : β → List Colour}
    {entries : List β} (paints : ∀ entry ∈ entries, Paints (step · entry) (block entry)) :
    Paints (fun brush => entries.foldlM step brush) (entries.flatMap block) := by
  induction entries with
  | nil =>
    intro before old after missing length
    rw [List.eq_nil_of_length_eq_zero length]
    simp
  | cons entry rest ih =>
    intro before old after missing length
    rw [List.flatMap_cons, List.length_append] at length
    have first : (old.take (block entry).length).length = (block entry).length := by
      rw [List.length_take]
      omega
    have second : (old.drop (block entry).length).length = (rest.flatMap block).length := by
      rw [List.length_drop]
      omega
    have painted := paints entry List.mem_cons_self before _
      (old.drop (block entry).length ++ after) missing first
    have further := ih (fun entry inside => paints entry (List.mem_cons_of_mem _ inside))
      (before ++ block entry) _ after missing second
    dsimp only at painted further
    rw [← List.append_assoc, List.append_assoc before, List.take_append_drop] at painted
    dsimp only
    rw [List.foldlM_cons, painted, pure_bind, ← List.append_assoc, further, List.flatMap_cons,
      List.append_assoc before]

/-- The bits of a byte are those that a mask finds. -/
theorem masked_eq_testBit (bits : UInt8) {bit : Nat} (inside : bit < 8) :
    (bits &&& (0x80 : UInt8) >>> UInt8.ofNat bit != 0) = bits.toNat.testBit (7 - bit) := by
  have all : ∀ byte : BitVec 8, ∀ bit ∈ List.range 8,
      (UInt8.ofBitVec byte &&& (0x80 : UInt8) >>> UInt8.ofNat bit != 0) =
        byte.toNat.testBit (7 - bit) := by
    decide +kernel
  exact all bits.toBitVec bit (List.mem_range.2 inside)

/-- The pixels of a byte of the bitmap are painted. -/
theorem paints_byte (inverted : Bool) (bits cell : UInt8) :
    Paints (Brush.byte inverted · (bits, cell)) (byteColours cell inverted bits) := by
  intro before old after missing length
  simp only [Brush.byte, cellColours_eq, pure_bind]
  rw [byteColours, List.map_eq_flatMap] at *
  refine paints_foldlM (fun bit inside => ?_) before old after missing length
  rw [masked_eq_testBit bits (List.mem_range.1 inside)]
  cases bits.toNat.testBit (7 - bit)
  · exact paints_dot _
  · exact paints_dot _

/-! ### Lines of the screen -/

/-- The attributes of a row of cells, from lines in display order. -/
def cellsOf (lines : Array UInt8) (number : Nat) : Array UInt8 :=
  (lines.extract bitmapSize lines.size).extract (32 * number) (32 * (number + 1))

/-- A row of cells has its full length. -/
theorem size_cellsOf {lines : Array UInt8} {number : Nat}
    (inside : bitmapSize + 32 * (number + 1) ≤ lines.size) :
    (cellsOf lines number).size = rowBytes := by
  have last : 32 * (number + 1) ≤ lines.size - bitmapSize := Nat.le_sub_of_add_le' inside
  rw [cellsOf, Array.size_extract, Array.size_extract, Nat.min_self, Nat.min_eq_left last,
    Nat.mul_succ, Nat.add_sub_cancel_left, rowBytes]

/-- The cells of a line lie behind the bitmap. -/
theorem cells_le {y : Nat} (line : y < rowCount) : 32 * (y / cellHeight + 1) ≤ 768 := by
  simp only [cellHeight, rowCount] at *
  omega

/-- The bytes of a line meet the attributes of its cells. -/
theorem zip_cells {lines : Array UInt8} (full : lines.size = Memory.screenSize) {y : Nat}
    (line : y < rowCount) :
    (storedRow (lines.extract 0 bitmapSize) y).toList.zip (cellsOf lines (y / cellHeight)).toList =
      (List.range rowBytes).map fun column =>
        (lines.getD (y * rowBytes + column) 0,
          lines.getD (bitmapSize + y / cellHeight * rowBytes + column) 0) := by
  have stored := rowEnd_le line
  have cells : bitmapSize + 32 * (y / cellHeight + 1) ≤ lines.size := by
    rw [full, ← bitmapSize_add]
    exact Nat.add_le_add_left (cells_le line) _
  have bitmapInside : bitmapSize ≤ lines.size := (Nat.le_add_right _ _).trans cells
  have rowSized : (storedRow (lines.extract 0 bitmapSize) y).size = rowBytes := by
    apply size_storedRow
    rw [Array.size_extract, Nat.min_eq_left bitmapInside]
    exact stored
  have cellsSized := size_cellsOf cells
  apply List.ext_getElem
  · simp [rowSized, cellsSized]
  · intro column inside _
    have columnInside : column < rowBytes := by
      simpa [rowSized, cellsSized] using inside
    have first : y * rowBytes + column < lines.size :=
      (Nat.add_lt_add_left columnInside _).trans_le (stored.trans bitmapInside)
    have second : bitmapSize + (32 * (y / cellHeight) + column) < lines.size :=
      (Nat.add_lt_add_left (Nat.add_lt_add_left columnInside _) _).trans_le cells
    rw [List.getElem_zip, List.getElem_map, List.getElem_range, Array.getElem_toList,
      Array.getElem_toList]
    simp only [storedRow, cellsOf, Array.getElem_extract, Nat.zero_add]
    rw [Nat.add_assoc bitmapSize, Nat.mul_comm (y / cellHeight), Array.getD_eq_getD_getElem?,
      Array.getD_eq_getD_getElem?, Array.getElem?_eq_getElem first,
      Array.getElem?_eq_getElem (show bitmapSize + (rowBytes * (y / cellHeight) + column) <
        lines.size from second)]
    rfl

/-- The pixels of a line of the screen are painted. -/
theorem paints_line {lines : Array UInt8} (full : lines.size = Memory.screenSize)
    (inverted : Bool) {y : Nat} (line : y < rowCount) :
    Paints
      (fun brush =>
        ((storedRow (lines.extract 0 bitmapSize) y).toList.zip
          (cellsOf lines (y / cellHeight)).toList).foldlM (Brush.byte inverted) brush)
      (screenLine lines inverted y).toList := by
  have bytes := paints_foldlM (fun column : UInt8 × UInt8 => fun _ : column ∈
    (storedRow (lines.extract 0 bitmapSize) y).toList.zip
      (cellsOf lines (y / cellHeight)).toList => paints_byte inverted column.1 column.2)
  rw [toList_screenLine]
  rwa [zip_cells full line, List.flatMap_map] at *

/-! ### The whole picture -/

/-- The pixels of a picture of which the first lines of the screen are drawn. -/
def drawnTo (border : Border) (line : Nat → Array Colour) (y : Nat) : List Colour :=
  border.band.toList ++ (List.range y).flatMap (border.lineColours line) ++
    (List.replicate ((rowCount - y) * border.width) border.colour ++ border.band.toList)

/-- The brush at the start of a line of the screen. -/
def brushAt (border : Border) (lines : Array UInt8) (inverted : Bool) (y : Nat) : Brush where
  buffer := bytesOf (drawnTo border (screenLine lines inverted) y)
  offset := 4 * ((border.y + y) * border.width + border.x)
  missing := 0

/-- Before a line is drawn there is border in its place, and behind it what it will have. -/
theorem drawnTo_eq (border : Border) {line : Nat → Array Colour}
    (full : ∀ y, (line y).size = Config.screenWidth) {y : Nat} (inside : y < rowCount) :
    ∃ before after : List Colour,
      before.length = (border.y + y) * border.width + border.x ∧
      drawnTo border line y =
        before ++ List.replicate Config.screenWidth border.colour ++ after ∧
      drawnTo border line (y + 1) = before ++ (line y).toList ++ after := by
  have left : rowCount - y = rowCount - (y + 1) + 1 := by omega
  refine ⟨border.band.toList ++ (List.range y).flatMap (border.lineColours line) ++
      border.side.toList, border.side.toList ++
      (List.replicate ((rowCount - (y + 1)) * border.width) border.colour ++ border.band.toList),
    ?_, ?_, ?_⟩
  · rw [List.length_append, List.length_append,
      length_flatMap_of_length (border.length_lineColours full), List.length_range,
      Border.band, Border.side, Array.length_toList, Array.length_toList, Array.size_replicate,
      Array.size_replicate, Nat.add_mul]
  · have own : List.replicate border.width border.colour =
        border.side.toList ++ List.replicate Config.screenWidth border.colour ++
          border.side.toList := by
      rw [Border.side, Array.toList_replicate, List.replicate_append_replicate,
        List.replicate_append_replicate, Border.width]
      congr 1
      omega
    rw [drawnTo, left, Nat.succ_mul, Nat.add_comm _ border.width,
      ← List.replicate_append_replicate, own]
    simp only [List.append_assoc]
  · rw [drawnTo, List.range_succ, List.flatMap_append, List.flatMap_singleton, Border.lineColours]
    simp only [List.append_assoc]

/-- A line is painted, and the brush moves to the next one. -/
theorem line_brushAt (border : Border) {lines : Array UInt8}
    (full : lines.size = Memory.screenSize) (inverted : Bool) {y : Nat} (inside : y < rowCount) :
    (brushAt border lines inverted y).line inverted (skipOf border.x)
        (storedRow (lines.extract 0 bitmapSize) y) (cellsOf lines (y / cellHeight)) =
      pure (brushAt border lines inverted (y + 1)) := by
  obtain ⟨before, after, start, current, next⟩ :=
    drawnTo_eq border (size_screenLine lines inverted) inside
  have length : (List.replicate Config.screenWidth border.colour).length =
      (screenLine lines inverted y).toList.length := by
    rw [List.length_replicate, Array.length_toList, size_screenLine]
  have painted := paints_line full inverted inside before _ after 0 length
  dsimp only at painted
  have moved : 4 * (before ++ (screenLine lines inverted y).toList).length + skipOf border.x =
      4 * ((border.y + (y + 1)) * border.width + border.x) := by
    rw [List.length_append, start, Array.length_toList, size_screenLine, skipOf, ← Nat.add_assoc,
      Nat.succ_mul (border.y + y)]
    simp only [Border.width]
    omega
  rw [Brush.line, brushAt, current, ← start, painted, pure_bind, brushAt, next, ← moved]

/-- The lines of a row of cells are painted, one row of the bitmap for each. -/
theorem rows_brushAt (border : Border) {lines : Array UInt8}
    (full : lines.size = Memory.screenSize) (inverted : Bool) (number : Nat) {count first : Nat}
    (left : Nat) (inside : first + count ≤ rowCount)
    (own : ∀ y, first ≤ y → y < first + count → y / cellHeight = number) :
    Brush.rows inverted (skipOf border.x) (cellsOf lines number) count
        ((List.range' first (count + left)).map (storedRow (lines.extract 0 bitmapSize)),
          brushAt border lines inverted first) =
      pure ((List.range' (first + count) left).map (storedRow (lines.extract 0 bitmapSize)),
        brushAt border lines inverted (first + count)) := by
  induction count generalizing first with
  | zero => rw [Nat.zero_add]; rfl
  | succ count ih =>
    have here : first / cellHeight = number := own first le_rfl (by omega)
    have line : first < rowCount := by omega
    have painted := line_brushAt border full inverted line
    rw [here] at painted
    rw [Nat.succ_add, List.range'_succ, List.map_cons, Brush.rows, painted, pure_bind,
      ih (by omega) fun y later inside => own y (by omega) (by omega), Nat.add_right_comm first 1]
    rfl

/-- All rows of cells are painted. -/
theorem foldlM_brushAt (border : Border) {lines : Array UInt8}
    (full : lines.size = Memory.screenSize) (inverted : Bool) {number : Nat}
    (inside : number ≤ 24) :
    (List.range number).foldlM
        (fun state number => do
          let cells ← Checked.slice (lines.extract bitmapSize lines.size) (32 * number)
            (32 * (number + 1))
          Brush.rows inverted (skipOf border.x) cells cellHeight state)
        ((List.range' 0 rowCount).map (storedRow (lines.extract 0 bitmapSize)),
          brushAt border lines inverted 0) =
      pure ((List.range' (cellHeight * number) (rowCount - cellHeight * number)).map
          (storedRow (lines.extract 0 bitmapSize)),
        brushAt border lines inverted (cellHeight * number)) := by
  induction number with
  | zero => rfl
  | succ number ih =>
    have cells : 32 * (number + 1) ≤ (lines.extract bitmapSize lines.size).size := by
      rw [Array.size_extract, Nat.min_self, full, ← bitmapSize_add, Nat.add_sub_cancel_left]
      omega
    have rows : rowCount - cellHeight * number =
        cellHeight + (rowCount - cellHeight * (number + 1)) := by
      simp only [rowCount, cellHeight]
      omega
    have last : cellHeight * number + cellHeight ≤ rowCount := by
      simp only [rowCount, cellHeight]
      omega
    have own : ∀ y, cellHeight * number ≤ y → y < cellHeight * number + cellHeight →
        y / cellHeight = number := by
      intro y first within
      simp only [cellHeight] at *
      omega
    rw [List.range_succ, List.foldlM_append, ih (by omega), pure_bind, List.foldlM_cons,
      Checked.slice_eq (by omega) cells, pure_bind, rows]
    have painted := rows_brushAt border full inverted number
      (rowCount - cellHeight * (number + 1)) last own
    rw [cellsOf] at painted
    rw [painted, pure_bind, List.foldlM_nil, Nat.mul_succ]

/-- The border's colour takes the place of the first pixels of a buffer. -/
theorem foldlM_copy (colour : Colour) {buffer : Array UInt8} {count number : Nat}
    (sized : buffer.size = 4 * count) (inside : number ≤ count) :
    (List.range number).foldlM
        (fun buffer index => Checked.copy buffer (4 * index) (4 * index + 4) (bytesOf [colour]))
        buffer =
      pure (bytesOf (List.replicate number colour) ++
        buffer.extract (4 * number) (4 * count)) := by
  induction number with
  | zero => simp [bytesOf, ← sized]
  | succ number ih =>
    have old : (bytesOf [colour]).size = (buffer.extract (4 * number) (4 * number + 4)).size := by
      rw [size_bytesOf, Array.size_extract, List.length_singleton]
      omega
    have rest : buffer.extract (4 * number) (4 * count) =
        buffer.extract (4 * number) (4 * number + 4) ++
          buffer.extract (4 * (number + 1)) (4 * count) := by
      rw [Nat.mul_succ, Array.extract_append_extract]
      congr 1 <;> omega
    have copied := @Checked.copy_append _ (bytesOf (List.replicate number colour)) _ _
      (buffer.extract (4 * (number + 1)) (4 * count)) old
    rw [size_bytesOf, size_bytesOf, List.length_replicate, List.length_singleton] at copied
    rw [List.range_succ, List.foldlM_append, ih (by omega), pure_bind, List.foldlM_cons, rest,
      ← Array.append_assoc, copied, pure_bind, List.foldlM_nil, List.replicate_succ',
      bytesOf_append]

/-- The border's colour fills a buffer. -/
theorem fill_eq (colour : Colour) {buffer : Array UInt8} {count : Nat}
    (sized : buffer.size = 4 * count) :
    fill buffer (bytesOf [colour]) = pure (bytesOf (List.replicate count colour)) := by
  have whole : 4 * count / 4 = count := by omega
  rw [fill, sized, whole, foldlM_copy colour sized le_rfl,
    Array.extract_empty_of_stop_le_start le_rfl, Array.append_empty]

/-- Whatever a buffer of the picture's size held, painting over it leaves the bytes of the picture
that is drawn. No row is missing, and the brush ends at the left end of the border behind the last
line of the screen. -/
theorem paint_eq (border : Border) (value : UInt8) (colour : border.colour = .ofBorder value)
    (screen : Array UInt8) (inverted : Bool) {buffer : Array UInt8}
    (sized : buffer.size = 4 * (border.width * border.height)) :
    paint border.x border.y screen value inverted buffer =
      pure ((draw border screen inverted).map fun picture =>
        ⟨picture.bytes, 4 * ((border.y + rowCount) * border.width + border.x), 0⟩) := by
  rw [paint, deinterlace_eq, pure_bind, draw]
  cases ordered : Video.deinterlace screen with
  | error fault => rfl
  | ok lines =>
    have full := size_of_deinterlace ordered
    have bitmapInside : bitmapSize ≤ lines.size := by
      rw [full, ← bitmapSize_add]
      exact Nat.le_add_right _ _
    have bitmapSized : (lines.extract 0 bitmapSize).size = bitmapSize := by
      rw [Array.size_extract, Nat.min_eq_left bitmapInside, Nat.sub_zero]
    have blank : List.replicate (border.width * border.height) border.colour =
        drawnTo border (screenLine lines inverted) 0 := by
      rw [drawnTo, Border.band, Array.toList_replicate, List.range_zero, List.flatMap_nil,
        List.append_nil, List.replicate_append_replicate, List.replicate_append_replicate,
        Nat.sub_zero, Border.height, show Config.screenHeight = rowCount from rfl]
      congr 1
      ring
    dsimp only
    rw [borderNumber_eq, ← colour, paletteEntry_val, pure_bind, fill_eq border.colour sized,
      pure_bind, Checked.slice_eq (Nat.zero_le _) bitmapInside, pure_bind,
      Checked.slice_eq bitmapInside le_rfl, pure_bind, chunks_bitmap bitmapSized, pure_bind, blank]
    have start : (⟨bytesOf (drawnTo border (screenLine lines inverted) 0),
        4 * (border.y * (Config.screenWidth + 2 * border.x) + border.x), 0⟩ : Brush) =
          brushAt border lines inverted 0 := rfl
    have finished : bytesOf (drawnTo border (screenLine lines inverted) rowCount) =
        Picture.bytes ⟨border.width, border.height, border.frame (screenLine lines inverted),
          border.size_frame (size_screenLine lines inverted)⟩ := by
      rw [← bytesOf_pixels, Border.toList_frame, drawnTo, Nat.sub_self, Nat.zero_mul,
        List.replicate_zero, List.nil_append, List.append_assoc]
    rw [start, foldlM_brushAt border full inverted (le_refl 24), pure_bind,
      show cellHeight * 24 = rowCount from rfl, brushAt, finished]
    rfl

/-- The pixels of a picture are those of the lines of the screen and of both bands. -/
theorem width_mul_height (border : Border) :
    border.width * border.height =
      border.y * border.width + rowCount * border.width + border.y * border.width := by
  rw [Border.height, show Config.screenHeight = rowCount from rfl]
  ring

/-- With no band below the screen, the place to which the brush moves on from the last line lies
behind the picture, farther by the border at one side. -/
theorem offset_of_no_band (border : Border) (flat : border.y = 0) :
    4 * ((border.y + rowCount) * border.width + border.x) =
      4 * (border.width * border.height) + 4 * border.x := by
  rw [width_mul_height, flat]
  ring

/-- The place to which the brush moves on from the last line of the screen does not lie beyond the
end of the picture exactly if there is a band below, or no border at the sides. -/
theorem offset_le_iff (border : Border) :
    4 * ((border.y + rowCount) * border.width + border.x) ≤
        4 * (border.width * border.height) ↔
      0 < border.y ∨ border.x = 0 := by
  obtain flat | band := Nat.eq_zero_or_pos border.y
  · rw [offset_of_no_band border flat, flat]
    omega
  · refine iff_of_true ?_ (.inl band)
    have wide : border.width = 256 + 2 * border.x := rfl
    have line := Nat.mul_le_mul_right border.width band
    rw [width_mul_height, Nat.add_mul]
    omega

/-- A screen of the wrong size is not painted. -/
theorem paint_eq_error (border : Border) (value : UInt8) (colour : border.colour = .ofBorder value)
    {screen : Array UInt8} (other : screen.size ≠ Memory.screenSize) (inverted : Bool)
    {buffer : Array UInt8} (sized : buffer.size = 4 * (border.width * border.height)) :
    paint border.x border.y screen value inverted buffer =
      pure (.error (.malformedScreen Memory.screenSize screen.size)) := by
  rw [paint_eq border value colour screen inverted sized, draw_eq_error border other inverted]
  rfl

/-- A screen of the right size is painted over a picture without lack of a row, and the buffer keeps
its size. After the last pixel the brush has moved on to the line below, whether or not the picture
has one. -/
theorem brush_of_paint (border : Border) (value : UInt8) (colour : border.colour = .ofBorder value)
    {screen : Array UInt8} (full : screen.size = Memory.screenSize) (inverted : Bool)
    {buffer : Array UInt8} (sized : buffer.size = 4 * (border.width * border.height)) :
    ∃ brush, paint border.x border.y screen value inverted buffer = pure (.ok brush) ∧
      brush.missing = 0 ∧ brush.buffer.size = buffer.size ∧
      brush.offset = 4 * ((border.y + rowCount) * border.width + border.x) := by
  obtain ⟨picture, drawn⟩ := draw_returns border full inverted
  obtain ⟨width, height⟩ := measures_of_draw drawn
  refine ⟨⟨picture.bytes, 4 * ((border.y + rowCount) * border.width + border.x), 0⟩, ?_, rfl, ?_,
    rfl⟩
  · rw [paint_eq border value colour screen inverted sized, drawn]
    rfl
  · rw [picture.size_bytes, width, height, sized]

end Painter

end Spectrum48.Video
