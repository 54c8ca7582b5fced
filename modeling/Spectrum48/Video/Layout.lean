import Spectrum48.Fault
import Spectrum48.Memory

/-!
# The layout of screen memory

The bitmap has 192 rows of 32 bytes, followed by the 768 attributes. The rows are not stored in the
order in which they are displayed: within each third of the screen, the three bits of the number
that count pixel lines and the three that count character rows have changed places. Exchanging
them twice restores the number, so the same exchange leads from a stored row to the line on which
it is displayed and back.
-/

namespace Spectrum48.Video

/-- Bytes of a row of the bitmap. -/
def rowBytes : Nat := 32

/-- Rows of the bitmap. -/
def rowCount : Nat := 192

/-- Bytes of the bitmap. -/
def bitmapSize : Nat := rowBytes * rowCount

/-- Lines that share a row of attributes. -/
def cellHeight : Nat := 8

/-- The line on which a stored row is displayed. -/
def displayRow (row : Nat) : Nat := (row &&& 0x38) >>> 3 ||| (row &&& 0x07) <<< 3 ||| row &&& 0xC0

/-- Rows are displayed on lines of the bitmap. -/
theorem displayRow_lt {row : Nat} (inside : row < rowCount) : displayRow row < rowCount := by
  have all : ∀ row ∈ List.range rowCount, displayRow row < rowCount := by
    decide +kernel
  exact all row (List.mem_range.2 inside)

/-- The row that is displayed on a line is found by the same exchange. -/
theorem displayRow_displayRow {row : Nat} (inside : row < rowCount) :
    displayRow (displayRow row) = row := by
  have all : ∀ row ∈ List.range rowCount, displayRow (displayRow row) = row := by
    decide +kernel
  exact all row (List.mem_range.2 inside)

/-- Where the byte at an offset of the deinterlaced screen is stored: bytes of the bitmap in the row
that is displayed on their line, attributes at their own place. -/
def storedOffset (offset : Nat) : Nat :=
  if offset < bitmapSize then
    displayRow (offset / rowBytes) * rowBytes + offset % rowBytes
  else offset

/-- Bytes of the screen are stored in the screen. -/
theorem storedOffset_lt {offset : Nat} (inside : offset < Memory.screenSize) :
    storedOffset offset < Memory.screenSize := by
  unfold storedOffset
  split
  · next bitmap =>
    have row : offset / rowBytes < rowCount := by
      simp only [bitmapSize, rowBytes, rowCount] at *
      omega
    have line := displayRow_lt row
    simp only [rowBytes, rowCount, Memory.screenSize] at *
    omega
  · exact inside

/-- The exchange of rows is its own inverse on offsets. -/
theorem storedOffset_storedOffset (offset : Nat) :
    storedOffset (storedOffset offset) = offset := by
  by_cases bitmap : offset < bitmapSize
  · have row : offset / rowBytes < rowCount := by
      simp only [bitmapSize, rowBytes, rowCount] at *
      omega
    have line := displayRow_lt row
    have back := displayRow_displayRow row
    have column : offset % rowBytes < rowBytes := Nat.mod_lt _ (by decide)
    have stored : storedOffset offset =
        displayRow (offset / rowBytes) * rowBytes + offset % rowBytes := by
      simp [storedOffset, bitmap]
    have quotient : storedOffset offset / rowBytes = displayRow (offset / rowBytes) := by
      rw [stored]
      simp only [rowBytes] at *
      omega
    have remainder : storedOffset offset % rowBytes = offset % rowBytes := by
      rw [stored]
      simp only [rowBytes] at *
      omega
    have below : storedOffset offset < bitmapSize := by
      rw [stored]
      simp only [bitmapSize, rowBytes, rowCount] at *
      omega
    rw [storedOffset, if_pos below, quotient, remainder, back]
    simp only [rowBytes]
    omega
  · simp [storedOffset, bitmap]

/-- A screen with the rows of its bitmap in display order. -/
def deinterlace (screen : Array UInt8) : Except Fault (Array UInt8) :=
  if complete : screen.size = Memory.screenSize then
    .ok (Array.ofFn fun offset : Fin Memory.screenSize =>
      have := storedOffset_lt offset.isLt
      screen[storedOffset offset])
  else
    .error (.malformedScreen Memory.screenSize screen.size)

/-- A byte of a deinterlaced screen is the one stored at its place. -/
theorem getElem?_of_deinterlace {screen lines : Array UInt8} (ok : deinterlace screen = .ok lines)
    {offset : Nat} (inside : offset < Memory.screenSize) :
    lines[offset]? = screen[storedOffset offset]? := by
  unfold deinterlace at ok
  split at ok
  · next complete =>
    have stored : storedOffset offset < screen.size := complete ▸ storedOffset_lt inside
    rw [← Except.ok.inj ok, Array.getElem?_ofFn, dif_pos inside, Array.getElem?_eq_getElem stored]
  · cases ok

/-- A deinterlaced screen has the size of a screen. -/
theorem size_of_deinterlace {screen lines : Array UInt8} (ok : deinterlace screen = .ok lines) :
    lines.size = Memory.screenSize := by
  unfold deinterlace at ok
  split at ok
  · rw [← Except.ok.inj ok, Array.size_ofFn]
  · cases ok

end Spectrum48.Video
