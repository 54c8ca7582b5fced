import Mathlib.Data.Set.Function
import Mathlib.Order.Interval.Set.Defs
import Spectrum48.Proofs.Video.Painting

/-!
# Rows in display order and back

Every byte of a bitmap has one place on the lines on which the bitmap is displayed, and every byte
of these lines comes from one place of the bitmap. So the rows that the painter places leave nothing
of what was in the buffer before, no row is placed over another one, and putting a screen in display
order twice gives it back.
-/

namespace Spectrum48.Video

/-! ### Places -/

/-- The place of a byte of the bitmap on the lines on which it is displayed. -/
def shownOffset (offset : Nat) : Nat :=
  rowBytes * displayRow (offset / rowBytes) + offset % rowBytes

/-- A byte is shown at the offset from which the byte at its own offset is taken. -/
theorem shownOffset_eq {offset : Nat} (inside : offset < bitmapSize) :
    shownOffset offset = storedOffset offset := by
  rw [(Painter.storedOffset_eq inside).1, shownOffset, Nat.mul_comm]

/-- The bytes of a bitmap are shown in as many places, each byte in one and each place showing
one. -/
theorem bijOn_shownOffset : Set.BijOn shownOffset (Set.Iio bitmapSize) (Set.Iio bitmapSize) := by
  have inside {offset : Nat} (stored : offset < bitmapSize) : storedOffset offset < bitmapSize :=
    (Painter.storedOffset_eq stored).2
  refine ⟨fun offset stored => ?_, fun offset stored other stored' same => ?_,
    fun offset shown => ?_⟩
  · rw [Set.mem_Iio, shownOffset_eq stored]
    exact inside stored
  · rw [shownOffset_eq stored, shownOffset_eq stored'] at same
    rw [← storedOffset_storedOffset offset, same, storedOffset_storedOffset]
  · refine ⟨storedOffset offset, inside shown, ?_⟩
    rw [shownOffset_eq (inside shown), storedOffset_storedOffset]

/-! ### Screens -/

/-- The rows of the bitmap of a screen, in the order in which they are stored. -/
def storedRows (screen : Array UInt8) : List (Array UInt8) :=
  (List.range rowCount).map (Painter.storedRow (screen.extract 0 bitmapSize))

/-- A screen and the same screen with the rows of its bitmap in display order. -/
structure InDisplayOrder (screen lines : Array UInt8) : Prop where
  /-- No byte is missing, and there are no others. -/
  size : lines.size = Memory.screenSize
  /-- The attributes are where they were. -/
  attributes : ∀ offset, bitmapSize ≤ offset → lines[offset]? = screen[offset]?
  /-- Each row is on the line on which it is displayed. -/
  rows : ∀ row < rowCount, ∀ column < rowBytes,
    lines[rowBytes * displayRow row + column]? = screen[rowBytes * row + column]?
  /-- Rows placed in any buffer leave nothing of what it held where the bitmap goes. -/
  placed : ∀ buffer : Array UInt8, buffer.size = Memory.screenSize →
    ∃ filled, Painter.placeRows (storedRows screen) 0 buffer = pure filled ∧
      ∀ offset < bitmapSize, filled[offset]? = lines[offset]?

/-- What deinterlacing a screen gives is the screen in display order. -/
theorem inDisplayOrder_of_deinterlace {screen lines : Array UInt8}
    (ok : deinterlace screen = .ok lines) (full : screen.size = Memory.screenSize) :
    InDisplayOrder screen lines where
  size := size_of_deinterlace ok
  attributes offset behind := by
    by_cases inside : offset < Memory.screenSize
    · rw [getElem?_of_deinterlace ok inside, storedOffset, if_neg (Nat.not_lt.2 behind)]
    · have beyond := Nat.not_lt.1 inside
      rw [Array.getElem?_eq_none (size_of_deinterlace ok ▸ beyond),
        Array.getElem?_eq_none (full ▸ beyond)]
  rows row stored column within := by
    have offset : rowBytes * row + column < bitmapSize := by
      simp only [bitmapSize, rowBytes, rowCount] at *
      omega
    have shown : rowBytes * displayRow row + column = storedOffset (rowBytes * row + column) := by
      rw [← shownOffset_eq offset, shownOffset, Nat.mul_add_div (by decide),
        Nat.div_eq_of_lt within, Nat.add_zero, Nat.mul_add_mod, Nat.mod_eq_of_lt within]
    have inside : rowBytes * displayRow row + column < Memory.screenSize := by
      rw [shown]
      exact storedOffset_lt (offset.trans (by decide))
    rw [getElem?_of_deinterlace ok inside, shown, storedOffset_storedOffset]
  placed buffer sized := by
    have least : bitmapSize ≤ screen.size := full ▸ (by decide : bitmapSize ≤ Memory.screenSize)
    have bitmapSized : (screen.extract 0 bitmapSize).size = bitmapSize := by
      rw [Array.size_extract]
      omega
    obtain ⟨filled, returned, -, bytes⟩ :=
      Painter.placeRows_eq _ bitmapSized (Nat.zero_add rowCount) buffer sized
    rw [← List.range_eq_range'] at returned
    refine ⟨filled, returned, fun offset inside => ?_⟩
    have stored := (Painter.storedOffset_eq inside).2
    rw [bytes, if_pos ⟨inside, Nat.zero_le _⟩, Array.getElem?_extract, if_pos (by omega),
      Nat.zero_add, getElem?_of_deinterlace ok (inside.trans (by decide))]

/-- A screen that is put in display order twice is as it was. -/
theorem deinterlace_of_deinterlace {screen lines : Array UInt8}
    (ok : deinterlace screen = .ok lines) (full : screen.size = Memory.screenSize) :
    deinterlace lines = .ok screen := by
  obtain ⟨again, back⟩ := Painter.deinterlace_returns (size_of_deinterlace ok)
  have same : again = screen := by
    apply Array.ext_getElem?
    intro offset
    by_cases inside : offset < Memory.screenSize
    · rw [getElem?_of_deinterlace back inside,
        getElem?_of_deinterlace ok (storedOffset_lt inside), storedOffset_storedOffset]
    · have beyond := Nat.not_lt.1 inside
      rw [Array.getElem?_eq_none (size_of_deinterlace back ▸ beyond),
        Array.getElem?_eq_none (full ▸ beyond)]
  rw [back, same]

/-- A screen is refused exactly if it does not have its full size, and then both sizes are given. -/
theorem deinterlace_eq_error_iff (screen : Array UInt8) (fault : Fault) :
    deinterlace screen = .error fault ↔
      screen.size ≠ Memory.screenSize ∧ fault = .malformedScreen Memory.screenSize screen.size := by
  by_cases full : screen.size = Memory.screenSize
  · obtain ⟨lines, ok⟩ := Painter.deinterlace_returns full
    rw [ok]
    exact iff_of_false (fun same => by cases same) fun both => both.1 full
  · have refused :
        deinterlace screen = .error (.malformedScreen Memory.screenSize screen.size) := by
      rw [deinterlace, dif_neg full]
    rw [refused, Except.error.injEq, eq_comm]
    exact (and_iff_right full).symm

/-- A screen that does not have its full size is refused, with both sizes. Any other one is put in
display order: the attributes stay, every byte of the bitmap goes to the one place that is its own,
these places are all those of the bitmap, and the same again gives the screen back. The painter, who
places the rows one after the other in a buffer of zeros, does just this. -/
theorem deinterlace_is_lossless (screen : Array UInt8) :
    Painter.deinterlace screen = pure (deinterlace screen) ∧
    (∀ fault, deinterlace screen = .error fault ↔
      screen.size ≠ 6912 ∧ fault = .malformedScreen 6912 screen.size) ∧
    Set.BijOn shownOffset (Set.Iio bitmapSize) (Set.Iio bitmapSize) ∧
    (screen.size = 6912 → ∃ lines, deinterlace screen = .ok lines ∧
      InDisplayOrder screen lines ∧ deinterlace lines = .ok screen) := by
  refine ⟨Painter.deinterlace_eq screen, deinterlace_eq_error_iff screen, bijOn_shownOffset,
    fun full => ?_⟩
  obtain ⟨lines, ok⟩ := Painter.deinterlace_returns full
  exact ⟨lines, ok, inDisplayOrder_of_deinterlace ok full, deinterlace_of_deinterlace ok full⟩

/-- A screen whose bytes count up. -/
def countingScreen : Array UInt8 := Array.ofFn fun offset : Fin 6912 => UInt8.ofNat offset

/-- A screen whose bytes count up is put in display order and back. -/
theorem deinterlace_is_lossless_of_countingScreen :
    countingScreen.size = 6912 ∧ ∃ lines, deinterlace countingScreen = .ok lines ∧
      InDisplayOrder countingScreen lines ∧ deinterlace lines = .ok countingScreen := by
  have full : countingScreen.size = 6912 := Array.size_ofFn
  exact ⟨full, (deinterlace_is_lossless countingScreen).2.2.2 full⟩

end Spectrum48.Video
