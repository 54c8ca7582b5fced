import Mathlib.Data.List.Basic
import Spectrum48.Proofs.Memory.Changes

/-!
# Blocks written byte by byte

A block can also be brought to memory as a program would, each byte by a write at its own address:
what would go to firmware is left, and so is what lies beyond the last address. From the start of
the read-write memory on, copying a block comes to the same. A block that begins below it is moved
up as a whole, and its bytes end up at other addresses than their own.
-/

namespace Spectrum48.Memory

/-- The memory after a program wrote bytes in order from an address on, as far as there are
addresses. -/
def writeEach (memory : Memory) : (address : Nat) → (values : List UInt8) → Memory
  | _, [] => memory
  | address, value :: rest =>
    if address < size then (memory.write (.ofNat address) value).writeEach (address + 1) rest
    else memory.writeEach (address + 1) rest

/-- Memories with the same bytes and the same extra cycles are the same. -/
theorem eq_of_read {memory other : Memory}
    (reads : ∀ address, memory.read address = other.read address)
    (penalties : memory.contentionPenalty = other.contentionPenalty) : memory = other := by
  obtain ⟨bytes, penalty⟩ := memory
  obtain ⟨bytes', penalty'⟩ := other
  cases penalties
  have same : bytes = bytes' := by
    apply Vector.ext
    intro index inside
    have found := reads (.ofNat index)
    have number : (UInt16.ofNat index).toNat = index := UInt16.toNat_ofNat_of_lt' inside
    simp only [read, number] at found
    exact found
  rw [same]

/-- Blank memory holds zeros. -/
theorem read_blank (contentionPenalty : Nat) (address : UInt16) :
    (blank contentionPenalty).read address = 0 := by
  simp [read, blank]

/-- Writes leave the extra cycles of contended accesses alone. -/
theorem contentionPenalty_writeEach (memory : Memory) (address : Nat) (values : List UInt8) :
    (memory.writeEach address values).contentionPenalty = memory.contentionPenalty := by
  induction values generalizing memory address with
  | nil => rfl
  | cons value rest ih =>
    rw [writeEach]
    split
    · rw [ih, contentionPenalty_write]
    · exact ih memory (address + 1)

/-- The byte at any address after a write at an address given by its number. -/
theorem read_write_ofNat (memory : Memory) {start : Nat} (inside : start < size) (value : UInt8)
    (address : UInt16) :
    (memory.write (.ofNat start) value).read address =
      if romSize ≤ address.toNat ∧ address.toNat = start then value else memory.read address := by
  have number : (UInt16.ofNat start).toNat = start := UInt16.toNat_ofNat_of_lt' inside
  have same : address = .ofNat start ↔ address.toNat = start := by
    rw [← UInt16.toNat_inj, number]
  rw [read_write_eq, Change.value?]
  by_cases first : romSize ≤ address.toNat ∧ address.toNat = start
  · rw [if_pos first, if_pos ⟨first.1, same.2 first.2⟩, Option.getD_some]
  · rw [if_neg first, if_neg (fun both => first ⟨both.1, same.1 both.2⟩), Option.getD_none]

/-- The byte at any address after writes: the one that was meant for the address, if a program can
write there, or else the one before. -/
theorem read_writeEach (memory : Memory) (start : Nat) (values : List UInt8) (address : UInt16) :
    (memory.writeEach start values).read address =
      if romSize ≤ address.toNat ∧ start ≤ address.toNat then
        values[address.toNat - start]?.getD (memory.read address)
      else memory.read address := by
  have inside := address.toNat_lt
  induction values generalizing memory start with
  | nil => simp [writeEach]
  | cons value rest ih =>
    rw [writeEach]
    by_cases written : start < size
    · have first := read_write_ofNat memory written value address
      rw [if_pos written, ih]
      -- The first byte is meant for one address, and the later ones for those behind it.
      by_cases own : address.toNat = start
      · rw [if_neg (by omega), first, own, Nat.sub_self, List.getElem?_cons_zero, Option.getD_some]
        simp only [and_true, Nat.le_refl]
      · rw [if_neg (fun both => own both.2)] at first
        rw [first]
        by_cases later : romSize ≤ address.toNat ∧ start ≤ address.toNat
        · have next : address.toNat - start = address.toNat - (start + 1) + 1 := by omega
          rw [if_pos ⟨later.1, by omega⟩, if_pos later, next, List.getElem?_cons_succ]
        · rw [if_neg later, if_neg (by omega)]
    · have beyond : address.toNat < start := by
        simp only [size] at written
        omega
      rw [if_neg written, ih, if_neg (by omega), if_neg (by omega)]

/-- A block that is copied lies where writes from the same address on bring it, or from the start of
the read-write memory on if the address is below it. -/
theorem loadRam_eq_writeEach (memory : Memory) (start : UInt16) (block : Array UInt8) :
    memory.loadRam start block = memory.writeEach (max start.toNat romSize) block.toList := by
  apply eq_of_read
  · intro address
    rw [read_loadRam, read_writeEach, Change.value?]
    change (if max start.toNat romSize ≤ address.toNat then _ else none : Option UInt8).getD _ = _
    by_cases behind : max start.toNat romSize ≤ address.toNat
    · rw [if_pos behind, if_pos ⟨by omega, behind⟩, Array.getElem?_toList]
      rfl
    · rw [if_neg behind, if_neg (fun both => behind both.2), Option.getD_none]
  · rw [contentionPenalty_loadRam, contentionPenalty_writeEach]

/-- A block that is copied lies, whole, where writes bring it that begin at its address, or with the
read-write memory if the address is below it. So it lies where writes at the addresses of its own
bytes bring it exactly if it begins in the read-write memory. -/
theorem loadRam_eq_writeEach_iff (start : UInt16) :
    (∀ (memory : Memory) (block : Array UInt8),
      memory.loadRam start block =
        memory.writeEach (max start.toNat romSize) block.toList) ∧
    ((∀ (memory : Memory) (block : Array UInt8),
        memory.loadRam start block = memory.writeEach start.toNat block.toList) ↔
      romSize ≤ start.toNat) := by
  refine ⟨fun memory => loadRam_eq_writeEach memory start, fun agrees => ?_,
    fun inside memory block => ?_⟩
  · -- A block of one byte is moved up to the first byte of the read-write memory.
    refine Nat.le_of_not_lt fun below => ?_
    have moved := congrArg (fun memory => memory.read 0x4000) (agrees (blank 0) #[1])
    have least : max start.toNat romSize = romSize := Nat.max_eq_right (by omega)
    have here : (0x4000 : UInt16).toNat = romSize := rfl
    simp only [loadRam_eq_writeEach, read_writeEach, least, here, Nat.sub_self] at moved
    have none_left : #[(1 : UInt8)].toList[romSize - start.toNat]? = none :=
      List.getElem?_eq_none (by simp only [List.length_singleton]; omega)
    rw [none_left] at moved
    rw [read_blank, if_pos ⟨Nat.le_refl _, Nat.le_refl _⟩, Option.getD_none, ite_self] at moved
    exact absurd moved (by decide)
  · rw [loadRam_eq_writeEach, Nat.max_eq_left inside]

/-- A block of four bytes that begins two bytes below the read-write memory: its first byte is where
its third byte belongs. -/
theorem loadRam_of_straddlingBlock :
    let start : UInt16 := 0x3FFE
    let block : Array UInt8 := #[1, 2, 3, 4]
    ((blank 0).loadRam start block).read 0x4000 = 1 ∧
      ((blank 0).writeEach start.toNat block.toList).read 0x4000 = 3 ∧
      (blank 0).loadRam start block ≠ (blank 0).writeEach start.toNat block.toList := by
  intro start block
  have moved : ((blank 0).loadRam start block).read 0x4000 = 1 := by
    rw [read_loadRam]
    rfl
  have meant : ((blank 0).writeEach start.toNat block.toList).read 0x4000 = 3 := by
    rw [read_writeEach]
    rfl
  refine ⟨moved, meant, fun same => ?_⟩
  rw [same, meant] at moved
  exact absurd moved (by decide)

end Spectrum48.Memory
