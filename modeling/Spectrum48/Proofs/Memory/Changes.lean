import Mathlib.Data.List.Basic
import Spectrum48.Proofs.Snapshot.Restoring

/-!
# Changes of memory

Everything that can change memory: a program's writes, firmware and snapshots, and the host's own
writes. Each change sets some bytes, firmware only below the read-write memory and everything else
only in it. After any changes, a byte has the value that was set last, or the one that it had.
-/

namespace Spectrum48.Memory

/-- A change of memory. -/
inductive Change where
  /-- A program writes a byte. -/
  | written (address : UInt16) (value : UInt8)
  /-- Firmware is loaded. -/
  | firmware (image : Array UInt8)
  /-- A snapshot is loaded. -/
  | snapshot (data : Array UInt8)
  /-- The host writes a byte. -/
  | poked (address : UInt16) (value : UInt8)
  /-- The host copies a block. -/
  | filled (start : UInt16) (block : Array UInt8)
  deriving DecidableEq

/-- The memory after a change. -/
def apply (memory : Memory) : Change → Memory
  | .written address value | .poked address value => memory.write address value
  | .firmware image => memory.loadRom image
  | .snapshot data => memory.loadRam Snapshot.ramStart (Snapshot.ofBytes data).ram
  | .filled start block => memory.loadRam start block

namespace Change

/-- The value that a change sets at an address, if it sets one. -/
def value? (address : UInt16) : Change → Option UInt8
  | .written other value | .poked other value =>
    if 0x4000 ≤ address.toNat ∧ address = other then some value else none
  | .firmware image => if address.toNat < 0x4000 then image[address.toNat]? else none
  | .snapshot data =>
    if 0x4000 ≤ address.toNat then some (data.getD (27 + (address.toNat - 0x4000)) 0) else none
  | .filled start block =>
    let first := max start.toNat 0x4000
    if first ≤ address.toNat then block[address.toNat - first]? else none

/-- The image that a change loads as firmware. -/
def image? : Change → Option (Array UInt8)
  | .firmware image => some image
  | _ => none

/-- Whether a change is the host's own. -/
def isDirect : Change → Bool
  | .poked _ _ | .filled _ _ => true
  | _ => false

/-- Only firmware sets bytes below the read-write memory. -/
theorem value?_below {address : UInt16} (below : address.toNat < 0x4000) (change : Change) :
    change.value? address = change.image?.bind fun image => image[address.toNat]? := by
  cases change with
  | firmware image => exact if_pos below
  | written | poked => exact if_neg (by omega)
  | snapshot data => exact if_neg (by omega)
  | filled start block => exact if_neg (by omega)

/-- What a change other than the host's own sets in the read-write memory is set by a program's
write to its own address or by a snapshot. -/
theorem value?_above {address : UInt16} (above : 0x4000 ≤ address.toNat) {change : Change}
    (changes : change.value? address ≠ none) :
    (∃ value, change = .written address value) ∨ (∃ data, change = .snapshot data) ∨
      change.isDirect = true := by
  cases change with
  | firmware image => exact absurd (if_neg (by omega)) changes
  | snapshot data => exact .inr (.inl ⟨data, rfl⟩)
  | poked | filled => exact .inr (.inr rfl)
  | written other value =>
    by_cases own : address = other
    · exact .inl ⟨value, by rw [own]⟩
    · exact absurd (if_neg fun both => own both.2) changes

end Change

/-- A byte after another byte was written. -/
theorem read_write_eq (memory : Memory) (address other : UInt16) (value : UInt8) :
    (memory.write other value).read address =
      ((Change.written other value).value? address).getD (memory.read address) := by
  rw [read_write, Change.value?]
  by_cases own : address = other
  · subst own
    by_cases writable : 0x4000 ≤ address.toNat <;> simp [isWritable, romSize, writable]
  · simp [own]

/-- A byte after a block was copied to the read-write memory. -/
theorem read_loadRam (memory : Memory) (start address : UInt16) (block : Array UInt8) :
    (memory.loadRam start block).read address =
      ((Change.filled start block).value? address).getD (memory.read address) := by
  have inside := address.toNat_lt
  have region : ramRegion start block.size =
      ⟨max start.toNat 0x4000, min (max start.toNat 0x4000 + block.size) 0x10000⟩ := rfl
  rw [loadRam, region, read_blit, Change.value?]
  dsimp only
  generalize max start.toNat 0x4000 = first
  by_cases behind : first ≤ address.toNat
  · rw [if_pos behind]
    by_cases within : address.toNat < first + block.size
    · rw [if_pos ⟨behind, by omega⟩]
    · rw [if_neg (by omega), Array.getElem?_eq_none (by omega), Option.getD_none]
  · rw [if_neg (fun both => behind both.1), if_neg behind, Option.getD_none]

/-- A byte after firmware was loaded. -/
theorem read_loadRom (memory : Memory) (address : UInt16) (image : Array UInt8) :
    (memory.loadRom image).read address =
      ((Change.firmware image).value? address).getD (memory.read address) := by
  have region : romRegion image.size = ⟨0, min image.size 0x4000⟩ := rfl
  rw [loadRom, region, read_blit, Change.value?]
  dsimp only
  by_cases below : address.toNat < 0x4000
  · rw [if_pos below]
    by_cases inside : address.toNat < image.size
    · rw [if_pos ⟨Nat.zero_le _, by omega⟩, Nat.sub_zero]
    · rw [if_neg (by omega), Array.getElem?_eq_none (by omega), Option.getD_none]
  · rw [if_neg (by omega), if_neg below, Option.getD_none]

/-- A byte after a change is the one that the change sets, or the one before. -/
theorem read_apply (memory : Memory) (change : Change) (address : UInt16) :
    (memory.apply change).read address = (change.value? address).getD (memory.read address) := by
  cases change with
  | written other value => exact memory.read_write_eq address other value
  | poked other value => exact memory.read_write_eq address other value
  | filled start block => exact memory.read_loadRam start address block
  | firmware image => exact memory.read_loadRom address image
  | snapshot data =>
    rw [apply, read_loadRam_ofBytes, Change.value?, Snapshot.byteAt, Snapshot.headerSize]
    split
    · rw [Option.getD_some]
    · rw [Option.getD_none]

/-- A byte after changes is the one that was set last, or the one before all of them. -/
theorem read_foldl_apply (memory : Memory) (changes : List Change) (address : UInt16) :
    (changes.foldl apply memory).read address =
      ((changes.filterMap (Change.value? address)).getLast?).getD (memory.read address) := by
  induction changes generalizing memory with
  | nil => rfl
  | cons change rest ih =>
    rw [List.foldl_cons, ih, read_apply, List.filterMap_cons]
    cases set : change.value? address with
    | none => rfl
    | some value =>
      rw [List.getLast?_cons]
      cases (rest.filterMap (Change.value? address)).getLast? <;> rfl

/-- A byte that differs after changes was set by one of them. -/
theorem exists_of_read_ne {memory : Memory} {changes : List Change} {address : UInt16}
    (differs : (changes.foldl apply memory).read address ≠ memory.read address) :
    ∃ change ∈ changes, change.value? address ≠ none := by
  apply Classical.byContradiction
  intro unset
  have nothing : changes.filterMap (Change.value? address) = [] := by
    rw [List.filterMap_eq_nil_iff]
    intro change made
    exact Classical.byContradiction fun sets => unset ⟨change, made, sets⟩
  rw [read_foldl_apply, nothing] at differs
  exact differs rfl

/-- If all firmware among changes has its full size, then below the read-write memory there is the
firmware that was loaded last, or what was there before. -/
theorem read_foldl_apply_below (memory : Memory) {changes : List Change}
    (full : ∀ image ∈ changes.filterMap Change.image?, image.size = 0x4000) {address : UInt16}
    (below : address.toNat < 0x4000) :
    (changes.foldl apply memory).read address =
      match (changes.filterMap Change.image?).getLast? with
      | some image => image.getD address.toNat 0
      | none => memory.read address := by
  have images : changes.filterMap (Change.value? address) =
      (changes.filterMap Change.image?).map fun image => image.getD address.toNat 0 := by
    rw [List.map_filterMap]
    refine List.filterMap_congr fun change made => ?_
    rw [Change.value?_below below]
    cases loads : change.image? with
    | none => rfl
    | some image =>
      have inside : address.toNat < image.size := by
        rw [full image (List.mem_filterMap.2 ⟨change, made, loads⟩)]
        exact below
      simp [inside]
  rw [read_foldl_apply, images, List.getLast?_map]
  cases (changes.filterMap Change.image?).getLast? <;> rfl

/-! ### Moments -/

/-- A memory that is met while changes are made: some of them, from the first on, led to it. -/
def Met (memory : Memory) (changes : List Change) (other : Memory) : Prop :=
  ∃ sofar, sofar <+: changes ∧ other = sofar.foldl apply memory

/-- What is met before changes are made. -/
theorem met_self (memory : Memory) (changes : List Change) : memory.Met changes memory :=
  ⟨[], List.nil_prefix, rfl⟩

/-- What is met while changes are made is met if others follow. -/
theorem Met.append {memory other : Memory} {changes : List Change} (met : memory.Met changes other)
    (later : List Change) : memory.Met (changes ++ later) other := by
  obtain ⟨sofar, first, same⟩ := met
  exact ⟨sofar, first.trans (List.prefix_append _ _), same⟩

/-- What is met while changes are made is met if others precede. -/
theorem Met.after {memory other : Memory} {earlier changes : List Change}
    (met : (earlier.foldl apply memory).Met changes other) :
    memory.Met (earlier ++ changes) other := by
  obtain ⟨sofar, first, same⟩ := met
  refine ⟨earlier ++ sofar, (List.prefix_append_right_inj _).2 first, ?_⟩
  rw [List.foldl_append, same]

/-- What holds between two moments, the first after some changes and the second after later ones:
all bytes are there, below the read-write memory lies the firmware that was loaded last, and in it a
byte differs only if a program wrote to its address, a snapshot was loaded, or the host wrote. -/
structure Intact (memory : Memory) (sofar later : List Change) : Prop where
  /-- No byte is missing, and there are no others. -/
  size : (later.foldl apply (sofar.foldl apply memory)).bytes.toArray.size = 0x10000
  /-- The firmware is the image that was loaded last, or what was there before. -/
  firmware : ∀ address : UInt16, address.toNat < 0x4000 →
    (later.foldl apply (sofar.foldl apply memory)).read address =
      match ((sofar ++ later).filterMap Change.image?).getLast? with
      | some image => image.getD address.toNat 0
      | none => memory.read address
  /-- A byte of the read-write memory that differs was set by one of the later changes. -/
  ram : ∀ address : UInt16, 0x4000 ≤ address.toNat →
    (later.foldl apply (sofar.foldl apply memory)).read address ≠
        (sofar.foldl apply memory).read address →
      ∃ change ∈ later, (∃ value, change = .written address value) ∨
        (∃ data, change = .snapshot data) ∨ change.isDirect = true

/-- Memory is intact between any two moments, as long as all firmware has its full size. -/
theorem intact_of_full (memory : Memory) {changes sofar later : List Change}
    (full : ∀ image ∈ changes.filterMap Change.image?, image.size = 0x4000)
    (moments : sofar ++ later <+: changes) : memory.Intact sofar later where
  size := Vector.size_toArray _
  firmware address below := by
    rw [← List.foldl_append]
    apply memory.read_foldl_apply_below _ below
    intro image loaded
    exact full image ((moments.sublist.filterMap _).subset loaded)
  ram address above differs := by
    obtain ⟨change, made, sets⟩ := exists_of_read_ne differs
    exact ⟨change, made, Change.value?_above above sets⟩

end Spectrum48.Memory
