import Spectrum48.HexDump
import Spectrum48.Memory
import Spectrum48.Proofs.Checked.Basic
import Spectrum48.Proofs.Snapshot.Restoring

/-!
# Storage in bare buffers

Memory, snapshots and dumps on buffers whose sizes nobody vouches for. Every entry that is taken,
every range and every block that is copied is checked; where a buffer that holds a memory is asked,
all checks are passed, and the memory's own answers are given.
-/

namespace Spectrum48

/-! ### Memory -/

namespace Bare

/-- A buffer that is used as memory. -/
structure Memory where
  /-- The bytes of the address space. -/
  bytes : Array UInt8
  /-- Extra cycles for an access to contended memory. -/
  contentionPenalty : Nat

namespace Memory

/-- A buffer of zeros. -/
def blank (contentionPenalty : Nat) : Memory :=
  ⟨Array.replicate Spectrum48.Memory.size 0, contentionPenalty⟩

/-- The byte at an address. -/
def read (memory : Memory) (address : UInt16) : Checked UInt8 :=
  Checked.entry memory.bytes address.toNat

/-- Write a byte unless it would be to firmware, and whether it was written. -/
def write (memory : Memory) (address : UInt16) (value : UInt8) : Checked (Bool × Memory) :=
  if address.toNat < Spectrum48.Memory.romSize then pure (false, memory)
  else do
    let bytes ← Checked.setEntry memory.bytes address.toNat value
    pure (true, { memory with bytes := bytes })

/-- Extra cycles for an access at an address. -/
def contention (memory : Memory) (address : UInt16) : Nat :=
  if Spectrum48.Memory.contendedStart ≤ address.toNat ∧
      address.toNat < Spectrum48.Memory.contendedStop then
    memory.contentionPenalty
  else 0

/-- Copy the first bytes of a block to a range of addresses. -/
def fill (memory : Memory) (start stop : Nat) (block : Array UInt8) : Checked Memory := do
  let part ← Checked.slice block 0 (stop - start)
  let bytes ← Checked.copy memory.bytes start stop part
  pure { memory with bytes := bytes }

/-- Copy a firmware image of any size. -/
def loadRom (memory : Memory) (image : Array UInt8) : Checked Memory :=
  memory.fill 0 (min image.size Spectrum48.Memory.romSize) image

/-- Copy a block of any size to the read-write memory. -/
def loadRam (memory : Memory) (start : UInt16) (block : Array UInt8) : Checked Memory :=
  let start := max start.toNat Spectrum48.Memory.romSize
  memory.fill start (min (start + block.size) Spectrum48.Memory.size) block

/-- The bytes of the screen. -/
def screen (memory : Memory) : Checked (Array UInt8) :=
  Checked.slice memory.bytes Spectrum48.Memory.screenStart
    (Spectrum48.Memory.screenStart + Spectrum48.Memory.screenSize)

end Memory

end Bare

namespace Memory

/-- The buffer of a memory. -/
def bare (memory : Memory) : Bare.Memory := ⟨memory.bytes.toArray, memory.contentionPenalty⟩

/-- The buffer of a memory has the size of the address space. -/
theorem size_bare (memory : Memory) : memory.bare.bytes.size = size := memory.bytes.size_toArray

/-- An address lies within the address space. -/
theorem toNat_lt_size (address : UInt16) : address.toNat < size := address.toNat_lt

/-- The buffer of a blank memory. -/
theorem bare_blank (contentionPenalty : Nat) :
    (blank contentionPenalty).bare = .blank contentionPenalty := by
  simp [bare, blank, Bare.Memory.blank, size]

/-- Every address can be read. -/
theorem read_bare (memory : Memory) (address : UInt16) :
    memory.bare.read address = pure (memory.read address) := by
  apply Checked.entry_eq
  simp [bare, read, address.toNat_lt]

/-- Every write is carried out or left. -/
theorem write_bare (memory : Memory) (address : UInt16) (value : UInt8) :
    memory.bare.write address value =
      pure (isWritable address, (memory.write address value).bare) := by
  have inside := toNat_lt_size address
  rw [← memory.size_bare] at inside
  unfold Bare.Memory.write
  by_cases firmware : address.toNat < romSize
  · have protected_ : isWritable address = false := by
      simp only [isWritable, decide_eq_false_iff_not]
      omega
    rw [if_pos firmware, protected_, write_of_not_isWritable value protected_]
  · have writable : isWritable address = true := by
      simp only [isWritable, decide_eq_true_iff]
      omega
    rw [if_neg firmware, Checked.setEntry_eq inside, pure_bind, write, if_pos writable, writable]
    simp [bare]

/-- A copied block only changes bytes. -/
theorem bare_blit (memory : Memory) (region : Region) (block : Array UInt8) :
    (memory.blit region block).bare =
      ⟨(memory.blit region block).bare.bytes, memory.bare.contentionPenalty⟩ := by
  rw [bare, bare, blit]

/-- The bytes of a memory after a block was copied. -/
theorem getElem?_bare_blit (memory : Memory) (region : Region) (block : Array UInt8)
    (index : Nat) :
    (memory.blit region block).bare.bytes[index]? =
      if region.start ≤ index ∧ index < region.stop then
        memory.bare.bytes[index]?.map fun byte => block[index - region.start]?.getD byte
      else memory.bare.bytes[index]? := by
  by_cases inside : index < 0x10000
  · have found : memory.bare.bytes[index]? = some memory.bytes[index] := by
      simp only [bare, Vector.getElem?_toArray]
      exact Vector.getElem?_eq_getElem inside
    rw [found]
    simp only [bare, blit, Vector.getElem?_toArray, Vector.getElem?_ofFn]
    rw [dif_pos inside]
    split <;> rfl
  · have outside (other : Memory) : other.bare.bytes[index]? = none := by
      rw [Array.getElem?_eq_none_iff, size_bare]
      exact Nat.le_of_not_lt inside
    rw [outside, outside]
    split <;> rfl

/-- A block that reaches as far as a range of addresses is copied there. -/
theorem fill_bare (memory : Memory) (region : Region) (block : Array UInt8)
    (ordered : region.start ≤ region.stop) (inside : region.stop ≤ size)
    (long : region.stop - region.start ≤ block.size) :
    memory.bare.fill region.start region.stop block = pure (memory.blit region block).bare := by
  have length : region.start + (block.extract 0 (region.stop - region.start)).size =
      region.stop := by
    rw [Array.size_extract]
    omega
  rw [← memory.size_bare] at inside
  have copied := Checked.getElem?_copied length inside
  rw [Bare.Memory.fill, Checked.slice_eq (Nat.zero_le _) long, pure_bind,
    Checked.copy_eq length inside, pure_bind]
  have same : memory.bare.bytes.extract 0 region.start ++
      block.extract 0 (region.stop - region.start) ++
        memory.bare.bytes.extract region.stop memory.bare.bytes.size =
      (memory.blit region block).bare.bytes := by
    apply Array.ext_getElem?
    intro index
    rw [copied, getElem?_bare_blit]
    by_cases within : region.start ≤ index ∧ index < region.stop
    · rw [if_pos within, if_pos within, Array.getElem?_extract, if_pos (by omega), Nat.zero_add]
      have held : index < memory.bare.bytes.size := Nat.lt_of_lt_of_le within.2 inside
      have taken : index - region.start < block.size := by omega
      rw [Array.getElem?_eq_getElem held, Array.getElem?_eq_getElem taken, Option.map_some,
        Option.getD_some]
    · rw [if_neg within, if_neg within]
  rw [same, bare_blit]

/-- Firmware of any size is copied. -/
theorem loadRom_bare (memory : Memory) (image : Array UInt8) :
    memory.bare.loadRom image = pure (memory.loadRom image).bare := by
  apply fill_bare memory (romRegion image.size)
  · exact Nat.zero_le _
  · simp only [romRegion, romSize, size]
    omega
  · simp only [romRegion]
    omega

/-- A block of any size is copied, from any address on. -/
theorem loadRam_bare (memory : Memory) (start : UInt16) (block : Array UInt8) :
    memory.bare.loadRam start block = pure (memory.loadRam start block).bare := by
  have below := toNat_lt_size start
  apply fill_bare memory (ramRegion start block.size)
  · simp only [ramRegion, romSize, size] at *
    omega
  · exact Nat.min_le_right _ _
  · simp only [ramRegion]
    omega

/-- The screen lies within the buffer. -/
theorem screen_bare (memory : Memory) : memory.bare.screen = pure memory.screen := by
  apply Checked.slice_eq (Nat.le_add_right _ _)
  rw [size_bare]
  decide

end Memory

/-! ### Snapshots and dumps -/

namespace Bare

/-- The memory of a snapshot, from data of any size. -/
def snapshotRam (data : Array UInt8) : Checked (Array UInt8) :=
  let blank := Array.replicate Snapshot.ramSize 0
  if Snapshot.headerSize < data.size then do
    let available ← Checked.slice data Snapshot.headerSize
      (min data.size (Snapshot.headerSize + Snapshot.ramSize))
    Checked.copy blank 0 available.size available
  else pure blank

/-- Read a snapshot from data of any size. -/
def readSnapshot (data : Array UInt8) : Checked Snapshot := do
  let ram ← snapshotRam data
  pure ⟨Snapshot.registersOf data, Ula.borderOf (Snapshot.byteAt data 0x1A), ram⟩

/-- The dump of the bytes from `first` to `last`, both included. -/
def dump (bytes : Array UInt8) (first last : UInt16) : Checked String :=
  let start := first.toNat
  let stop := min (last.toNat + 1) bytes.size
  if stop ≤ start then pure ""
  else do
    let shown ← Checked.slice bytes start stop
    let rows ← Checked.chunks HexDump.bytesPerLine true shown
    let lines := rows.mapIdx fun index row =>
      HexDump.line (start + HexDump.bytesPerLine * index) row.toList
    pure (String.ofList lines.flatten)

/-- Data have no bytes but zeros from their size on. -/
theorem byteAt_of_size_le {data : Array UInt8} {offset : Nat} (beyond : data.size ≤ offset) :
    Snapshot.byteAt data offset = 0 := by
  rw [Snapshot.byteAt, Array.getD_eq_getD_getElem?, Array.getElem?_eq_none beyond]
  rfl

/-- The memory of a snapshot, byte by byte. -/
theorem getElem?_ram_ofBytes (data : Array UInt8) (index : Nat) :
    (Snapshot.ofBytes data).ram[index]? =
      if index < Snapshot.ramSize then some (Snapshot.byteAt data (Snapshot.headerSize + index))
      else none := by
  by_cases within : index < Snapshot.ramSize
  · rw [Snapshot.getElem?_ram data within, if_pos within]
  · rw [Array.getElem?_eq_none (by rw [Snapshot.size_ram]; omega), if_neg within]

/-- The bytes of data that belong to memory. -/
def available (data : Array UInt8) : Array UInt8 :=
  data.extract Snapshot.headerSize (min data.size (Snapshot.headerSize + Snapshot.ramSize))

/-- There are as many as there are data behind the header, up to the size of memory. -/
theorem size_available (data : Array UInt8) :
    (available data).size = min (data.size - Snapshot.headerSize) Snapshot.ramSize := by
  rw [available, Array.size_extract]
  omega

/-- They are those behind the header. -/
theorem getElem?_available {data : Array UInt8} {index : Nat}
    (inside : index < (available data).size) :
    (available data)[index]? = some (Snapshot.byteAt data (Snapshot.headerSize + index)) := by
  rw [size_available] at inside
  have given : Snapshot.headerSize + index < data.size := by omega
  rw [available, Array.getElem?_extract, if_pos (by omega), Snapshot.byteAt,
    Array.getD_eq_getD_getElem?, Array.getElem?_eq_getElem given, Option.getD_some]

/-- The memory of a snapshot is taken from data of any size. -/
theorem snapshotRam_eq (data : Array UInt8) :
    snapshotRam data = pure (Snapshot.ofBytes data).ram := by
  -- Up to the size of the data both have its bytes, and from there on zeros.
  have size := size_available data
  unfold snapshotRam
  by_cases more : Snapshot.headerSize < data.size
  · have length := Nat.zero_add (available data).size
    have inside : (available data).size ≤
        (Array.replicate Snapshot.ramSize (0 : UInt8)).size := by
      rw [size, Array.size_replicate]
      exact Nat.min_le_right _ _
    rw [if_pos more, Checked.slice_eq (by omega) (Nat.min_le_left _ _), pure_bind, ← available,
      Checked.copy_eq length inside]
    refine congrArg pure (Array.ext_getElem? fun index => ?_)
    rw [Checked.getElem?_copied length inside, getElem?_ram_ofBytes, Array.getElem?_replicate]
    by_cases given : index < (available data).size
    · rw [if_pos ⟨Nat.zero_le _, given⟩, Nat.sub_zero, getElem?_available given, if_pos (by omega)]
    · rw [if_neg (fun both => given both.2)]
      by_cases within : index < Snapshot.ramSize
      · rw [if_pos within, if_pos within, byteAt_of_size_le (by omega)]
      · rw [if_neg within, if_neg within]
  · rw [if_neg more]
    refine congrArg pure (Array.ext_getElem? fun index => ?_)
    rw [getElem?_ram_ofBytes, Array.getElem?_replicate, byteAt_of_size_le (by omega)]

/-- A snapshot is read from data of any size. -/
theorem readSnapshot_eq (data : Array UInt8) : readSnapshot data = pure (.ofBytes data) := by
  rw [readSnapshot, snapshotRam_eq, pure_bind, Snapshot.ofBytes]

/-- Every range of a buffer of any size is dumped. -/
theorem dump_eq (bytes : Array UInt8) (first last : UInt16) :
    dump bytes first last = pure (HexDump.text bytes first last) := by
  unfold dump HexDump.text HexDump.lines HexDump.stop
  dsimp only
  by_cases nothing : min (last.toNat + 1) bytes.size ≤ first.toNat
  · have empty : min (last.toNat + 1) bytes.size - first.toNat = 0 := by omega
    rw [if_pos nothing, empty]
    rfl
  · have size : (bytes.extract first.toNat (min (last.toNat + 1) bytes.size)).size =
        min (last.toNat + 1) bytes.size - first.toNat := by
      rw [Array.size_extract]
      omega
    rw [if_neg nothing, Checked.slice_eq (by omega) (Nat.min_le_right _ _), pure_bind,
      Checked.chunks_eq (by decide), pure_bind, size]
    congr 3
    apply List.ext_getElem?
    intro index
    simp only [List.getElem?_mapIdx, List.getElem?_map, Option.map_map, if_true]
    cases found : (List.range ((min (last.toNat + 1) bytes.size - first.toNat +
      (HexDump.bytesPerLine - 1)) / HexDump.bytesPerLine))[index]? with
    | none => rfl
    | some number =>
      obtain ⟨_, same⟩ := List.getElem?_eq_some_iff.1 found
      rw [List.getElem_range] at same
      rw [same, Option.map_some, Option.map_some, Function.comp_apply, Array.extract_extract,
        Nat.mul_comm number, Nat.add_assoc]

end Bare

end Spectrum48
