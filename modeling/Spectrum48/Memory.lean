/-!
# The address space

Sixty-four kilobytes: firmware in the lowest sixteen, which a program cannot write, and read-write
memory above. The lower sixteen kilobytes of the read-write memory are shared with the picture
circuit, so every access to them costs extra cycles. The screen lies at their start.
-/

namespace Spectrum48

/-- The memory of a machine. -/
structure Memory where
  /-- The bytes of the address space. -/
  bytes : Vector UInt8 0x10000
  /-- Extra cycles for an access to contended memory. -/
  contentionPenalty : Nat

namespace Memory

/-- Bytes of the address space. -/
def size : Nat := 0x10000

/-- Bytes of the firmware, and the address of the first byte that can be written. -/
def romSize : Nat := 0x4000

/-- The first address of contended memory. -/
def contendedStart : Nat := 0x4000

/-- The first address after contended memory. -/
def contendedStop : Nat := 0x8000

/-- The first address of the screen. -/
def screenStart : Nat := 0x4000

/-- Bytes of the screen: its bitmap and its attributes. -/
def screenSize : Nat := 6912

/-- Memory full of zeros. -/
def blank (contentionPenalty : Nat) : Memory := ⟨Vector.replicate 0x10000 0, contentionPenalty⟩

/-- The byte at an address. -/
def read (memory : Memory) (address : UInt16) : UInt8 :=
  have := address.toNat_lt
  memory.bytes[address.toNat]

/-- Whether a program can write at an address. -/
def isWritable (address : UInt16) : Bool := romSize ≤ address.toNat

/-- The memory after a program wrote a byte; firmware is left as it is. -/
def write (memory : Memory) (address : UInt16) (value : UInt8) : Memory :=
  if isWritable address then
    { memory with bytes := memory.bytes.set address.toNat value address.toNat_lt }
  else memory

/-- Extra cycles for an access at an address. -/
def contention (memory : Memory) (address : UInt16) : Nat :=
  if contendedStart ≤ address.toNat ∧ address.toNat < contendedStop then
    memory.contentionPenalty
  else 0

/-- A half-open range of addresses. -/
structure Region where
  /-- The first address in the range. -/
  start : Nat
  /-- The first address after the range. -/
  stop : Nat
  deriving DecidableEq, Repr

/-- Copy the first bytes of `data` to a region, write protection aside. -/
def blit (memory : Memory) (region : Region) (data : Array UInt8) : Memory :=
  { memory with
    bytes := Vector.ofFn fun address =>
      if region.start ≤ address ∧ address < region.stop then
        data[address - region.start]?.getD memory.bytes[address]
      else memory.bytes[address] }

/-- Where a firmware image of the given size goes: what does not fit is cut off. -/
def romRegion (imageSize : Nat) : Region := ⟨0, min imageSize romSize⟩

/-- Copy a firmware image. -/
def loadRom (memory : Memory) (image : Array UInt8) : Memory :=
  memory.blit (romRegion image.size) image

/-- Where a block of the given size goes that is loaded at an address: never below the read-write
memory, and what lies beyond its end is cut off. -/
def ramRegion (start : UInt16) (blockSize : Nat) : Region :=
  let start := max start.toNat romSize
  ⟨start, min (start + blockSize) size⟩

/-- Copy a block to the read-write memory. -/
def loadRam (memory : Memory) (start : UInt16) (block : Array UInt8) : Memory :=
  memory.blit (ramRegion start block.size) block

/-- The bytes of the screen. -/
def screen (memory : Memory) : Array UInt8 :=
  memory.bytes.toArray.extract screenStart (screenStart + screenSize)

/-- A memory as debugging output shows it: its bytes are left out. -/
def debugText (memory : Memory) : String :=
  "Memory \x7b contention_penalty: " ++ toString memory.contentionPenalty ++ " \x7d"

/-- The screen has its full size. -/
theorem size_screen (memory : Memory) : memory.screen.size = screenSize := by
  simp [screen, screenStart, screenSize]

/-- A write to firmware changes nothing. -/
theorem write_of_not_isWritable {memory : Memory} {address : UInt16} (value : UInt8)
    (protected_ : isWritable address = false) : memory.write address value = memory := by
  simp [write, protected_]

/-- The byte at any address after a write. -/
theorem read_write (memory : Memory) (address other : UInt16) (value : UInt8) :
    (memory.write address value).read other =
      if isWritable address = true ∧ other = address then value else memory.read other := by
  by_cases writable : isWritable address = true
  · simp only [read, write, writable, if_true, Vector.getElem_set, true_and]
    by_cases same : other = address
    · simp [same]
    · rw [if_neg same, if_neg (fun h => same (UInt16.toNat_inj.1 h.symm))]
  · simp [write, writable]

/-- A write leaves the extra cycles of contended accesses alone. -/
theorem contentionPenalty_write (memory : Memory) (address : UInt16) (value : UInt8) :
    (memory.write address value).contentionPenalty = memory.contentionPenalty := by
  unfold write
  split <;> rfl

/-- Copying firmware leaves the extra cycles of contended accesses alone. -/
theorem contentionPenalty_loadRom (memory : Memory) (image : Array UInt8) :
    (memory.loadRom image).contentionPenalty = memory.contentionPenalty := by
  rw [loadRom, blit]

/-- Copying a block leaves the extra cycles of contended accesses alone. -/
theorem contentionPenalty_loadRam (memory : Memory) (start : UInt16) (block : Array UInt8) :
    (memory.loadRam start block).contentionPenalty = memory.contentionPenalty := by
  rw [loadRam, blit]

/-- The byte at any address after a block was copied. -/
theorem read_blit (memory : Memory) (region : Region) (data : Array UInt8) (address : UInt16) :
    (memory.blit region data).read address =
      if region.start ≤ address.toNat ∧ address.toNat < region.stop then
        data[address.toNat - region.start]?.getD (memory.read address)
      else memory.read address := by
  simp [read, blit]

end Memory

end Spectrum48
