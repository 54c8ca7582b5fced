import Spectrum48.Machine.Basic
import Spectrum48.Processor.Scripted

/-!
# What a snapshot restores

A snapshot of any size is read as if it were cut off or filled up with zeros to the full size. The
registers and the border colour that it gives, written down again in the order of the header, are
the header but for the bits that mean nothing. Loading a snapshot puts these and the read-write
memory into the machine and leaves everything else alone, so two snapshots load alike exactly if
they agree on all bits that mean something.
-/

namespace Spectrum48

/-- Whether a processor shows the register file that was put into it. -/
def Processor.KeepsRegisters (σ : Type) [Processor σ] : Prop :=
  ∀ (registers : Registers) (cpu : σ),
    Processor.registers (Processor.setRegisters registers cpu) = registers

/-- The number of a word. -/
theorem toNat_wordOf (high low : UInt8) :
    (wordOf high low).toNat = high.toNat * 256 + low.toNat := by
  have shifted : high.toNat <<< 8 < 2 ^ 16 := by
    have := high.toNat_lt
    rw [Nat.shiftLeft_eq]
    omega
  unfold wordOf
  rw [UInt16.toNat_or, UInt16.toNat_shiftLeft, UInt8.toNat_toUInt16, UInt8.toNat_toUInt16]
  change high.toNat <<< 8 % 2 ^ 16 ||| low.toNat = high.toNat * 2 ^ 8 + low.toNat
  rw [Nat.mod_eq_of_lt shifted, ← Nat.shiftLeft_add_eq_or_of_lt low.toNat_lt, Nat.shiftLeft_eq]

/-- The low byte of a word. -/
theorem toUInt8_wordOf (high low : UInt8) : (wordOf high low).toUInt8 = low := by
  apply UInt8.toNat_inj.1
  have := low.toNat_lt
  rw [UInt16.toNat_toUInt8, toNat_wordOf]
  omega

/-- The high byte of a word. -/
theorem toUInt8_wordOf_shiftRight (high low : UInt8) :
    (wordOf high low >>> 8).toUInt8 = high := by
  apply UInt8.toNat_inj.1
  have := low.toNat_lt
  have := high.toNat_lt
  rw [UInt16.toNat_toUInt8, UInt16.toNat_shiftRight, toNat_wordOf, Nat.shiftRight_eq_div_pow]
  change (high.toNat * 256 + low.toNat) / 2 ^ 8 % 2 ^ 8 = high.toNat
  omega

namespace Snapshot

/-! ### Snapshots of any size -/

/-- Data cut off or filled up with zeros to the size of a snapshot. -/
def padded (data : Array UInt8) : Array UInt8 :=
  data.extract 0 size ++ Array.replicate (size - data.size) 0

/-- Cutting off and filling up changes nothing within the size of a snapshot. -/
theorem byteAt_padded (data : Array UInt8) {offset : Nat} (within : offset < size) :
    byteAt (padded data) offset = byteAt data offset := by
  unfold byteAt padded
  simp only [Array.getD_eq_getD_getElem?, Array.getElem?_append, Array.size_extract,
    Array.getElem?_extract, Array.getElem?_replicate, Nat.sub_zero, Nat.zero_add]
  by_cases present : offset < data.size
  · rw [if_pos (by omega), if_pos (by omega)]
  · rw [if_neg (by omega), Array.getElem?_eq_none (by omega)]
    split <;> rfl

/-- The bits of a byte that mean something: the interrupt flag is one bit, the border colour has
three, and of all other bytes every bit counts. -/
def meaningful (offset : Nat) : UInt8 :=
  if offset = 0x13 then 0x04 else if offset = 0x1A then 0x07 else 0xFF

/-- The bits at an offset that mean something. -/
def meaning (data : Array UInt8) (offset : Nat) : UInt8 := byteAt data offset &&& meaningful offset

/-- Cutting off and filling up changes no meaning. -/
theorem meaning_padded (data : Array UInt8) {offset : Nat} (within : offset < size) :
    meaning (padded data) offset = meaning data offset := by
  rw [meaning, byteAt_padded data within]
  rfl

/-- But for two bytes of the header, all bits mean something. -/
theorem meaning_of_whole (data : Array UInt8) {offset : Nat} (flag : offset ≠ 0x13)
    (colour : offset ≠ 0x1A) : meaning data offset = byteAt data offset := by
  rw [meaning, meaningful, if_neg flag, if_neg colour]
  exact UInt8.and_neg_one

/-! ### The header -/

/-- The byte of the interrupt flag. -/
def flagByte (enabled : Bool) : UInt8 := if enabled then 0x04 else 0x00

/-- The interrupt flag is one bit of its byte. -/
theorem flagByte_eq (value : UInt8) : flagByte (value &&& 0x04 != 0) = value &&& 0x04 := by
  have bit : ∀ bits : BitVec 8,
      flagByte (UInt8.ofBitVec bits &&& 0x04 != 0) = UInt8.ofBitVec bits &&& 0x04 := by
    decide
  exact bit value.toBitVec

/-- The header of a snapshot with the given registers and border colour. -/
def header (registers : Registers) (border : UInt8) : List UInt8 :=
  let ⟨a, f, b, c, d, e, h, l⟩ := registers.main
  let ⟨a', f', b', c', d', e', h', l'⟩ := registers.alternate
  let low (word : UInt16) := word.toUInt8
  let high (word : UInt16) := (word >>> 8).toUInt8
  [registers.i, l', h', e', d', c', b', f', a', l, h, e, d, c, b,
   low registers.iy, high registers.iy, low registers.ix, high registers.ix,
   flagByte registers.iff2, registers.r, f, a,
   low registers.sp, high registers.sp, registers.im, border]

/-- The registers and the border colour that are read are those of the header. -/
theorem header_registersOf (data : Array UInt8) :
    header (registersOf data) (Ula.borderOf (byteAt data 0x1A)) =
      (List.range headerSize).map (meaning data) := by
  simp only [header, registersOf, wordAt, toUInt8_wordOf, toUInt8_wordOf_shiftRight, flagByte_eq]
  simp only [headerSize, List.range, List.range.loop, List.map_cons, List.map_nil, meaning_of_whole,
    ne_eq, Nat.reduceEqDiff, not_false_eq_true]
  rfl

/-- Data that agrees on all bits that mean something is the same snapshot. -/
theorem ofBytes_congr {first second : Array UInt8}
    (agree : ∀ offset < size, meaning first offset = meaning second offset) :
    ofBytes first = ofBytes second := by
  have byte (offset : Nat) (within : offset < size) (flag : offset ≠ 0x13)
      (colour : offset ≠ 0x1A) : byteAt first offset = byteAt second offset := by
    rw [← meaning_of_whole first flag colour, ← meaning_of_whole second flag colour]
    exact agree offset within
  have flag : byteAt first 0x13 &&& 0x04 = byteAt second 0x13 &&& 0x04 := agree 0x13 (by decide)
  have colour : Ula.borderOf (byteAt first 0x1A) = Ula.borderOf (byteAt second 0x1A) :=
    agree 0x1A (by decide)
  have registers : registersOf first = registersOf second := by
    simp (disch := decide) only [registersOf, wordAt, byte, flag]
  unfold ofBytes
  rw [registers, colour]
  congr 2
  funext offset
  have := offset.isLt
  simp only [headerSize]
  exact byte _ (by simp only [size, headerSize]; omega) (by omega) (by omega)

/-- A snapshot is read as if it were cut off or filled up to the full size. -/
theorem ofBytes_padded (data : Array UInt8) : ofBytes (padded data) = ofBytes data :=
  ofBytes_congr fun _ within => meaning_padded data within

/-- The memory of a snapshot follows its header. -/
theorem getElem?_ram (data : Array UInt8) {offset : Nat} (within : offset < ramSize) :
    (ofBytes data).ram[offset]? = some (byteAt data (headerSize + offset)) := by
  unfold ofBytes
  simp only [Array.getElem?_ofFn, dif_pos within]

end Snapshot

/-! ### Memory -/

namespace Memory

/-- The number of an address above the start of the read-write memory. -/
theorem toNat_address {offset : Nat} (within : offset < Snapshot.ramSize) :
    (UInt16.ofNat (0x4000 + offset)).toNat = 0x4000 + offset := by
  simp only [Snapshot.ramSize] at within
  rw [UInt16.toNat_ofNat']
  omega

/-- The memory of a snapshot fills the read-write memory, and the firmware stays. -/
theorem read_loadRam_ofBytes (memory : Memory) (data : Array UInt8) (address : UInt16) :
    (memory.loadRam Snapshot.ramStart (Snapshot.ofBytes data).ram).read address =
      if 0x4000 ≤ address.toNat then
        Snapshot.byteAt data (Snapshot.headerSize + (address.toNat - 0x4000))
      else memory.read address := by
  have region : ramRegion Snapshot.ramStart (Snapshot.ofBytes data).ram.size =
      ⟨0x4000, 0x10000⟩ := by
    rw [Snapshot.size_ram]
    simp [ramRegion, Snapshot.ramStart, Snapshot.ramSize, romSize, size]
  have inside := address.toNat_lt
  rw [loadRam, region, read_blit]
  by_cases writable : 0x4000 ≤ address.toNat
  · have inRam : address.toNat - 0x4000 < Snapshot.ramSize := by
      simp only [Snapshot.ramSize]
      omega
    rw [if_pos ⟨writable, inside⟩, if_pos writable, Snapshot.getElem?_ram data inRam,
      Option.getD_some]
  · rw [if_neg (fun within => writable within.1), if_neg writable]

end Memory

namespace Machine

variable {τ σ : Type} [Processor σ]

/-- What a snapshot holds replaces the registers, the read-write memory and the border colour, and
nothing else. -/
theorem restore_eq (machine : Machine τ σ) (snapshot : Snapshot) :
    machine.restore snapshot =
      { machine with
        cpu := Processor.setRegisters snapshot.registers machine.cpu
        bus := { machine.bus with
          memory := machine.bus.memory.loadRam Snapshot.ramStart snapshot.ram
          ula := { machine.bus.ula with border := Ula.borderOf snapshot.border } } } := rfl

/-- A border colour has only the bits of one. -/
theorem borderOf_border (data : Array UInt8) :
    Ula.borderOf (Snapshot.ofBytes data).border = (Snapshot.ofBytes data).border :=
  (UInt8.and_assoc _ _ _).trans (congrArg _ UInt8.and_self)

/-- Snapshots that leave the same machine behind agree on all bits that mean something. -/
theorem meaning_eq_of_restore_eq (keeps : Processor.KeepsRegisters σ) {machine : Machine τ σ}
    {first second : Array UInt8}
    (same : machine.restore (.ofBytes first) = machine.restore (.ofBytes second)) {offset : Nat}
    (within : offset < Snapshot.size) :
    Snapshot.meaning first offset = Snapshot.meaning second offset := by
  by_cases inHeader : offset < Snapshot.headerSize
  · have registers : Processor.registers (Processor.setRegisters _ machine.cpu) =
        Processor.registers (Processor.setRegisters _ machine.cpu) :=
      congrArg (fun machine => Processor.registers machine.cpu) same
    rw [keeps, keeps] at registers
    have border := congrArg (fun machine => machine.bus.ula.border) same
    simp only [restore_eq, borderOf_border] at border
    have headers := congr (congrArg Snapshot.header registers) border
    simp only [Snapshot.ofBytes, Snapshot.header_registersOf, List.map_inj_left] at headers
    exact headers offset (List.mem_range.2 inHeader)
  · have inRam : offset - Snapshot.headerSize < Snapshot.ramSize := by
      simp only [Snapshot.size] at within
      omega
    have place : Snapshot.headerSize + (offset - Snapshot.headerSize) = offset := by omega
    have read := congrArg
      (fun machine => machine.bus.memory.read (.ofNat (0x4000 + (offset - Snapshot.headerSize))))
      same
    simp only [restore_eq, Memory.read_loadRam_ofBytes, Memory.toNat_address inRam,
      Nat.le_add_right, if_true, Nat.add_sub_cancel_left, place] at read
    rw [Snapshot.meaning, Snapshot.meaning, read]

/-- Loading a snapshot succeeds once the machine has firmware. Written down as a header, the
registers and the border colour are the bits of the header that mean something; the read-write
memory follows the header, and everything else stays as it was. A snapshot of another size is loaded
like one cut off or filled up to the full size, and two snapshots are loaded alike exactly if these
agree on all bits that mean something. -/
theorem loadSnapshot_restores {machine : Machine τ σ}
    (ready : machine.state = .running ∨ machine.state = .paused)
    (keeps : Processor.KeepsRegisters σ) :
    (∀ data : Array UInt8, ∃ registers border memory,
      machine.loadSnapshot data =
        (.ok (),
         { machine with
           cpu := Processor.setRegisters registers machine.cpu
           bus := { machine.bus with
             memory := memory
             ula := { machine.bus.ula with border := border } } }) ∧
      Processor.registers (Processor.setRegisters registers machine.cpu) = registers ∧
      Snapshot.header registers border = (List.range 27).map (Snapshot.meaning data) ∧
      registers.iff1 = registers.iff2 ∧ registers.pc = 0x0072 ∧
      memory.contentionPenalty = machine.bus.memory.contentionPenalty ∧
      (∀ offset < 0xC000,
        memory.read (.ofNat (0x4000 + offset)) = Snapshot.byteAt data (27 + offset)) ∧
      ∀ address : UInt16, address.toNat < 0x4000 →
        memory.read address = machine.bus.memory.read address) ∧
    (∀ data, machine.loadSnapshot data = machine.loadSnapshot (Snapshot.padded data)) ∧
    ∀ first second, machine.loadSnapshot first = machine.loadSnapshot second ↔
      ∀ offset < Snapshot.size,
        Snapshot.meaning (Snapshot.padded first) offset =
          Snapshot.meaning (Snapshot.padded second) offset := by
  have firmware : machine.hasFirmware = true := by
    unfold hasFirmware
    obtain running | paused := ready
    · rw [running]
      rfl
    · rw [paused]
      rfl
  have loads (data : Array UInt8) :
      machine.loadSnapshot data = (.ok (), machine.restore (.ofBytes data)) := if_pos firmware
  refine ⟨fun data => ?_, fun data => ?_, fun first second => ?_⟩
  · refine ⟨Snapshot.registersOf data, Ula.borderOf (Snapshot.byteAt data 0x1A),
      machine.bus.memory.loadRam Snapshot.ramStart (Snapshot.ofBytes data).ram, ?_, keeps _ _,
      Snapshot.header_registersOf data, rfl, rfl, Memory.contentionPenalty_loadRam _ _ _, ?_, ?_⟩
    · rw [loads, restore_eq, borderOf_border]
      rfl
    · intro offset within
      rw [Memory.read_loadRam_ofBytes, Memory.toNat_address within, if_pos (Nat.le_add_right _ _),
        Nat.add_sub_cancel_left]
      rfl
    · intro address below
      rw [Memory.read_loadRam_ofBytes, if_neg (Nat.not_le.2 below)]
  · rw [loads, loads, Snapshot.ofBytes_padded]
  · rw [loads, loads, ← Snapshot.ofBytes_padded first, ← Snapshot.ofBytes_padded second]
    constructor
    · intro same offset within
      exact meaning_eq_of_restore_eq keeps (Prod.mk.inj same).2 within
    · intro agree
      rw [Snapshot.ofBytes_congr agree]

/-- A machine that was paused with nothing in its memory. -/
def pausedMachine : Machine Rat Scripted where
  config := .standard
  bus := .ofConfig .standard
  cpu := .ofScript #[] false true
  clock := .ofConfig .standard
  picture := .plain 0 0 .white
  state := .paused

/-- A snapshot that ends after three bytes of memory, with the given bytes for the interrupt flag
and the border colour. -/
def shortSnapshot (flag colour : UInt8) : Array UInt8 :=
  #[0x3F, 0x01, 0x02, 0x03, 0x04, 0x05, 0x06, 0x07, 0x08, 0x09, 0x0A, 0x0B, 0x0C, 0x0D, 0x0E,
    0x3A, 0x5C, 0x34, 0x12, flag, 0x55, 0x44, 0x99, 0xF0, 0xFF, 0x01, colour, 0xAB, 0xCD, 0xEF]

/-- A snapshot that ends early is loaded with its registers, and with zeros after its last byte. Its
interrupt flag and its border colour can be written in other ways. -/
theorem loadSnapshot_restores_of_shortSnapshot :
    ∃ after registers, pausedMachine.state = .paused ∧
      pausedMachine.loadSnapshot (shortSnapshot 0x04 0x02) = (.ok (), after) ∧
      Processor.registers after.cpu = registers ∧
      Snapshot.header registers after.bus.ula.border =
        [0x3F, 0x01, 0x02, 0x03, 0x04, 0x05, 0x06, 0x07, 0x08, 0x09, 0x0A, 0x0B, 0x0C, 0x0D, 0x0E,
         0x3A, 0x5C, 0x34, 0x12, 0x04, 0x55, 0x44, 0x99, 0xF0, 0xFF, 0x01, 0x02] ∧
      after.bus.memory.read 0x4002 = 0xEF ∧ after.bus.memory.read 0x4003 = 0x00 ∧
      pausedMachine.loadSnapshot (shortSnapshot 0xF7 0xFA) = (.ok (), after) := by
  have keeps : Processor.KeepsRegisters Scripted := fun _ _ => rfl
  have paused : pausedMachine.state = .paused := rfl
  obtain ⟨restores, -, alike⟩ := loadSnapshot_restores (.inr paused) keeps
  obtain ⟨registers, border, memory, loaded, shown, written, -, -, -, ram, -⟩ :=
    restores (shortSnapshot 0x04 0x02)
  have agree (offset : Nat) : Snapshot.meaning (shortSnapshot 0xF7 0xFA) offset =
      Snapshot.meaning (shortSnapshot 0x04 0x02) offset := by
    by_cases present : offset < 30
    · revert offset
      decide
    · have absent (flag colour : UInt8) :
          Snapshot.byteAt (shortSnapshot flag colour) offset = 0 := by
        rw [Snapshot.byteAt, Array.getD_eq_getD_getElem?,
          Array.getElem?_eq_none (Nat.le_of_not_lt present)]
        rfl
      rw [Snapshot.meaning, Snapshot.meaning, absent, absent]
  have same := (alike (shortSnapshot 0xF7 0xFA) (shortSnapshot 0x04 0x02)).2 fun offset within => by
    rw [Snapshot.meaning_padded _ within, Snapshot.meaning_padded _ within]
    exact agree offset
  refine ⟨_, registers, paused, loaded, shown, written.trans (by decide), ?_, ?_, same.trans loaded⟩
  · exact ram 2 (by decide)
  · exact ram 3 (by decide)

end Machine

end Spectrum48
