import Spectrum48.Proofs.Bare.Storage
import Spectrum48.Proofs.Machine.Instants

/-!
# The bus on bare buffers

Keyboard, circuit and bus with the half-rows and the memory in buffers. The time at which a port is
written to is reckoned with a checked division. A program of accesses that runs on the buffers of a
bus is answered as it is by the bus.
-/

namespace Spectrum48

/-! ### The keyboard -/

namespace Bare

/-- A keyboard with its half-rows in a buffer. -/
structure Keyboard where
  /-- Half-row registers; a pressed key has its bit clear. -/
  rows : Array UInt8
  /-- Host codes and the keys that they stand for. -/
  mapping : List (UInt32 × Key)

namespace Keyboard

/-- A keyboard with no key pressed. -/
def ofMapping (mapping : List (UInt32 × Key)) : Keyboard := ⟨Array.replicate 8 0xFF, mapping⟩

/-- Press or release one key. -/
def setKey (keyboard : Keyboard) (key : Key) (down : Bool) : Checked Keyboard := do
  let register ← Checked.entry keyboard.rows (key.index / 5)
  let register := if down then register &&& ~~~key.mask else register ||| key.mask
  let rows ← Checked.setEntry keyboard.rows (key.index / 5) register
  pure { keyboard with rows := rows }

/-- Press or release the key of a host code, and whether the code is known. -/
def setCode (keyboard : Keyboard) (code : UInt32) (down : Bool) : Checked (Bool × Keyboard) :=
  match keyboard.mapping.reverse.lookup code with
  | some key => do
    let keyboard ← keyboard.setKey key down
    pure (true, keyboard)
  | none => pure (false, keyboard)

/-- Release all keys. -/
def releaseAll (keyboard : Keyboard) : Keyboard :=
  { keyboard with rows := Array.replicate 8 0xFF }

/-- The byte that a port reads: the conjunction of the half-rows that it selects. -/
def query (keyboard : Keyboard) (port : UInt16) : UInt8 :=
  ((List.finRange 8).zip keyboard.rows.toList).foldl
    (fun answer (row, register) =>
      if HalfRow.answers row port then answer &&& register else answer)
    0xFF

end Keyboard

/-- The port of a key, from a table. -/
def keyPort (key : Key) : Checked UInt16 :=
  Checked.entry #[0xFEFE, 0xFDFE, 0xFBFE, 0xF7FE, 0xEFFE, 0xDFFE, 0xBFFE, 0x7FFE] (key.index / 5)

/-- Every key has a port in the table. -/
theorem keyPort_eq (key : Key) : keyPort key = pure key.port := by
  apply Checked.entry_eq
  cases key <;> rfl

end Bare

namespace Keyboard

/-- The buffer of a keyboard. -/
def bare (keyboard : Keyboard) : Bare.Keyboard := ⟨keyboard.rows.toArray, keyboard.mapping⟩

/-- Every key has a half-row in the buffer. -/
theorem setKey_bare (keyboard : Keyboard) (key : Key) (down : Bool) :
    keyboard.bare.setKey key down = pure (keyboard.setKey key down).bare := by
  have found : keyboard.bare.rows[key.index / 5]? = some keyboard.rows[key.row] :=
    Array.getElem?_eq_getElem (keyboard.rows.size_toArray ▸ key.row.isLt)
  have inside : key.index / 5 < keyboard.bare.rows.size :=
    keyboard.rows.size_toArray ▸ key.row.isLt
  rw [Bare.Keyboard.setKey, Checked.entry_eq found, pure_bind]
  dsimp only
  rw [Checked.setEntry_eq inside, pure_bind]
  rfl

/-- Every host code is known or left. -/
theorem setCode_bare (keyboard : Keyboard) (code : UInt32) (down : Bool) :
    keyboard.bare.setCode code down =
      pure ((keyboard.setCode code down).1, (keyboard.setCode code down).2.bare) := by
  unfold Bare.Keyboard.setCode
  change (match keyboard.keyOf? code with | some key => _ | none => _) = _
  cases known : keyboard.keyOf? code with
  | some key =>
    rw [setCode_of_keyOf?_eq_some down known]
    dsimp only
    rw [setKey_bare, pure_bind]
  | none => rw [setCode_of_keyOf?_eq_none down known]

/-- All keys are released. -/
theorem releaseAll_bare (keyboard : Keyboard) :
    keyboard.bare.releaseAll = keyboard.releaseAll.bare := by
  simp [bare, releaseAll, released, Bare.Keyboard.releaseAll]

/-- Every port reads the half-rows in the buffer. -/
theorem query_bare (keyboard : Keyboard) (port : UInt16) :
    keyboard.bare.query port = keyboard.query port := by
  have rows : (List.finRange 8).zip keyboard.bare.rows.toList =
      (List.finRange 8).map fun row => (row, keyboard.rows[row]) := by
    apply List.ext_getElem
    · simp [bare]
    · intro index first second
      simp [bare]
  rw [Bare.Keyboard.query, rows, List.foldl_map, query]

end Keyboard

/-! ### The circuit -/

namespace Bare

/-- A circuit with its keyboard in a buffer. -/
structure Ula (τ : Type) where
  /-- The keyboard. -/
  keyboard : Keyboard
  /-- The border colour. -/
  border : UInt8
  /-- Whether the speaker bit is set. -/
  speaker : Bool
  /-- The beeper that the speaker bit drives. -/
  beeper : Beeper τ

namespace Ula

variable {τ : Type} [Scalar τ]

/-- A circuit with no key pressed and the speaker off. -/
def ofBeeper (beeper : Beeper τ) (border : UInt8) : Ula τ where
  keyboard := .ofMapping Spectrum48.Keyboard.standardMapping
  border := Spectrum48.Ula.borderOf border
  speaker := false
  beeper := beeper

/-- The byte that a port reads. -/
def read (ula : Ula τ) (port : UInt16) : UInt8 :=
  if Spectrum48.Ula.answersOn port then ula.keyboard.query port else 0

/-- Set the border colour. -/
def setBorder (ula : Ula τ) (value : UInt8) : Ula τ :=
  { ula with border := Spectrum48.Ula.borderOf value }

/-- Set the speaker bit at an instant; the beeper is told when the bit changes. -/
def setSpeaker (ula : Ula τ) (bit : Bool) (time : τ) : Ula τ :=
  if ula.speaker = bit then ula
  else { ula with speaker := bit, beeper := ula.beeper.notify time }

/-- Write a byte to a port at an instant. -/
def write (ula : Ula τ) (port : UInt16) (value : UInt8) (time : τ) : Ula τ :=
  if Spectrum48.Ula.answersOn port then
    (ula.setBorder value).setSpeaker (Spectrum48.Ula.speakerOf value) time
  else ula

end Ula

end Bare

namespace Ula

variable {τ : Type}

/-- The circuit with its keyboard in a buffer. -/
def bare (ula : Ula τ) : Bare.Ula τ where
  keyboard := ula.keyboard.bare
  border := ula.border
  speaker := ula.speaker
  beeper := ula.beeper

/-- A new circuit. -/
theorem bare_ofBeeper (beeper : Beeper τ) (border : UInt8) :
    (ofBeeper beeper border).bare = .ofBeeper beeper border := by
  simp [bare, ofBeeper, Bare.Ula.ofBeeper, Keyboard.bare, Keyboard.standard, Keyboard.ofMapping,
    Keyboard.released, Bare.Keyboard.ofMapping]

/-- Every port reads the keyboard in the buffer, or nothing. -/
theorem read_bare (ula : Ula τ) (port : UInt16) : ula.bare.read port = ula.read port := by
  rw [Bare.Ula.read, read, bare, Keyboard.query_bare]

/-- The border is set. -/
theorem setBorder_bare (ula : Ula τ) (value : UInt8) :
    ula.bare.setBorder value = (ula.setBorder value).bare := rfl

/-- Every port is written to, or left. -/
theorem write_bare [Scalar τ] (ula : Ula τ) (port : UInt16) (value : UInt8) (time : τ) :
    ula.bare.write port value time = (ula.write port value time).bare := by
  unfold Bare.Ula.write write
  by_cases answers : answersOn port = true
  · rw [if_pos answers, if_pos answers, setBorder_bare, Bare.Ula.setSpeaker, setSpeaker]
    by_cases same : (ula.setBorder value).speaker = speakerOf value
    · rw [if_pos same, bare, if_pos same]
    · rw [if_neg same, bare, if_neg same]
      rfl
  · rw [if_neg answers, if_neg answers]

end Ula

/-! ### The bus -/

namespace Bare

/-- A bus with its memory and its keyboard in buffers. -/
structure Bus (τ : Type) where
  /-- The address space. -/
  memory : Memory
  /-- The circuit behind the ports. -/
  ula : Ula τ
  /-- Extra cycles charged in this instruction. -/
  contention : Nat
  /-- The emulated time at which this instruction started. -/
  instructionStart : τ
  /-- Cycles in a millisecond. -/
  cyclesPerMs : τ

namespace Bus

variable {τ : Type} [Scalar τ]

/-- Start an instruction at an emulated time. -/
def beginInstruction (bus : Bus τ) (now : τ) : Bus τ :=
  { bus with instructionStart := now, contention := 0 }

/-- Take the extra cycles charged so far. -/
def takeContention (bus : Bus τ) : Nat × Bus τ := (bus.contention, { bus with contention := 0 })

/-- Emulated time within the instruction. -/
def now (bus : Bus τ) : Checked τ := do
  let extra ← Checked.quotient (Scalar.ofNat bus.contention) bus.cyclesPerMs
  pure (bus.instructionStart + extra)

/-- Charge an access at an address. -/
def charge (bus : Bus τ) (address : UInt16) : Bus τ :=
  { bus with contention := bus.contention + bus.memory.contention address }

/-- Perform an access, with the byte that answers it. -/
def perform (bus : Bus τ) : BusAccess → Checked (UInt8 × Bus τ)
  | .readMemory address => do
    let value ← bus.memory.read address
    pure (value, bus.charge address)
  | .writeMemory address value => do
    let (_, memory) ← bus.memory.write address value
    pure (0, { bus.charge address with memory := memory })
  | .readPort port => pure (bus.ula.read port, bus)
  | .writePort port value => do
    let now ← bus.now
    pure (0, { bus with ula := bus.ula.write port value now })

/-- Run a program of accesses. -/
def run {α : Type} : BusProgram α → Bus τ → Checked (α × Bus τ)
  | .done result, bus => pure (result, bus)
  | .access request next, bus => do
    let (answer, bus) ← bus.perform request
    run (next answer) bus

end Bus

end Bare

namespace Bus

variable {τ α : Type}

/-- The bus with its memory and its keyboard in buffers. -/
def bare (bus : Bus τ) : Bare.Bus τ where
  memory := bus.memory.bare
  ula := bus.ula.bare
  contention := bus.contention
  instructionStart := bus.instructionStart
  cyclesPerMs := bus.cyclesPerMs

variable [Scalar τ]

/-- Emulated time is reckoned. -/
theorem now_bare {bus : Bus τ} (divisor : Checked.IsDivisor bus.cyclesPerMs) :
    bus.bare.now = pure bus.now := by
  rw [Bare.Bus.now, bare, Checked.quotient_eq divisor, pure_bind]
  rfl

/-- Every access is performed. -/
theorem perform_bare {bus : Bus τ} (divisor : Checked.IsDivisor bus.cyclesPerMs)
    (request : BusAccess) :
    bus.bare.perform request =
      pure ((bus.perform request).1, (bus.perform request).2.bare) := by
  cases request with
  | readMemory address =>
    have value : bus.bare.memory.read address = pure (bus.memory.read address) :=
      bus.memory.read_bare address
    rw [Bare.Bus.perform, value, pure_bind]
    rfl
  | writeMemory address value =>
    have written : bus.bare.memory.write address value =
        pure (Memory.isWritable address, (bus.memory.write address value).bare) :=
      bus.memory.write_bare address value
    rw [Bare.Bus.perform, written, pure_bind]
    rfl
  | readPort port =>
    have value : bus.bare.ula.read port = bus.ula.read port := bus.ula.read_bare port
    rw [Bare.Bus.perform, value]
    rfl
  | writePort port value =>
    have written (time : τ) :
        bus.bare.ula.write port value time = (bus.ula.write port value time).bare :=
      bus.ula.write_bare port value time
    rw [Bare.Bus.perform, now_bare divisor, pure_bind, written]
    rfl

/-- Every program of accesses is run. -/
theorem run_bare (program : BusProgram α) {bus : Bus τ}
    (divisor : Checked.IsDivisor bus.cyclesPerMs) :
    Bare.Bus.run program bus.bare = pure ((run program bus).1, (run program bus).2.bare) := by
  induction program generalizing bus with
  | done result => rfl
  | access request next ih =>
    have later := bus.later_perform request
    rw [Bare.Bus.run, perform_bare divisor, pure_bind, run_access]
    exact ih _ (later.cyclesPerMs ▸ divisor)

end Bus

end Spectrum48
