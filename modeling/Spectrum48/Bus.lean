import Spectrum48.Memory
import Spectrum48.Processor.Basic
import Spectrum48.Ula

/-!
# The bus

The bus is all that a processor can reach: memory and ports. It charges accesses to contended
memory to a counter, which starts at zero with each instruction. Writes to ports happen at the time
at which the instruction started, plus the extra cycles charged so far.
-/

namespace Spectrum48

/-- The state of the bus. -/
structure Bus (τ : Type) where
  /-- The address space. -/
  memory : Memory
  /-- The circuit behind the ports. -/
  ula : Ula τ
  /-- Extra cycles charged in this instruction. -/
  contention : Nat
  /-- The emulated time at which this instruction started. -/
  instructionStart : τ
  /-- Cycles in a millisecond. -/
  cyclesPerMs : τ

namespace Bus

variable {τ : Type} [Scalar τ]

/-- The bus of a new machine. -/
def ofConfig (config : Config τ) : Bus τ where
  memory := .blank config.contentionPenalty
  ula := .ofBeeper (.ofConfig config) config.initialBorder
  contention := 0
  instructionStart := Scalar.zero
  cyclesPerMs := Scalar.ofNat config.cpuFrequency

/-- Start an instruction at an emulated time. -/
def beginInstruction (bus : Bus τ) (now : τ) : Bus τ :=
  { bus with instructionStart := now, contention := 0 }

/-- Take the extra cycles charged so far. -/
def takeContention (bus : Bus τ) : Nat × Bus τ := (bus.contention, { bus with contention := 0 })

/-- Emulated time within the instruction. -/
def now (bus : Bus τ) : τ :=
  bus.instructionStart + Scalar.ofNat bus.contention / bus.cyclesPerMs

/-- Charge an access at an address. -/
def charge (bus : Bus τ) (address : UInt16) : Bus τ :=
  { bus with contention := bus.contention + bus.memory.contention address }

/-- Read a byte of memory. -/
def readMemory (bus : Bus τ) (address : UInt16) : UInt8 × Bus τ :=
  (bus.memory.read address, bus.charge address)

/-- Write a byte of memory. -/
def writeMemory (bus : Bus τ) (address : UInt16) (value : UInt8) : Bus τ :=
  let bus := bus.charge address
  { bus with memory := bus.memory.write address value }

/-- Read a port. -/
def readPort (bus : Bus τ) (port : UInt16) : UInt8 := bus.ula.read port

/-- Write a port. -/
def writePort (bus : Bus τ) (port : UInt16) (value : UInt8) : Bus τ :=
  { bus with ula := bus.ula.write port value bus.now }

/-- Perform an access, with the byte that answers it. -/
def perform (bus : Bus τ) : BusAccess → UInt8 × Bus τ
  | .readMemory address => bus.readMemory address
  | .writeMemory address value => (0, bus.writeMemory address value)
  | .readPort port => (bus.readPort port, bus)
  | .writePort port value => (0, bus.writePort port value)

/-- Run a program of accesses. -/
def run {α : Type} : BusProgram α → Bus τ → α × Bus τ
  | .done result, bus => (result, bus)
  | .access request next, bus =>
    let (answer, bus) := bus.perform request
    run (next answer) bus

/-- Press or release the key of a host code, and whether the code is known. -/
def setCode (bus : Bus τ) (code : UInt32) (down : Bool) : Bool × Bus τ :=
  let (known, ula) := bus.ula.setCode code down
  (known, { bus with ula := ula })

/-- A program without accesses leaves the bus alone. -/
theorem run_done {α : Type} (result : α) (bus : Bus τ) :
    run (.done result) bus = (result, bus) := rfl

/-- A program goes on with the answer to its first access. -/
theorem run_access {α : Type} (request : BusAccess) (next : UInt8 → BusProgram α) (bus : Bus τ) :
    run (.access request next) bus
      = run (next (bus.perform request).1) (bus.perform request).2 := rfl

end Bus

end Spectrum48
