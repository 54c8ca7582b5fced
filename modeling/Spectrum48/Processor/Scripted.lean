import Spectrum48.Processor.Basic

/-!
# Scripted processors

A processor that plays a fixed script of instructions instead of fetching them from memory. It
keeps a log of what it read and counts what was asked of it, so that a machine can be exercised
step by step.
-/

namespace Spectrum48

/-- One action of a scripted instruction. -/
inductive ScriptAction where
  /-- Read a byte of memory into the log. -/
  | read (address : UInt16)
  /-- Write a byte of memory. -/
  | write (address : UInt16) (value : UInt8)
  /-- Read a port into the log. -/
  | input (port : UInt16)
  /-- Write a port. -/
  | output (port : UInt16) (value : UInt8)
  /-- Halt after this instruction. -/
  | halt
  deriving DecidableEq, Repr

/-- A scripted instruction. -/
structure ScriptInstruction where
  /-- The cycles that it takes. -/
  cycles : Nat
  /-- Its actions, in order. -/
  actions : List ScriptAction
  deriving DecidableEq, Repr

/-- The state of a scripted processor. -/
structure Scripted where
  /-- The instructions to play. -/
  script : Array ScriptInstruction
  /-- Whether the script starts over at its end. -/
  loops : Bool
  /-- Whether an interrupt ends a halt. -/
  wakes : Bool
  /-- The place in the script. -/
  position : Nat
  /-- Whether the processor is halted. -/
  halted : Bool
  /-- The register file. -/
  registers : Registers
  /-- Bytes read from memory, the last one first. -/
  reads : List UInt8
  /-- Bytes read from ports, the last one first. -/
  inputs : List UInt8
  /-- Instructions run. -/
  instructionCount : Nat
  /-- Interrupts raised. -/
  interruptCount : Nat
  /-- Interrupts raised that cannot be masked or that put a byte on the bus. -/
  specialCount : Nat
  /-- Resets. -/
  resetCount : Nat

namespace Scripted

/-- Cycles of an instruction while halted or past the end of the script. -/
def restCycles : Nat := 4

/-- A processor at the start of its script. -/
def ofScript (script : Array ScriptInstruction) (loops wakes : Bool) : Scripted where
  script := script
  loops := loops
  wakes := wakes
  position := 0
  halted := false
  registers := .zero
  reads := []
  inputs := []
  instructionCount := 0
  interruptCount := 0
  specialCount := 0
  resetCount := 0

/-- Start another script. -/
def setScript (cpu : Scripted) (script : Array ScriptInstruction) : Scripted :=
  { cpu with script := script, position := 0 }

/-- Forget what was read. -/
def clearLogs (cpu : Scripted) : Scripted := { cpu with reads := [], inputs := [] }

/-- Start over; what was counted and read is kept. -/
def reset (cpu : Scripted) : Scripted :=
  { cpu with
    registers := .zero
    position := 0
    halted := false
    resetCount := cpu.resetCount + 1 }

/-- Play actions, and end with the cycles of their instruction. -/
def playActions (cycles : Nat) : List ScriptAction → Scripted → BusProgram (Nat × Scripted)
  | [], cpu => .done (cycles, cpu)
  | .read address :: rest, cpu =>
    .access (.readMemory address) fun value =>
      playActions cycles rest { cpu with reads := value :: cpu.reads }
  | .write address value :: rest, cpu =>
    .access (.writeMemory address value) fun _ => playActions cycles rest cpu
  | .input port :: rest, cpu =>
    .access (.readPort port) fun value =>
      playActions cycles rest { cpu with inputs := value :: cpu.inputs }
  | .output port value :: rest, cpu =>
    .access (.writePort port value) fun _ => playActions cycles rest cpu
  | .halt :: rest, cpu => playActions cycles rest { cpu with halted := true }

/-- The place of the next instruction: a looping script starts over at its end. -/
def nextPosition (cpu : Scripted) : Nat :=
  if cpu.loops && cpu.script.size != 0 then cpu.position % cpu.script.size else cpu.position

/-- Run one instruction. -/
def instruction (cpu : Scripted) : BusProgram (Nat × Scripted) :=
  let cpu := { cpu with instructionCount := cpu.instructionCount + 1 }
  if cpu.halted then .done (restCycles, cpu)
  else
    let position := cpu.nextPosition
    match cpu.script[position]? with
    | none => .done (restCycles, { cpu with position := position })
    | some step => playActions step.cycles step.actions { cpu with position := position + 1 }

/-- Raise an interrupt. -/
def interrupt (nonMaskable : Bool) (data : UInt8) (cpu : Scripted) : Scripted :=
  { cpu with
    interruptCount := cpu.interruptCount + 1
    specialCount := cpu.specialCount + if nonMaskable || data != 0 then 1 else 0
    halted := cpu.halted && !cpu.wakes }

/-- Whoever plays a whole script without spending a cycle never will. -/
instance : Processor Scripted where
  reset := reset
  instruction := instruction
  isHalted := halted
  interrupt := interrupt
  registers := registers
  setRegisters registers cpu := { cpu with registers := registers }
  patience cpu := cpu.script.size

end Scripted

end Spectrum48
