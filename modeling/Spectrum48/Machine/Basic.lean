import Spectrum48.Bus
import Spectrum48.Clock
import Spectrum48.Config.Validity
import Spectrum48.Snapshot
import Spectrum48.Video.Picture

/-!
# The machine

A machine ties a processor to memory, ports, clock and picture. It needs firmware before it runs;
then host time is turned into frames. In a frame the processor runs instructions until the cycle
budget is spent or it halts; then the frame is closed, the picture is drawn, and an interrupt is
raised.

Two loops of the machine can go on for ever: the instructions of a frame, if they take no cycles,
and the frames that are due, if a frame takes no host time that counts. What does not return is
`none`.
-/

namespace Spectrum48

/-- A machine that reckons time in `τ` and whose processor has the state `σ`. -/
structure Machine (τ σ : Type) where
  /-- The parameters that the machine was built with. -/
  config : Config τ
  /-- What the processor can reach. -/
  bus : Bus τ
  /-- The processor. -/
  cpu : σ
  /-- The clock. -/
  clock : Clock τ
  /-- The picture of the last completed frame. -/
  picture : Video.Picture
  /-- The stage of the machine's life. -/
  state : RunState

namespace Machine

variable {τ σ : Type} [Scalar τ] [Processor σ]

/-- Build a machine; it has no firmware yet, and its picture is white. -/
def build (config : Config τ) (cpu : σ) : Except Fault (Machine τ σ) :=
  match config.defect? with
  | some defect => .error (.invalidConfig defect.message)
  | none => .ok
    { config := config
      bus := .ofConfig config
      cpu := cpu
      clock := .ofConfig config
      picture := .plain config.frameWidth config.frameHeight .white
      state := .uninitialized }

/-- Whether firmware was loaded. -/
def hasFirmware (machine : Machine τ σ) : Bool :=
  machine.state == .running || machine.state == .paused

/-- The refusal of an operation at the machine's stage. -/
def refusal (machine : Machine τ σ) (operation : GuardedOperation) : Fault :=
  .invalidState operation machine.state

/-- The machine with another bus. -/
def withBus (machine : Machine τ σ) (bus : Bus τ) : Machine τ σ := { machine with bus := bus }

/-- Load firmware of the right size and start the machine from it. -/
def loadRom (machine : Machine τ σ) (image : Array UInt8) : Except Fault Unit × Machine τ σ :=
  if image.size = Memory.romSize then
    (.ok (),
     { machine with
       bus := { machine.bus with memory := machine.bus.memory.loadRom image }
       cpu := Processor.reset machine.cpu
       clock := machine.clock.resetBaseline
       state := .running })
  else (.error (.romSize Memory.romSize image.size), machine)

/-- Put what a snapshot holds into the machine. -/
def restore (machine : Machine τ σ) (snapshot : Snapshot) : Machine τ σ :=
  { machine with cpu := Processor.setRegisters snapshot.registers machine.cpu }.withBus
    { machine.bus with
      memory := machine.bus.memory.loadRam Snapshot.ramStart snapshot.ram
      ula := machine.bus.ula.setBorder snapshot.border }

/-- Load a snapshot. -/
def loadSnapshot (machine : Machine τ σ) (data : Array UInt8) : Except Fault Unit × Machine τ σ :=
  if machine.hasFirmware then (.ok (), machine.restore (.ofBytes data))
  else (.error (machine.refusal .loadSnapshot), machine)

/-- Run one instruction and count its cycles, with the extra ones of contended accesses. -/
def runInstruction : Machine τ σ → Machine τ σ
  | { config, bus, cpu, clock, picture, state } =>
    let ((cycles, cpu), bus) :=
      Bus.run (Processor.instruction cpu) (bus.beginInstruction clock.now)
    let (contention, bus) := bus.takeContention
    let clock := clock.addCycles (cycles + contention)
    { config, bus, cpu, clock, picture, state }

/-- Run instructions until the cycles of the frame are spent or the processor halts, in which case
the rest of the frame is idle; at most `limit` instructions. -/
def runInstructions : (limit : Nat) → Machine τ σ → Option (Machine τ σ)
  | 0, machine => if machine.clock.budgetExhausted then some machine else none
  | limit + 1, machine =>
    if machine.clock.budgetExhausted then some machine
    else
      let machine := machine.runInstruction
      if Processor.isHalted machine.cpu then
        some { machine with clock := machine.clock.idleToFrameEnd }
      else runInstructions limit machine

/-- A frame with more instructions than this never ends: each cycle of the budget can be preceded
by as many instructions without cycles as the processor's patience allows. -/
def instructionLimit (machine : Machine τ σ) : Nat :=
  (machine.clock.cyclesPerFrame - machine.clock.cycleCount).toNat
    * (Processor.patience machine.cpu + 1)

/-- The border of the picture. -/
def border (machine : Machine τ σ) : Video.Border where
  x := machine.config.xBorder
  y := machine.config.yBorder
  colour := .ofBorder machine.bus.ula.border

/-- Show what was drawn; what cannot be drawn leaves the picture as it was. -/
def showDrawn (machine : Machine τ σ) : Except Fault Video.Picture → Machine τ σ
  | .ok picture => { machine with picture := picture }
  | .error _ => machine

/-- Draw the picture. -/
def redraw (machine : Machine τ σ) : Machine τ σ :=
  machine.showDrawn
    (Video.draw machine.border machine.bus.memory.screen machine.clock.flashInverted)

/-- Close the frame on the clock. -/
def closeFrame (machine : Machine τ σ) : Machine τ σ :=
  { machine with clock := machine.clock.endFrame.2 }

/-- Raise the interrupt of a frame. -/
def interrupt (machine : Machine τ σ) : Machine τ σ :=
  { machine with cpu := Processor.interrupt false 0 machine.cpu }

/-- Close the frame, draw the picture and raise the frame's interrupt. -/
def finishFrame (machine : Machine τ σ) : Machine τ σ := machine.closeFrame.redraw.interrupt

/-- Run one frame. -/
def stepFrame (machine : Machine τ σ) : Option (Machine τ σ) :=
  (machine.runInstructions machine.instructionLimit).map finishFrame

/-- Run the frames that are due, at most `limit` of them, and count them onto `frames`. -/
def runDueFrames : (limit frames : Nat) → Machine τ σ → Option (Nat × Machine τ σ)
  | 0, frames, machine => if machine.clock.frameDue then none else some (frames, machine)
  | limit + 1, frames, machine =>
    if machine.clock.frameDue then
      match machine.stepFrame with
      | none => none
      | some machine => runDueFrames limit (frames + 1) machine
    else some (frames, machine)

/-- Run all frames that are due. -/
def catchUp (machine : Machine τ σ) : Option (Nat × Machine τ σ) :=
  runDueFrames (Scalar.withdrawals machine.clock.unspent machine.clock.frameTime) 0 machine

/-- Let host time pass, as `pass` tells, and run the frames that come due. Nothing happens while
the machine is paused. -/
def advance (machine : Machine τ σ) (pass : Clock τ → Clock τ) :
    Option (Except Fault Nat × Machine τ σ) :=
  match machine.state with
  | .running =>
    match { machine with clock := pass machine.clock }.catchUp with
    | none => none
    | some (frames, machine) => some (.ok frames, machine)
  | .paused => some (.ok 0, machine)
  | _ => some (.error (machine.refusal .tick), machine)

/-- Let host time pass. -/
def tick (machine : Machine τ σ) (delta : τ) : Option (Except Fault Nat × Machine τ σ) :=
  machine.advance fun clock => clock.elapse delta

/-- Let host time pass up to a timestamp. -/
def tickAt (machine : Machine τ σ) (timestamp : τ) : Option (Except Fault Nat × Machine τ σ) :=
  machine.advance fun clock => clock.elapseTo timestamp

/-- Pause the machine. -/
def pause (machine : Machine τ σ) : Except Fault Unit × Machine τ σ :=
  if machine.hasFirmware then (.ok (), { machine with state := .paused })
  else (.error (machine.refusal .pause), machine)

/-- Resume the machine. The time that passed while it was paused does not count. -/
def resume (machine : Machine τ σ) : Except Fault Unit × Machine τ σ :=
  match machine.state with
  | .paused =>
    (.ok (), { machine with clock := machine.clock.resetBaseline, state := .running })
  | .running => (.ok (), machine)
  | _ => (.error (machine.refusal .resume), machine)

/-- Reset the processor. -/
def reset (machine : Machine τ σ) : Machine τ σ :=
  { machine with cpu := Processor.reset machine.cpu }

/-- Press or release the key of a host code, and whether the code is known. -/
def setCode (machine : Machine τ σ) (code : UInt32) (down : Bool) : Bool × Machine τ σ :=
  let (known, bus) := machine.bus.setCode code down
  (known, machine.withBus bus)

omit [Scalar τ] [Processor σ] in
/-- Another bus leaves the clock alone. -/
theorem clock_withBus (machine : Machine τ σ) (bus : Bus τ) :
    (machine.withBus bus).clock = machine.clock := rfl

omit [Scalar τ] [Processor σ] in
/-- Another bus leaves the processor alone. -/
theorem cpu_withBus (machine : Machine τ σ) (bus : Bus τ) :
    (machine.withBus bus).cpu = machine.cpu := rfl

omit [Scalar τ] [Processor σ] in
/-- Showing what was drawn leaves the clock alone. -/
theorem clock_showDrawn (machine : Machine τ σ) (drawn : Except Fault Video.Picture) :
    (machine.showDrawn drawn).clock = machine.clock := by
  cases drawn <;> rfl

omit [Scalar τ] [Processor σ] in
/-- Showing what was drawn leaves the processor alone. -/
theorem cpu_showDrawn (machine : Machine τ σ) (drawn : Except Fault Video.Picture) :
    (machine.showDrawn drawn).cpu = machine.cpu := by
  cases drawn <;> rfl

omit [Scalar τ] [Processor σ] in
/-- Showing what was drawn leaves the stage alone. -/
theorem state_showDrawn (machine : Machine τ σ) (drawn : Except Fault Video.Picture) :
    (machine.showDrawn drawn).state = machine.state := by
  cases drawn <;> rfl

omit [Scalar τ] in
/-- An interrupt leaves the clock alone. -/
theorem clock_interrupt (machine : Machine τ σ) : machine.interrupt.clock = machine.clock := rfl

omit [Scalar τ] in
/-- An interrupt reaches the processor. -/
theorem cpu_interrupt (machine : Machine τ σ) :
    machine.interrupt.cpu = Processor.interrupt false 0 machine.cpu := rfl

omit [Scalar τ] in
/-- An interrupt leaves the stage alone. -/
theorem state_interrupt (machine : Machine τ σ) : machine.interrupt.state = machine.state := rfl

/-- Finishing a frame closes it on the clock. -/
theorem clock_finishFrame (machine : Machine τ σ) :
    machine.finishFrame.clock = machine.clock.endFrame.2 := by
  rw [finishFrame, clock_interrupt, redraw, clock_showDrawn]
  rfl

/-- Finishing a frame raises an interrupt. -/
theorem cpu_finishFrame (machine : Machine τ σ) :
    machine.finishFrame.cpu = Processor.interrupt false 0 machine.cpu := by
  rw [finishFrame, cpu_interrupt, redraw, cpu_showDrawn]
  rfl

/-- Finishing a frame leaves the stage alone. -/
theorem state_finishFrame (machine : Machine τ σ) :
    machine.finishFrame.state = machine.state := by
  rw [finishFrame, state_interrupt, redraw, state_showDrawn]
  rfl

/-- A frame that returns is a run of instructions that is finished. -/
theorem stepFrame_eq_some {machine after : Machine τ σ} :
    machine.stepFrame = some after ↔
      ∃ ran, runInstructions machine.instructionLimit machine = some ran ∧
        ran.finishFrame = after := Option.map_eq_some_iff

end Machine

end Spectrum48
