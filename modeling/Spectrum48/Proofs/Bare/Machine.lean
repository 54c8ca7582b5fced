import Spectrum48.Proofs.Bare.Bus
import Spectrum48.Proofs.Bare.Sound
import Spectrum48.Proofs.Machine.Display

/-!
# A machine in bare buffers

A machine whose memory, half-rows and picture are buffers, with every access to them checked, and
every division of its clock. It has the parts and the operations of a machine. As long as a
millisecond has cycles, a sample has points and the picture has the configured size, no check fails:
whatever the machine is asked to do, its buffers do the same, or neither of them returns.
-/

namespace Spectrum48

namespace Bare

/-- A machine in bare buffers. -/
structure Machine (τ σ : Type) where
  /-- The parameters that the machine was built with. -/
  config : Config τ
  /-- What the processor can reach. -/
  bus : Bus τ
  /-- The processor. -/
  cpu : σ
  /-- The clock. -/
  clock : Clock τ
  /-- The bytes of the picture. -/
  picture : Array UInt8
  /-- The stage of the machine's life. -/
  state : RunState

namespace Machine

variable {τ σ : Type} [Scalar τ] [Processor σ]

/-- Build a machine. -/
def build (config : Config τ) (cpu : σ) : Checked (Except Fault (Machine τ σ)) :=
  match config.defect? with
  | some defect => pure (.error (.invalidConfig defect.message))
  | none => do
    let settings ← settings config
    let beeper : Beeper τ := ⟨settings, .empty, false, 0, true, 0⟩
    pure (.ok
      { config := config
        bus :=
          { memory := .blank config.contentionPenalty
            ula := .ofBeeper beeper config.initialBorder
            contention := 0
            instructionStart := Scalar.zero
            cyclesPerMs := Scalar.ofNat config.cpuFrequency }
        cpu := cpu
        clock := .ofConfig config
        picture := Array.replicate (config.frameWidth * config.frameHeight * 4) 255
        state := .uninitialized })

/-- Whether firmware was loaded. -/
def hasFirmware (machine : Machine τ σ) : Bool :=
  machine.state == .running || machine.state == .paused

/-- The refusal of an operation at the machine's stage. -/
def refusal (machine : Machine τ σ) (operation : GuardedOperation) : Fault :=
  .invalidState operation machine.state

/-- The machine with another memory. -/
def withMemory (machine : Machine τ σ) (memory : Memory) : Machine τ σ :=
  { machine with bus := { machine.bus with memory := memory } }

/-- The machine with another keyboard. -/
def withKeyboard (machine : Machine τ σ) (keyboard : Keyboard) : Machine τ σ :=
  { machine with bus := { machine.bus with ula := { machine.bus.ula with keyboard := keyboard } } }

/-- The machine with another beeper. -/
def withBeeper (machine : Machine τ σ) (beeper : Beeper τ) : Machine τ σ :=
  { machine with bus := { machine.bus with ula := { machine.bus.ula with beeper := beeper } } }

/-- Load firmware of the right size and start the machine from it. -/
def loadRom (machine : Machine τ σ) (image : Array UInt8) :
    Checked (Except Fault Unit × Machine τ σ) :=
  if image.size = Spectrum48.Memory.romSize then do
    let memory ← machine.bus.memory.loadRom image
    pure (.ok (),
      { machine.withMemory memory with
        cpu := Processor.reset machine.cpu
        clock := machine.clock.resetBaseline
        state := .running })
  else pure (.error (.romSize Spectrum48.Memory.romSize image.size), machine)

/-- Load a snapshot. -/
def loadSnapshot (machine : Machine τ σ) (data : Array UInt8) :
    Checked (Except Fault Unit × Machine τ σ) :=
  if machine.hasFirmware then do
    let snapshot ← readSnapshot data
    let memory ← machine.bus.memory.loadRam Snapshot.ramStart snapshot.ram
    pure (.ok (),
      { machine with
        cpu := Processor.setRegisters snapshot.registers machine.cpu
        bus := { machine.bus with
          memory := memory
          ula := machine.bus.ula.setBorder snapshot.border } })
  else pure (.error (machine.refusal .loadSnapshot), machine)

/-- Emulated time on the clock. -/
def now (machine : Machine τ σ) : Checked τ := do
  let within ← Checked.quotient (Scalar.ofInt machine.clock.cycleCount) machine.clock.cyclesPerMs
  pure (Scalar.ofNat machine.clock.frameCount * machine.clock.frameTime + within)

/-- Run one instruction and count its cycles, with the extra ones of contended accesses. -/
def runInstruction (machine : Machine τ σ) : Checked (Machine τ σ) := do
  let now ← machine.now
  let ((cycles, cpu), bus) ←
    Bus.run (Processor.instruction machine.cpu) (machine.bus.beginInstruction now)
  let (contention, bus) := bus.takeContention
  pure
    { machine with bus := bus, cpu := cpu, clock := machine.clock.addCycles (cycles + contention) }

/-- Run instructions until the cycles of the frame are spent or the processor halts, in which case
the rest of the frame is idle; at most `limit` instructions. -/
def runInstructions : (limit : Nat) → Machine τ σ → Checked (Machine τ σ)
  | 0, machine => if machine.clock.budgetExhausted then pure machine else Checked.ofOption none
  | limit + 1, machine =>
    if machine.clock.budgetExhausted then pure machine
    else do
      let machine ← machine.runInstruction
      if Processor.isHalted machine.cpu then
        pure { machine with clock := machine.clock.idleToFrameEnd }
      else runInstructions limit machine

/-- Draw a screen over the picture that was shown before; what cannot be drawn leaves it as it
was. -/
def draw (machine : Machine τ σ) (screen : Array UInt8) (border : UInt8) (inverted : Bool) :
    Checked (Except Fault Unit × Machine τ σ) := do
  let painted ← Video.Painter.paint machine.config.xBorder machine.config.yBorder screen border
    inverted machine.picture
  match painted with
  | .ok brush => pure (.ok (), { machine with picture := brush.buffer })
  | .error fault => pure (.error fault, machine)

/-- Close the frame, draw the picture and raise the frame's interrupt. -/
def finishFrame (machine : Machine τ σ) : Checked (Machine τ σ) := do
  let closed := { machine with clock := machine.clock.endFrame.2 }
  let screen ← closed.bus.memory.screen
  let (_, drawn) ← closed.draw screen closed.bus.ula.border closed.clock.flashInverted
  pure { drawn with cpu := Processor.interrupt false 0 drawn.cpu }

/-- Run one frame. -/
def stepFrame (machine : Machine τ σ) : Checked (Machine τ σ) := do
  let limit := (machine.clock.cyclesPerFrame - machine.clock.cycleCount).toNat
    * (Processor.patience machine.cpu + 1)
  let ran ← machine.runInstructions limit
  ran.finishFrame

/-- Run the frames that are due, at most `limit` of them, and count them onto `frames`. -/
def runDueFrames : (limit frames : Nat) → Machine τ σ → Checked (Nat × Machine τ σ)
  | 0, frames, machine =>
    if machine.clock.frameDue then Checked.ofOption none else pure (frames, machine)
  | limit + 1, frames, machine =>
    if machine.clock.frameDue then do
      let machine ← machine.stepFrame
      runDueFrames limit (frames + 1) machine
    else pure (frames, machine)

/-- Let host time pass, as `pass` tells, and run the frames that come due. -/
def advance (machine : Machine τ σ) (pass : Clock τ → Clock τ) :
    Checked (Except Fault Nat × Machine τ σ) :=
  match machine.state with
  | .running => do
    let machine := { machine with clock := pass machine.clock }
    let limit := Scalar.withdrawals machine.clock.unspent machine.clock.frameTime
    let (frames, machine) ← machine.runDueFrames limit 0
    pure (.ok frames, machine)
  | .paused => pure (.ok 0, machine)
  | _ => pure (.error (machine.refusal .tick), machine)

/-- Pause the machine. -/
def pause (machine : Machine τ σ) : Except Fault Unit × Machine τ σ :=
  if machine.hasFirmware then (.ok (), { machine with state := .paused })
  else (.error (machine.refusal .pause), machine)

/-- Resume the machine. -/
def resume (machine : Machine τ σ) : Except Fault Unit × Machine τ σ :=
  match machine.state with
  | .paused =>
    (.ok (), { machine with clock := machine.clock.resetBaseline, state := .running })
  | .running => (.ok (), machine)
  | _ => (.error (machine.refusal .resume), machine)

/-- Ask for sound samples in a buffer. -/
def render (machine : Machine τ σ) (samples : Array Float32) :
    Checked (Array Float32 × Machine τ σ) := do
  let (samples, beeper) ← Bare.render machine.bus.ula.beeper samples
  pure (samples, machine.withBeeper beeper)

/-- Carry out an operation. -/
def perform (machine : Machine τ σ) : Machine.Operation τ → Checked (Machine.Reply × Machine τ σ)
  | .loadRom image => do
    let (result, machine) ← machine.loadRom image
    pure (.ofUnit result, machine)
  | .loadSnapshot data => do
    let (result, machine) ← machine.loadSnapshot data
    pure (.ofUnit result, machine)
  | .tick delta => do
    let (result, machine) ← machine.advance fun clock => clock.elapse delta
    pure (.ofFrames result, machine)
  | .tickAt timestamp => do
    let (result, machine) ← machine.advance fun clock => clock.elapseTo timestamp
    pure (.ofFrames result, machine)
  | .stepFrame => do
    let machine ← machine.stepFrame
    pure (.done, machine)
  | .pause =>
    let (result, machine) := machine.pause
    pure (.ofUnit result, machine)
  | .resume =>
    let (result, machine) := machine.resume
    pure (.ofUnit result, machine)
  | .reset => pure (.done, { machine with cpu := Processor.reset machine.cpu })
  | .key code down => do
    let (known, keyboard) ← machine.bus.ula.keyboard.setCode code down
    pure (.flag known, machine.withKeyboard keyboard)
  | .poke address value => do
    let (written, memory) ← machine.bus.memory.write address value
    pure (.flag written, machine.withMemory memory)
  | .loadRam start block => do
    let memory ← machine.bus.memory.loadRam start block
    pure (.done, machine.withMemory memory)
  | .render count => do
    let (samples, machine) ← machine.render (Array.replicate count 0)
    pure (.samples samples, machine)
  | .attachAudio started =>
    match started with
    | .ok () => pure (.flag true, machine)
    | .error _ => pure (.flag false, machine)

end Machine

end Bare

namespace Machine

variable {τ σ : Type}

/-- The machine in bare buffers. -/
def bare (machine : Machine τ σ) : Bare.Machine τ σ where
  config := machine.config
  bus := machine.bus.bare
  cpu := machine.cpu
  clock := machine.clock
  picture := machine.picture.bytes
  state := machine.state

/-- The clock is the same in bare buffers. -/
theorem clock_bare (machine : Machine τ σ) : machine.bare.clock = machine.clock := rfl

/-- The stage is the same in bare buffers. -/
theorem state_bare (machine : Machine τ σ) : machine.bare.state = machine.state := rfl

/-- The memory is the same in bare buffers. -/
theorem memory_bare (machine : Machine τ σ) :
    machine.bare.bus.memory = machine.bus.memory.bare := rfl

/-- The keyboard is the same in bare buffers. -/
theorem keyboard_bare (machine : Machine τ σ) :
    machine.bare.bus.ula.keyboard = machine.bus.ula.keyboard.bare := rfl

/-- An operation is refused alike. -/
theorem refusal_bare (machine : Machine τ σ) (operation : GuardedOperation) :
    machine.bare.refusal operation = machine.refusal operation := rfl

/-- Firmware was loaded alike. -/
theorem hasFirmware_bare (machine : Machine τ σ) :
    machine.bare.hasFirmware = machine.hasFirmware := rfl

/-! ### What checks need -/

/-- What the checks of a machine need to pass. -/
structure Equipped [Scalar τ] (machine : Machine τ σ) : Prop where
  /-- A millisecond has cycles, on the clock. -/
  clock : Checked.IsDivisor machine.timebase.cyclesPerMs
  /-- A millisecond has cycles, on the bus. -/
  bus : Checked.IsDivisor machine.timebase.busCyclesPerMs
  /-- A sample has points. -/
  points : machine.timebase.beeper.factor ≠ 0
  /-- The picture has its size. -/
  measured : machine.Measured

variable [Scalar τ]

/-- Where instants are reckoned with the same and the picture keeps its size, checks pass. -/
theorem Equipped.of_timebase {machine after : Machine τ σ} (equipped : machine.Equipped)
    (timebase : after.timebase = machine.timebase) (measured : after.Measured) :
    after.Equipped := by
  obtain ⟨clock, bus, points, -⟩ := equipped
  rw [← timebase] at clock bus points
  exact ⟨clock, bus, points, measured⟩

variable [Processor σ]

/-- A course leaves alone what instants are reckoned with. -/
theorem Course.timebase {machine after : Machine τ σ} {starts : List (Machine τ σ)}
    (course : Course machine starts after) : after.timebase = machine.timebase := by
  induction course with
  | done => rfl
  | between passed _ ih => exact ih.trans passed.timebase
  | @instruction machine _ _ _ _ ih => exact ih.trans machine.timebase_runInstruction

/-- The checks of the next instruction pass. -/
theorem Equipped.runInstruction {machine : Machine τ σ} (equipped : machine.Equipped) :
    machine.runInstruction.Equipped :=
  equipped.of_timebase machine.timebase_runInstruction equipped.measured

/-- The checks after the instructions of a frame pass. -/
theorem Equipped.runInstructions {machine after : Machine τ σ} (equipped : machine.Equipped)
    {limit : Nat} (returned : runInstructions limit machine = some after) : after.Equipped :=
  (keeps_runInstructions (fun middle => middle.Equipped) equipped
    (fun _ _ _ equipped => equipped.runInstruction)
    (fun _ _ _ equipped => equipped.of_timebase rfl equipped.measured) returned).2

/-- The checks after a frame pass. -/
theorem Equipped.stepFrame {machine after : Machine τ σ} (equipped : machine.Equipped)
    (returned : machine.stepFrame = some after) : after.Equipped := by
  have leads := machine.leads_stepFrame
  rw [returned] at leads
  exact equipped.of_timebase leads.course.timebase
    ((shown_stepFrame returned).measured equipped.measured)

/-- The checks after an operation pass. -/
theorem Equipped.perform {machine after : Machine τ σ} (equipped : machine.Equipped)
    (between : machine.state ≠ .loading) {operation : Operation τ} {reply : Reply}
    (performed : machine.perform operation = some (reply, after)) : after.Equipped := by
  have leads := machine.leads_perform operation
  rw [performed] at leads
  exact equipped.of_timebase leads.course.timebase
    ((shown_perform between performed).measured equipped.measured)

/-! ### Frames -/

omit [Processor σ] in
/-- Emulated time is reckoned. -/
theorem now_bare {machine : Machine τ σ} (equipped : machine.Equipped) :
    machine.bare.now = pure machine.clock.now := by
  have divisor : Checked.IsDivisor machine.bare.clock.cyclesPerMs := equipped.clock
  rw [Bare.Machine.now, Checked.quotient_eq divisor, pure_bind]
  rfl

/-- Every instruction is run. -/
theorem runInstruction_bare {machine : Machine τ σ} (equipped : machine.Equipped) :
    machine.bare.runInstruction = pure machine.runInstruction.bare := by
  have ran := Bus.run_bare (Processor.instruction machine.cpu)
    (show Checked.IsDivisor (machine.bus.beginInstruction machine.clock.now).cyclesPerMs from
      equipped.bus)
  rw [Bare.Machine.runInstruction, now_bare equipped, pure_bind]
  change (Bare.Bus.run (Processor.instruction machine.cpu)
    (machine.bus.beginInstruction machine.clock.now).bare >>= _) = _
  rw [ran, pure_bind]
  rfl

/-- The instructions of a frame are run, or they never end. -/
theorem runInstructions_bare (limit : Nat) {machine : Machine τ σ} (equipped : machine.Equipped) :
    machine.bare.runInstructions limit =
      Checked.ofOption ((runInstructions limit machine).map bare) := by
  induction limit generalizing machine with
  | zero =>
    unfold Bare.Machine.runInstructions runInstructions
    change (if machine.clock.budgetExhausted then _ else _) = _
    split <;> rfl
  | succ limit ih =>
    unfold Bare.Machine.runInstructions runInstructions
    change (if machine.clock.budgetExhausted then _ else _) = _
    split
    · rfl
    · rw [runInstruction_bare equipped, pure_bind]
      change (if Processor.isHalted machine.runInstruction.cpu then _ else _) = _
      dsimp only
      split
      · rfl
      · exact ih equipped.runInstruction

/-- Draw a screen; what cannot be drawn leaves the picture as it was. -/
def draw (machine : Machine τ σ) (screen : Array UInt8) (border : UInt8) (inverted : Bool) :
    Except Fault Unit × Machine τ σ :=
  let drawn := Video.draw ⟨machine.config.xBorder, machine.config.yBorder, .ofBorder border⟩ screen
    inverted
  (drawn.map fun _ => (), machine.showDrawn drawn)

omit [Processor σ] in
/-- The checks after drawing a screen pass. -/
theorem Equipped.draw {machine : Machine τ σ} (equipped : machine.Equipped) (screen : Array UInt8)
    (border : UInt8) (inverted : Bool) : (machine.draw screen border inverted).2.Equipped := by
  unfold Machine.draw
  cases drawn : Video.draw ⟨machine.config.xBorder, machine.config.yBorder, .ofBorder border⟩ screen
    inverted with
  | error fault => exact equipped
  | ok picture => exact equipped.of_timebase rfl (Video.measures_of_draw drawn)

omit [Scalar τ] [Processor σ] in
/-- Every screen is drawn, or refused. -/
theorem draw_bare {machine : Machine τ σ} (measured : machine.Measured) (screen : Array UInt8)
    (border : UInt8) (inverted : Bool) :
    machine.bare.draw screen border inverted =
      pure ((machine.draw screen border inverted).1,
        (machine.draw screen border inverted).2.bare) := by
  have sized : machine.bare.picture.size =
      4 * (machine.config.frameWidth * machine.config.frameHeight) := by
    rw [← measured.1, ← measured.2]
    exact machine.picture.size_bytes
  have painted := Video.Painter.paint_eq
    ⟨machine.config.xBorder, machine.config.yBorder, .ofBorder border⟩ border rfl screen inverted
    sized
  rw [Bare.Machine.draw]
  change (Video.Painter.paint machine.config.xBorder machine.config.yBorder _ _ _ _ >>= _) = _
  rw [painted, pure_bind, draw]
  cases Video.draw ⟨machine.config.xBorder, machine.config.yBorder, .ofBorder border⟩ screen
    inverted <;> rfl

omit [Scalar τ] [Processor σ] in
/-- Redrawing draws the screen in memory. -/
theorem redraw_eq (machine : Machine τ σ) :
    machine.redraw =
      (machine.draw machine.bus.memory.screen machine.bus.ula.border
        machine.clock.flashInverted).2 := by
  rw [redraw, draw, border]

omit [Scalar τ] in
/-- Raising an interrupt leaves the buffers alone. -/
theorem interrupt_bare (machine : Machine τ σ) :
    { machine.bare with cpu := Processor.interrupt false 0 machine.bare.cpu } =
      machine.interrupt.bare := rfl

/-- Every frame is finished. -/
theorem finishFrame_bare {machine : Machine τ σ} (measured : machine.Measured) :
    machine.bare.finishFrame = pure machine.finishFrame.bare := by
  have still : machine.closeFrame.Measured := measured
  have closed : { machine.bare with clock := machine.bare.clock.endFrame.2 } =
      machine.closeFrame.bare := rfl
  have bus : machine.bare.bus = machine.closeFrame.bus.bare := rfl
  have clock : machine.bare.clock.endFrame.2 = machine.closeFrame.clock := rfl
  have screen : machine.closeFrame.bus.bare.memory.screen =
      pure machine.closeFrame.bus.memory.screen := Memory.screen_bare _
  have border : machine.closeFrame.bus.bare.ula.border = machine.closeFrame.bus.ula.border := rfl
  rw [Bare.Machine.finishFrame]
  dsimp only
  rw [closed, clock, bus, screen, pure_bind, border, draw_bare still, pure_bind, ← redraw_eq]
  dsimp only
  rw [interrupt_bare, finishFrame]

/-- Every frame is run, or it never ends. -/
theorem stepFrame_bare {machine : Machine τ σ} (equipped : machine.Equipped) :
    machine.bare.stepFrame = Checked.ofOption (machine.stepFrame.map bare) := by
  rw [Bare.Machine.stepFrame]
  change machine.bare.runInstructions machine.instructionLimit >>= _ = _
  rw [runInstructions_bare _ equipped, stepFrame]
  cases ran : runInstructions machine.instructionLimit machine with
  | none => rfl
  | some last => exact finishFrame_bare (equipped.runInstructions ran).measured

/-- The frames that are due are run, or they never end. -/
theorem runDueFrames_bare (limit frames : Nat) {machine : Machine τ σ}
    (equipped : machine.Equipped) :
    machine.bare.runDueFrames limit frames =
      Checked.ofOption ((runDueFrames limit frames machine).map fun (frames, machine) =>
        (frames, machine.bare)) := by
  induction limit generalizing frames machine with
  | zero =>
    unfold Bare.Machine.runDueFrames runDueFrames
    change (if machine.clock.frameDue then _ else _) = _
    split <;> rfl
  | succ limit ih =>
    unfold Bare.Machine.runDueFrames runDueFrames
    change (if machine.clock.frameDue then _ else _) = _
    split
    · rw [stepFrame_bare equipped]
      cases stepped : machine.stepFrame with
      | none => rfl
      | some next => exact ih (frames + 1) (equipped.stepFrame stepped)
    · rfl

/-! ### Operations -/

/-- Host time passes, or the frames that come due never end. -/
theorem advance_bare {machine : Machine τ σ} (equipped : machine.Equipped)
    {pass : Clock τ → Clock τ}
    (passed : machine.Between { machine with clock := pass machine.clock }) :
    machine.bare.advance pass =
      Checked.ofOption ((machine.advance pass).map fun (result, machine) =>
        (result, machine.bare)) := by
  have ready : Equipped { machine with clock := pass machine.clock } :=
    equipped.of_timebase passed.timebase equipped.measured
  have due := runDueFrames_bare
    (Scalar.withdrawals (pass machine.clock).unspent (pass machine.clock).frameTime) 0 ready
  by_cases running : machine.state = .running
  · rw [advance_of_running running, catchUp, Option.map_map]
    unfold Bare.Machine.advance
    split
    · change Bare.Machine.runDueFrames _ 0 (bare { machine with clock := pass machine.clock })
        >>= _ = _
      rw [clock_bare]
      dsimp only
      rw [due]
      cases runDueFrames _ 0 { machine with clock := pass machine.clock } <;> rfl
    · next paused => exact absurd (running.symm.trans paused) (by decide)
    · next other _ => exact absurd running other
  · unfold Bare.Machine.advance advance
    cases stage : machine.state with
    | running => exact absurd stage running
    | paused | uninitialized | loading =>
      rw [state_bare, stage, refusal_bare]
      rfl

omit [Scalar τ] [Processor σ] in
/-- Another memory is put into both. -/
theorem withMemory_bare (machine : Machine τ σ) (memory : Memory) :
    machine.bare.withMemory memory.bare =
      (machine.withBus { machine.bus with memory := memory }).bare := rfl

/-- Both start from the same firmware. -/
theorem started_bare (machine : Machine τ σ) (memory : Memory) :
    { machine.bare.withMemory memory.bare with
      cpu := Processor.reset machine.bare.cpu
      clock := machine.bare.clock.resetBaseline
      state := .running } =
    bare
      { machine with
        bus := { machine.bus with memory := memory }
        cpu := Processor.reset machine.cpu
        clock := machine.clock.resetBaseline
        state := .running } := rfl

omit [Scalar τ] in
/-- The same snapshot is put into both. -/
theorem restored_bare (machine : Machine τ σ) (snapshot : Snapshot) (memory : Memory) :
    { machine.bare with
      cpu := Processor.setRegisters snapshot.registers machine.bare.cpu
      bus := { machine.bare.bus with
        memory := memory.bare
        ula := machine.bare.bus.ula.setBorder snapshot.border } } =
    bare
      ({ machine with cpu := Processor.setRegisters snapshot.registers machine.cpu }.withBus
        { machine.bus with
          memory := memory
          ula := machine.bus.ula.setBorder snapshot.border }) := rfl

/-- Firmware of any size is loaded, or refused. -/
theorem loadRom_bare (machine : Machine τ σ) (image : Array UInt8) :
    machine.bare.loadRom image =
      pure ((machine.loadRom image).1, (machine.loadRom image).2.bare) := by
  unfold Bare.Machine.loadRom loadRom
  split
  · rw [memory_bare, Memory.loadRom_bare, pure_bind, started_bare]
  · rfl

omit [Scalar τ] in
/-- A snapshot of any size is loaded, or refused. -/
theorem loadSnapshot_bare (machine : Machine τ σ) (data : Array UInt8) :
    machine.bare.loadSnapshot data =
      pure ((machine.loadSnapshot data).1, (machine.loadSnapshot data).2.bare) := by
  unfold Bare.Machine.loadSnapshot loadSnapshot
  rw [hasFirmware_bare]
  split
  · rw [Bare.readSnapshot_eq, pure_bind, memory_bare, Memory.loadRam_bare, pure_bind,
      restored_bare, restore]
  · rfl

omit [Scalar τ] [Processor σ] in
/-- A machine whose samples have points gives those of its beeper. -/
theorem render_eq {machine : Machine τ σ} (points : machine.bus.ula.beeper.settings.factor ≠ 0)
    (count : Nat) :
    machine.render count =
      (machine.bus.ula.beeper.render count).heard?.map fun (samples, beeper) =>
        (.samples samples, machine.withBeeper beeper) := by
  rw [render]
  cases rendered : machine.bus.ula.beeper.render count with
  | heard samples after => rfl
  | unmixable after => exact absurd rendered (Beeper.render_ne_unmixable points count after)
  | endless => rfl

omit [Processor σ] in
/-- Samples are put into any buffer, or the cursor never gets away. -/
theorem render_bare {machine : Machine τ σ} (equipped : machine.Equipped)
    (samples : Array Float32) :
    machine.bare.render samples =
      Checked.ofOption ((machine.bus.ula.beeper.render samples.size).heard?.map
        fun (samples, beeper) => (samples, (machine.withBeeper beeper).bare)) := by
  have heard := Bare.render_eq equipped.points samples
  rw [Bare.Machine.render]
  change Bare.render machine.beeper samples >>= _ = _
  rw [heard]
  change Checked.ofOption (machine.bus.ula.beeper.render samples.size).heard? >>= _ = _
  cases (machine.bus.ula.beeper.render samples.size).heard? <;> rfl

/-- Whatever a machine is asked to do, its buffers do the same, or neither of them returns. -/
theorem perform_bare {machine : Machine τ σ} (equipped : machine.Equipped)
    (operation : Operation τ) :
    machine.bare.perform operation =
      Checked.ofOption ((machine.perform operation).map fun (reply, machine) =>
        (reply, machine.bare)) := by
  cases operation with
  | loadRom image =>
    rw [Bare.Machine.perform, loadRom_bare, pure_bind, perform]
    generalize machine.loadRom image = result
    rfl
  | loadSnapshot data =>
    rw [Bare.Machine.perform, loadSnapshot_bare, pure_bind, perform]
    generalize machine.loadSnapshot data = result
    rfl
  | tick delta =>
    rw [Bare.Machine.perform, advance_bare equipped (machine.between_elapse delta), perform, tick]
    cases machine.advance fun clock => clock.elapse delta <;> rfl
  | tickAt timestamp =>
    rw [Bare.Machine.perform, advance_bare equipped (machine.between_elapseTo timestamp), perform,
      tickAt]
    cases machine.advance fun clock => clock.elapseTo timestamp <;> rfl
  | stepFrame =>
    rw [Bare.Machine.perform, stepFrame_bare equipped, perform]
    cases machine.stepFrame <;> rfl
  | pause =>
    rw [Bare.Machine.perform, Bare.Machine.pause, perform, pause, hasFirmware_bare]
    cases machine.hasFirmware <;> rfl
  | resume =>
    rw [Bare.Machine.perform, Bare.Machine.resume, perform, resume, state_bare]
    cases stage : machine.state <;> simp only [refusal_bare] <;> rfl
  | reset => rfl
  | key code down =>
    rw [Bare.Machine.perform, keyboard_bare, Keyboard.setCode_bare, pure_bind]
    rfl
  | poke address value =>
    rw [Bare.Machine.perform, memory_bare, Memory.write_bare, pure_bind, perform, poke]
    dsimp only
    rw [withMemory_bare]
    rfl
  | loadRam start block =>
    rw [Bare.Machine.perform, memory_bare, Memory.loadRam_bare, pure_bind, perform, loadRam,
      withMemory_bare]
    rfl
  | render count =>
    rw [Bare.Machine.perform, render_bare equipped, perform, render_eq equipped.points,
      Array.size_replicate]
    cases (machine.bus.ula.beeper.render count).heard? <;> rfl
  | attachAudio started => cases started <;> rfl

end Machine

end Spectrum48
