import Spectrum48.Proofs.Machine.Frames

/-!
# What an operation can do

An operation is refused and leaves the machine as it was, runs frames, or changes a few parts of the
machine. The outcomes are listed here once, with what decides between them; what holds of a machine
after every operation is then shown outcome by outcome.
-/

namespace Spectrum48.Machine

variable {τ σ : Type}

/-- The refusal of an operation that needs firmware. -/
def refusalWithoutFirmware (stage : RunState) (operation : GuardedOperation) : Option Fault :=
  if stage = .uninitialized then some (.invalidState operation .uninitialized) else none

/-- Why an operation is refused at a stage, if it is. -/
def refusal? (stage : RunState) : Operation τ → Option Fault
  | .loadRom image =>
    if image.size = 0x4000 then none else some (.romSize 0x4000 image.size)
  | .loadSnapshot _ => refusalWithoutFirmware stage .loadSnapshot
  | .tick _ | .tickAt _ => refusalWithoutFirmware stage .tick
  | .pause => refusalWithoutFirmware stage .pause
  | .resume => refusalWithoutFirmware stage .resume
  | .stepFrame | .reset | .key _ _ | .poke _ _ | .loadRam _ _ | .render _ | .attachAudio _ => none

variable [Scalar τ]

/-- How the clock takes the host time that an operation lets pass. -/
def Operation.pass? : Operation τ → Option (Clock τ → Clock τ)
  | .tick delta => some fun clock => clock.elapse delta
  | .tickAt timestamp => some fun clock => clock.elapseTo timestamp
  | _ => none

variable [Processor σ]

/-- The machine that starts from firmware. -/
def started (machine : Machine τ σ) (image : Array UInt8) : Machine τ σ :=
  { machine with
    bus.memory := machine.bus.memory.loadRom image
    cpu := Processor.reset machine.cpu
    clock := machine.clock.resetBaseline
    state := .running }

/-- Starting from firmware leaves the configuration alone. -/
theorem config_started (machine : Machine τ σ) (image : Array UInt8) :
    (machine.started image).config = machine.config := by
  rw [started]

/-- Starting from firmware leaves the picture alone. -/
theorem picture_started (machine : Machine τ σ) (image : Array UInt8) :
    (machine.started image).picture = machine.picture := by
  rw [started]

/-- Starting from firmware makes the clock forget the host's time. -/
theorem clock_started (machine : Machine τ σ) (image : Array UInt8) :
    (machine.started image).clock = machine.clock.resetBaseline := rfl

/-- What an operation can do to a machine, with its reply. -/
inductive Outcome (machine : Machine τ σ) : Operation τ → Reply → Machine τ σ → Prop where
  /-- What is refused leaves the machine as it was. -/
  | refused {operation : Operation τ} {fault : Fault}
      (reason : refusal? machine.state operation = some fault) :
      Outcome machine operation (.refused fault) machine
  /-- Firmware of the right size starts the machine. -/
  | started {image : Array UInt8} (fits : image.size = 0x4000) :
      Outcome machine (.loadRom image) .done (machine.started image)
  /-- A snapshot is put into a machine with firmware. -/
  | restored (data : Array UInt8) (live : machine.state ≠ .uninitialized) :
      Outcome machine (.loadSnapshot data) .done (machine.restore (.ofBytes data))
  /-- A running machine runs the frames that are due. -/
  | caughtUp {operation : Operation τ} {pass : Clock τ → Clock τ} {count : Nat}
      {after : Machine τ σ} (running : machine.state = .running)
      (passes : operation.pass? = some pass)
      (ran : { machine with clock := pass machine.clock }.catchUp = some (count, after)) :
      Outcome machine operation (.frames count) after
  /-- A paused machine lets time pass by. -/
  | waited {operation : Operation τ} (paused : machine.state = .paused)
      (passes : operation.pass?.isSome = true) : Outcome machine operation (.frames 0) machine
  /-- A single frame is run. -/
  | stepped {after : Machine τ σ} (ran : machine.stepFrame = some after) :
      Outcome machine .stepFrame .done after
  /-- A machine with firmware is paused. -/
  | paused (live : machine.state ≠ .uninitialized) :
      Outcome machine .pause .done { machine with state := .paused }
  /-- A paused machine is resumed. -/
  | resumed (paused : machine.state = .paused) :
      Outcome machine .resume .done
        { machine with clock := machine.clock.resetBaseline, state := .running }
  /-- A running machine goes on. -/
  | wentOn (running : machine.state = .running) : Outcome machine .resume .done machine
  /-- The processor starts over. -/
  | reset : Outcome machine .reset .done machine.reset
  /-- A key is pressed or released, if the code is known. -/
  | typed (code : UInt32) (down : Bool) :
      Outcome machine (.key code down) (.flag (machine.bus.ula.keyboard.setCode code down).1)
        { machine with
          bus.ula.keyboard := (machine.bus.ula.keyboard.setCode code down).2 }
  /-- A byte is written as by a program. -/
  | poked (address : UInt16) (value : UInt8) :
      Outcome machine (.poke address value) (.flag (Memory.isWritable address))
        (machine.withBus { machine.bus with memory := machine.bus.memory.write address value })
  /-- A block is copied to memory. -/
  | filled (start : UInt16) (block : Array UInt8) :
      Outcome machine (.loadRam start block) .done
        (machine.withBus { machine.bus with memory := machine.bus.memory.loadRam start block })
  /-- Sound samples are played, or found to be none. -/
  | rendered {count : Nat} {reply : Reply} {beeper : Beeper τ}
      (rendered : machine.render count = some (reply, machine.withBeeper beeper))
      (accepted : ∀ fault, reply ≠ .refused fault) :
      Outcome machine (.render count) reply (machine.withBeeper beeper)
  /-- A sound device starts or does not. -/
  | attached (device : Except Fault Unit) (running : Bool) :
      Outcome machine (.attachAudio device) (.flag running) machine

/-- The outcome of letting host time pass. -/
theorem outcome_of_advance {machine after : Machine τ σ} (between : machine.state ≠ .loading)
    {operation : Operation τ} {pass : Clock τ → Clock τ} (passes : operation.pass? = some pass)
    (reason : refusal? machine.state operation = refusalWithoutFirmware machine.state .tick)
    {result : Except Fault Nat} (returned : machine.advance pass = some (result, after)) :
    machine.Outcome operation (.ofFrames result) after := by
  cases stage : machine.state with
  | loading => exact absurd stage between
  | running =>
    rw [advance_of_running stage] at returned
    obtain ⟨⟨count, next⟩, ran, same⟩ := Option.map_eq_some_iff.1 returned
    cases same
    exact .caughtUp stage passes ran
  | paused =>
    unfold advance at returned
    rw [stage] at returned
    cases returned
    exact .waited stage (by rw [passes]; rfl)
  | uninitialized =>
    unfold advance at returned
    rw [stage] at returned
    cases returned
    apply Outcome.refused
    rw [reason, refusal, stage, refusalWithoutFirmware, if_pos rfl]

omit [Scalar τ] [Processor σ] in
/-- A machine has firmware if it is neither without nor in the course of loading it. -/
theorem hasFirmware_iff {machine : Machine τ σ} (between : machine.state ≠ .loading) :
    machine.hasFirmware = true ↔ machine.state ≠ .uninitialized := by
  unfold hasFirmware
  cases stage : machine.state with
  | loading => exact absurd stage between
  | uninitialized | running | paused => decide

omit [Scalar τ] [Processor σ] in
/-- An operation that needs firmware is refused without it. -/
theorem refusalWithoutFirmware_of_missing {machine : Machine τ σ}
    (between : machine.state ≠ .loading) (missing : ¬ machine.hasFirmware = true)
    (operation : GuardedOperation) :
    refusalWithoutFirmware machine.state operation = some (machine.refusal operation) := by
  have stage : machine.state = .uninitialized :=
    Decidable.byContradiction fun live => missing ((hasFirmware_iff between).2 live)
  rw [refusalWithoutFirmware, refusal, stage, if_pos rfl]

/-- Whatever an operation does is one of the outcomes. -/
theorem outcome_of_perform {machine after : Machine τ σ} (between : machine.state ≠ .loading)
    {operation : Operation τ} {reply : Reply}
    (performed : machine.perform operation = some (reply, after)) :
    machine.Outcome operation reply after := by
  cases operation with
  | tick delta =>
    obtain ⟨⟨result, next⟩, passed, same⟩ := Option.map_eq_some_iff.1 performed
    cases same
    exact outcome_of_advance between rfl rfl passed
  | tickAt timestamp =>
    obtain ⟨⟨result, next⟩, passed, same⟩ := Option.map_eq_some_iff.1 performed
    cases same
    exact outcome_of_advance between rfl rfl passed
  | stepFrame =>
    obtain ⟨next, stepped, same⟩ := Option.map_eq_some_iff.1 performed
    cases same
    exact .stepped stepped
  | loadRom image =>
    dsimp only [perform, Machine.loadRom] at performed
    split at performed
    · next fits =>
      cases performed
      exact .started fits
    · next other =>
      cases performed
      exact .refused (if_neg other)
  | loadSnapshot data =>
    dsimp only [perform, Machine.loadSnapshot] at performed
    split at performed
    · next live =>
      cases performed
      exact .restored data ((hasFirmware_iff between).1 live)
    · next missing =>
      cases performed
      exact .refused (refusalWithoutFirmware_of_missing between missing _)
  | pause =>
    dsimp only [perform, Machine.pause] at performed
    split at performed
    · next live =>
      cases performed
      exact .paused ((hasFirmware_iff between).1 live)
    · next missing =>
      cases performed
      exact .refused (refusalWithoutFirmware_of_missing between missing _)
  | resume =>
    dsimp only [perform, Machine.resume] at performed
    split at performed
    · next paused =>
      cases performed
      exact .resumed paused
    · next running =>
      cases performed
      exact .wentOn running
    · next paused running =>
      cases performed
      refine .refused (refusalWithoutFirmware_of_missing between ?_ _)
      have idle : ¬ machine.state = .running ∧ ¬ machine.state = .paused := ⟨running, paused⟩
      simpa [hasFirmware] using idle
  | reset =>
    cases performed
    exact .reset
  | key code down =>
    cases performed
    exact .typed code down
  | poke address value =>
    cases performed
    exact .poked address value
  | loadRam start block =>
    cases performed
    exact .filled start block
  | render count =>
    have rendered : machine.render count = some (reply, after) := performed
    dsimp only [perform, Machine.render] at performed
    split at performed
    · cases performed
      exact .rendered rendered fun _ => Reply.noConfusion
    · cases performed
      exact .rendered rendered fun _ => Reply.noConfusion
    · cases performed
  | attachAudio device =>
    dsimp only [perform, Machine.attachAudio] at performed
    split at performed
    · cases performed
      exact .attached _ true
    · cases performed
      exact .attached _ false

end Spectrum48.Machine
