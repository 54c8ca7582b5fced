import Spectrum48.Proofs.Bus.Trace

/-!
# Machines that do the same

The host cannot tell two machines apart whose processors do the same and that agree on everything
else. If their beepers differ as well, it can tell them apart by asking for sound samples, but by
nothing else: the rest of a machine never looks at its beeper.
-/

namespace Spectrum48

namespace Beeper

variable {τ : Type} [Scalar τ] {beepers : Beeper τ → Beeper τ → Prop}

/-- A relation of beepers that lasts, whatever both are told. -/
def Lasting (beepers : Beeper τ → Beeper τ → Prop) : Prop :=
  ∀ one other, beepers one other → ∀ time, beepers (one.notify time) (other.notify time)

/-- What lasts, lasts for any number of instants. -/
theorem Lasting.foldl_notify (lasting : Lasting beepers) {one other : Beeper τ}
    (related : beepers one other) (times : List τ) :
    beepers (times.foldl notify one) (times.foldl notify other) := by
  induction times generalizing one other with
  | nil => exact related
  | cons time later ih => exact ih (lasting one other related time)

/-- Beepers that are the same stay the same. -/
theorem lasting_eq : Lasting (Eq : Beeper τ → Beeper τ → Prop) := by
  rintro beeper _ rfl time
  rfl

/-- Beepers of any kind stay beepers of any kind. -/
theorem lasting_any : Lasting fun _ _ : Beeper τ => True := fun _ _ _ _ => trivial

end Beeper

namespace Machine

variable {τ σ ρ : Type}

/-- Whether an operation asks for sound samples. -/
def Operation.isRender : Operation τ → Bool
  | .render _ => true
  | _ => false

/-- The machine with its processor changed. -/
def map (f : σ → ρ) (machine : Machine τ σ) : Machine τ ρ := { machine with cpu := f machine.cpu }

/-- Two machines agree on everything but their processors, of which `f` tells one from the other,
and their beepers, which are related. -/
def Alike (f : σ → ρ) (beepers : Beeper τ → Beeper τ → Prop) (machine : Machine τ σ)
    (other : Machine τ ρ) : Prop :=
  ∃ beeper, beepers machine.beeper beeper ∧ other = (machine.withBeeper beeper).map f

/-- Two answers agree, and so do the machines that come with them. -/
def AlikeAfter {α : Type} (f : σ → ρ) (beepers : Beeper τ → Beeper τ → Prop)
    (one : α × Machine τ σ) (other : α × Machine τ ρ) : Prop :=
  one.1 = other.1 ∧ one.2.Alike f beepers other.2

/-- What is related is still related after a step on either side. -/
theorem rel_map {α β γ δ : Type} {before : α → β → Prop} {after : γ → δ → Prop} {step : α → γ}
    {otherStep : β → δ} {one : Option α} {other : Option β} (related : Option.Rel before one other)
    (keeps : ∀ a b, before a b → after (step a) (otherStep b)) :
    Option.Rel after (one.map step) (other.map otherStep) := by
  cases related with
  | some related => exact .some (keeps _ _ related)
  | none => exact .none

/-- What is related is still related after steps on both sides that may fail. -/
theorem rel_bind {α β γ δ : Type} {before : α → β → Prop} {after : γ → δ → Prop}
    {step : α → Option γ} {otherStep : β → Option δ} {one : Option α} {other : Option β}
    (related : Option.Rel before one other)
    (keeps : ∀ a ∈ one, ∀ b ∈ other, before a b → Option.Rel after (step a) (otherStep b)) :
    Option.Rel after (one.bind step) (other.bind otherStep) := by
  cases related with
  | some related => exact keeps _ rfl _ rfl related
  | none => exact .none

/-! ### What machines have in common -/

namespace Alike

variable {f : σ → ρ} {beepers : Beeper τ → Beeper τ → Prop} {machine : Machine τ σ}
  {other : Machine τ ρ}

/-- Machines that are alike have the same clock. -/
theorem clock (alike : machine.Alike f beepers other) : other.clock = machine.clock := by
  obtain ⟨beeper, -, rfl⟩ := alike
  rfl

/-- The processor of one machine tells that of the other. -/
theorem cpu (alike : machine.Alike f beepers other) : other.cpu = f machine.cpu := by
  obtain ⟨beeper, -, rfl⟩ := alike
  rfl

/-- Machines that are alike are at the same stage. -/
theorem state (alike : machine.Alike f beepers other) : other.state = machine.state := by
  obtain ⟨beeper, -, rfl⟩ := alike
  rfl

/-- Machines that are alike give the same refusals. -/
theorem refusal (alike : machine.Alike f beepers other) (operation : GuardedOperation) :
    other.refusal operation = machine.refusal operation := by
  unfold Machine.refusal
  rw [alike.state]

/-- The clocks of both machines can be set. -/
theorem withClock (alike : machine.Alike f beepers other) (clock : Clock τ) :
    Alike f beepers { machine with clock := clock } { other with clock := clock } := by
  obtain ⟨beeper, related, rfl⟩ := alike
  exact ⟨beeper, related, rfl⟩

/-- The processors of both machines can be replaced. -/
theorem withCpu (alike : machine.Alike f beepers other) (cpu : σ) :
    Alike f beepers { machine with cpu := cpu } { other with cpu := f cpu } := by
  obtain ⟨beeper, related, rfl⟩ := alike
  exact ⟨beeper, related, rfl⟩

/-- Both machines can be put at a stage. -/
theorem withState (alike : machine.Alike f beepers other) (state : RunState) :
    Alike f beepers { machine with state := state } { other with state := state } := by
  obtain ⟨beeper, related, rfl⟩ := alike
  exact ⟨beeper, related, rfl⟩

/-- The memories of both machines can be changed. -/
theorem withMemory (alike : machine.Alike f beepers other) (change : Memory → Memory) :
    Alike f beepers { machine with bus.memory := change machine.bus.memory }
      { other with bus.memory := change other.bus.memory } := by
  obtain ⟨beeper, related, rfl⟩ := alike
  exact ⟨beeper, related, rfl⟩

/-- The borders of both machines can be set. -/
theorem withBorder (alike : machine.Alike f beepers other) (value : UInt8) :
    Alike f beepers { machine with bus.ula := machine.bus.ula.setBorder value }
      { other with bus.ula := other.bus.ula.setBorder value } := by
  obtain ⟨beeper, related, rfl⟩ := alike
  exact ⟨beeper, related, rfl⟩

/-- Both machines show a picture. -/
theorem showDrawn (alike : machine.Alike f beepers other) (drawn : Except Fault Video.Picture) :
    (machine.showDrawn drawn).Alike f beepers (other.showDrawn drawn) := by
  obtain ⟨beeper, related, rfl⟩ := alike
  cases drawn with
  | ok _ | error _ => exact ⟨beeper, related, rfl⟩

/-- Machines that are alike are redrawn alike. -/
theorem redraw (alike : machine.Alike f beepers other) :
    machine.redraw.Alike f beepers other.redraw := by
  have drawn : Video.draw other.border other.bus.memory.screen other.clock.flashInverted =
      Video.draw machine.border machine.bus.memory.screen machine.clock.flashInverted := by
    obtain ⟨beeper, -, rfl⟩ := alike
    rfl
  unfold Machine.redraw
  rw [drawn]
  exact alike.showDrawn _

end Alike

/-! ### Instructions and frames -/

variable [Scalar τ] [Processor σ] [Processor ρ]

/-- The machine after the program of an instruction. -/
def afterProgram (machine : Machine τ σ) (ran : (Nat × σ) × Bus τ) : Machine τ σ :=
  { machine with
    bus := { ran.2 with contention := 0 }
    cpu := ran.1.2
    clock := machine.clock.addCycles (ran.1.1 + ran.2.contention) }

omit [Processor ρ] in
/-- An instruction runs its program. -/
theorem runInstruction_eq (machine : Machine τ σ) :
    machine.runInstruction =
      machine.afterProgram (Bus.run (Processor.instruction machine.cpu)
        (machine.bus.beginInstruction machine.clock.now)) := rfl

omit [Processor ρ] in
/-- An instruction does not depend on the beeper, and tells every beeper the same. -/
theorem runInstruction_withBeeper (machine : Machine τ σ) (beeper : Beeper τ) :
    (machine.withBeeper beeper).runInstruction =
      machine.runInstruction.withBeeper
        (machine.instructionInstants.foldl Beeper.notify beeper) := by
  rw [runInstruction_eq, runInstruction_eq]
  change afterProgram _ (Bus.run (Processor.instruction machine.cpu)
    ((machine.bus.beginInstruction machine.clock.now).withBeeper beeper)) = _
  rw [Bus.run_withBeeper]
  rfl

/-- An instruction of a processor that does the same does the same. -/
theorem runInstruction_map {f : σ → ρ} (maps : Processor.Maps f) (machine : Machine τ σ) :
    (machine.map f).runInstruction = machine.runInstruction.map f := by
  rw [runInstruction_eq, runInstruction_eq]
  change afterProgram _ (Bus.run (Processor.instruction (f machine.cpu))
    (machine.bus.beginInstruction machine.clock.now)) = _
  rw [maps.instruction, Bus.run_map]
  rfl

omit [Processor ρ] in
/-- Operations are carried out one after the other. -/
theorem performAll_cons (machine : Machine τ σ) (operation : Operation τ)
    (rest : List (Operation τ)) :
    machine.performAll (operation :: rest) =
      (machine.perform operation).bind fun performed =>
        (performed.2.performAll rest).map fun done => (performed.1 :: done.1, done.2) := by
  rw [performAll]
  cases machine.perform operation with
  | none => rfl
  | some performed =>
    dsimp only [Option.bind_some]
    cases performed.2.performAll rest <;> rfl

namespace Alike

variable {f : σ → ρ} {beepers : Beeper τ → Beeper τ → Prop} {machine : Machine τ σ}
  {other : Machine τ ρ}

/-- An instruction keeps machines alike. -/
theorem runInstruction (maps : Processor.Maps f) (lasting : Beeper.Lasting beepers)
    (alike : machine.Alike f beepers other) :
    machine.runInstruction.Alike f beepers other.runInstruction := by
  obtain ⟨beeper, related, rfl⟩ := alike
  refine ⟨machine.instructionInstants.foldl Beeper.notify beeper, ?_, ?_⟩
  · rw [beeper_runInstruction]
    exact lasting.foldl_notify related _
  · rw [runInstruction_map maps, runInstruction_withBeeper]

/-- Machines that are alike run the same instructions. -/
theorem runInstructions (maps : Processor.Maps f) (lasting : Beeper.Lasting beepers)
    (alike : machine.Alike f beepers other) (limit : Nat) :
    Option.Rel (Alike f beepers) (Machine.runInstructions limit machine)
      (Machine.runInstructions limit other) := by
  induction limit generalizing machine other with
  | zero =>
    unfold Machine.runInstructions
    rw [alike.clock]
    split
    · exact .some alike
    · exact .none
  | succ limit ih =>
    have next := alike.runInstruction maps lasting
    unfold Machine.runInstructions
    rw [alike.clock]
    split
    · exact .some alike
    · have halted : Processor.isHalted other.runInstruction.cpu =
          Processor.isHalted machine.runInstruction.cpu := by
        rw [next.cpu, maps.isHalted]
      dsimp only
      rw [halted]
      split
      · rw [next.clock]
        exact .some (next.withClock _)
      · exact ih next

/-- The end of a frame keeps machines alike. -/
theorem finishFrame (maps : Processor.Maps f) (alike : machine.Alike f beepers other) :
    machine.finishFrame.Alike f beepers other.finishFrame := by
  have closed : machine.closeFrame.Alike f beepers other.closeFrame := by
    unfold closeFrame
    rw [alike.clock]
    exact alike.withClock _
  have shown := closed.redraw
  unfold Machine.finishFrame Machine.interrupt
  rw [shown.cpu, maps.interrupt]
  exact shown.withCpu _

/-- A frame keeps machines alike. -/
theorem stepFrame (maps : Processor.Maps f) (lasting : Beeper.Lasting beepers)
    (alike : machine.Alike f beepers other) :
    Option.Rel (Alike f beepers) machine.stepFrame other.stepFrame := by
  have limit : other.instructionLimit = machine.instructionLimit := by
    unfold instructionLimit
    rw [alike.clock, alike.cpu, maps.patience]
  unfold Machine.stepFrame
  rw [limit]
  exact rel_map (alike.runInstructions maps lasting _) fun _ _ ran => ran.finishFrame maps

/-- The frames that are due keep machines alike. -/
theorem runDueFrames (maps : Processor.Maps f) (lasting : Beeper.Lasting beepers)
    (alike : machine.Alike f beepers other) (limit frames : Nat) :
    Option.Rel (AlikeAfter f beepers) (Machine.runDueFrames limit frames machine)
      (Machine.runDueFrames limit frames other) := by
  induction limit generalizing machine other frames with
  | zero =>
    unfold Machine.runDueFrames
    rw [alike.clock]
    split
    · exact .none
    · exact .some ⟨rfl, alike⟩
  | succ limit ih =>
    unfold Machine.runDueFrames
    rw [alike.clock]
    split
    · have stepped := alike.stepFrame maps lasting
      generalize machine.stepFrame = one at stepped ⊢
      generalize other.stepFrame = another at stepped ⊢
      cases stepped with
      | none => exact .none
      | some next => exact ih next _
    · exact .some ⟨rfl, alike⟩

/-- Host time that passes keeps machines alike. -/
theorem advance (maps : Processor.Maps f) (lasting : Beeper.Lasting beepers)
    (alike : machine.Alike f beepers other) (pass : Clock τ → Clock τ) :
    Option.Rel (AlikeAfter f beepers) (machine.advance pass) (other.advance pass) := by
  cases stage : machine.state with
  | running =>
    rw [advance_of_running stage, advance_of_running (alike.state.trans stage), alike.clock]
    have passed := alike.withClock (pass machine.clock)
    exact rel_map (passed.runDueFrames maps lasting _ 0) fun _ _ caughtUp =>
      ⟨congrArg Except.ok caughtUp.1, caughtUp.2⟩
  | paused =>
    unfold Machine.advance
    rw [alike.state, stage]
    exact .some ⟨rfl, alike⟩
  | uninitialized | loading =>
    unfold Machine.advance
    rw [alike.state, stage, alike.refusal]
    exact .some ⟨rfl, alike⟩

/-! ### Operations -/

/-- Firmware keeps machines alike. -/
theorem loadRom (maps : Processor.Maps f) (alike : machine.Alike f beepers other)
    (image : Array UInt8) :
    AlikeAfter f beepers (machine.loadRom image) (other.loadRom image) := by
  unfold Machine.loadRom
  split
  · have loaded := alike.withMemory fun memory => memory.loadRom image
    have started := (loaded.withCpu (Processor.reset machine.cpu)).withClock
      machine.clock.resetBaseline
    rw [alike.cpu, alike.clock, maps.reset]
    exact ⟨rfl, started.withState .running⟩
  · exact ⟨rfl, alike⟩

omit [Scalar τ] in
/-- What a snapshot holds keeps machines alike. -/
theorem restore (maps : Processor.Maps f) (alike : machine.Alike f beepers other)
    (snapshot : Snapshot) :
    (machine.restore snapshot).Alike f beepers (other.restore snapshot) := by
  -- What the block does to memory stays unnamed, lest it be copied to compare the machines.
  obtain ⟨load, loads⟩ : ∃ load : Memory → Memory, ∀ memory : Memory,
      memory.loadRam Snapshot.ramStart snapshot.ram = load memory := ⟨_, fun _ => rfl⟩
  have loaded := (alike.withMemory load).withBorder snapshot.border
  have restored := loaded.withCpu (Processor.setRegisters snapshot.registers machine.cpu)
  unfold Machine.restore
  rw [alike.cpu, maps.setRegisters, loads, loads]
  exact restored

omit [Scalar τ] in
/-- A snapshot keeps machines alike. -/
theorem loadSnapshot (maps : Processor.Maps f) (alike : machine.Alike f beepers other)
    (data : Array UInt8) :
    AlikeAfter f beepers (machine.loadSnapshot data) (other.loadSnapshot data) := by
  have firmware : other.hasFirmware = machine.hasFirmware := by
    unfold hasFirmware
    rw [alike.state]
  unfold Machine.loadSnapshot
  rw [firmware]
  split
  · exact ⟨rfl, alike.restore maps _⟩
  · rw [alike.refusal]
    exact ⟨rfl, alike⟩

omit [Scalar τ] [Processor σ] [Processor ρ] in
/-- Pausing keeps machines alike. -/
theorem pause (alike : machine.Alike f beepers other) :
    AlikeAfter f beepers machine.pause other.pause := by
  have firmware : other.hasFirmware = machine.hasFirmware := by
    unfold hasFirmware
    rw [alike.state]
  unfold Machine.pause
  rw [firmware]
  split
  · exact ⟨rfl, alike.withState _⟩
  · rw [alike.refusal]
    exact ⟨rfl, alike⟩

omit [Processor σ] [Processor ρ] in
/-- Resuming keeps machines alike. -/
theorem resume (alike : machine.Alike f beepers other) :
    AlikeAfter f beepers machine.resume other.resume := by
  unfold Machine.resume
  rw [alike.state]
  split
  · have started := alike.withClock machine.clock.resetBaseline
    rw [alike.clock]
    exact ⟨rfl, started.withState .running⟩
  · exact ⟨rfl, alike⟩
  · rw [alike.refusal]
    exact ⟨rfl, alike⟩

omit [Scalar τ] [Processor σ] [Processor ρ] in
/-- Keys keep machines alike. -/
theorem setCode (alike : machine.Alike f beepers other) (code : UInt32) (down : Bool) :
    AlikeAfter f beepers (machine.setCode code down) (other.setCode code down) := by
  obtain ⟨beeper, related, rfl⟩ := alike
  exact ⟨rfl, beeper, related, rfl⟩

omit [Scalar τ] [Processor σ] [Processor ρ] in
/-- A sound device that is attached keeps machines alike. -/
theorem attachAudio (alike : machine.Alike f beepers other) (started : Except Fault Unit) :
    AlikeAfter f beepers (machine.attachAudio started) (other.attachAudio started) := by
  cases started with
  | ok _ | error _ => exact ⟨rfl, alike⟩

omit [Scalar τ] [Processor σ] [Processor ρ] in
/-- Machines whose beepers are the same are asked for sound samples with the same effect. -/
theorem render (alike : machine.Alike f Eq other) (count : Nat) :
    Option.Rel (AlikeAfter f Eq) (machine.render count) (other.render count) := by
  obtain ⟨_, rfl, rfl⟩ := alike
  have same : ((machine.withBeeper machine.beeper).map f).bus.ula.beeper.render count =
      machine.bus.ula.beeper.render count := rfl
  unfold Machine.render
  rw [same]
  cases machine.bus.ula.beeper.render count with
  | heard _ after | unmixable after => exact .some ⟨rfl, after, rfl, rfl⟩
  | endless => exact .none

/-- Operations keep machines alike, as long as no sound samples are asked for that could differ. -/
theorem perform (maps : Processor.Maps f) (lasting : Beeper.Lasting beepers)
    (alike : machine.Alike f beepers other) {operation : Operation τ}
    (heard : operation.isRender = true → beepers = Eq) :
    Option.Rel (AlikeAfter f beepers) (machine.perform operation) (other.perform operation) := by
  cases operation with
  | tick delta =>
    exact rel_map (alike.advance maps lasting _) fun _ _ passed =>
      ⟨congrArg Reply.ofFrames passed.1, passed.2⟩
  | tickAt timestamp =>
    exact rel_map (alike.advance maps lasting _) fun _ _ passed =>
      ⟨congrArg Reply.ofFrames passed.1, passed.2⟩
  | stepFrame => exact rel_map (alike.stepFrame maps lasting) fun _ _ stepped => ⟨rfl, stepped⟩
  | loadRom image =>
    have loaded := alike.loadRom maps image
    exact .some ⟨congrArg Reply.ofUnit loaded.1, loaded.2⟩
  | loadSnapshot data =>
    have loaded := alike.loadSnapshot maps data
    exact .some ⟨congrArg Reply.ofUnit loaded.1, loaded.2⟩
  | pause => exact .some ⟨congrArg Reply.ofUnit alike.pause.1, alike.pause.2⟩
  | resume => exact .some ⟨congrArg Reply.ofUnit alike.resume.1, alike.resume.2⟩
  | reset =>
    have reset := alike.withCpu (Processor.reset machine.cpu)
    rw [← maps.reset, ← alike.cpu] at reset
    exact .some ⟨rfl, reset⟩
  | key code down =>
    have set := alike.setCode code down
    exact .some ⟨congrArg Reply.flag set.1, set.2⟩
  | poke address value =>
    exact .some ⟨rfl, alike.withMemory fun memory => memory.write address value⟩
  | loadRam start block =>
    exact .some ⟨rfl, alike.withMemory fun memory => memory.loadRam start block⟩
  | attachAudio started =>
    have attached := alike.attachAudio started
    exact .some ⟨congrArg Reply.flag attached.1, attached.2⟩
  | render count =>
    cases heard rfl
    exact alike.render count

/-- Histories keep machines alike, as long as no sound samples are asked for that could differ. -/
theorem performAll (maps : Processor.Maps f) (lasting : Beeper.Lasting beepers)
    (alike : machine.Alike f beepers other) {history : List (Operation τ)}
    (heard : ∀ operation ∈ history, operation.isRender = true → beepers = Eq) :
    Option.Rel (AlikeAfter f beepers) (machine.performAll history) (other.performAll history) := by
  induction history generalizing machine other with
  | nil => exact .some ⟨rfl, alike⟩
  | cons operation rest ih =>
    have performed := alike.perform maps lasting (heard operation List.mem_cons_self)
    rw [performAll_cons, performAll_cons]
    refine rel_bind performed fun one _ another _ same => ?_
    have later := ih same.2 fun operation run => heard operation (List.mem_cons_of_mem _ run)
    exact rel_map later fun _ _ done => ⟨congrArg₂ List.cons same.1 done.1, done.2⟩

end Alike

/-! ### Machines with a log -/

/-- The machine whose processor keeps a log, in which there are calls already. -/
def withCalls (calls : List ProcessorCall) (machine : Machine τ σ) : Machine τ (Logged σ) :=
  machine.map fun cpu => ⟨cpu, calls⟩

/-- The machine whose processor starts a log. -/
def logged (machine : Machine τ σ) : Machine τ (Logged σ) := machine.withCalls []

omit [Processor ρ] in
/-- A machine does the same with a log as without. -/
theorem performAll_withCalls {machine after : Machine τ σ} {history : List (Operation τ)}
    {replies : List Reply} (reached : machine.performAll history = some (replies, after))
    (calls : List ProcessorCall) :
    ∃ later, (machine.withCalls calls).performAll history =
      some (replies, after.withCalls later) := by
  have alike : (machine.withCalls calls).Alike Logged.cpu Eq machine := ⟨machine.beeper, rfl, rfl⟩
  have same : Option.Rel (AlikeAfter Logged.cpu Eq) ((machine.withCalls calls).performAll history)
      (machine.performAll history) :=
    alike.performAll .withoutLog Beeper.lasting_eq fun _ _ _ => rfl
  rw [reached] at same
  generalize (machine.withCalls calls).performAll history = ran at same ⊢
  cases same with
  | @some ran _ same =>
    obtain ⟨rfl, _, rfl, rfl⟩ := same
    exact ⟨ran.2.cpu.calls, rfl⟩

end Machine

end Spectrum48
