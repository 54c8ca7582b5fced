import Spectrum48.Machine.Operation

/-!
# The frames and instructions of a history

The machines at which the frames of a history start, and those at which its instructions start,
also where the history never returns. What holds of processor and clock at the start of a history
holds throughout if the host's operations keep it and every frame keeps it; so a claim about
histories comes down to one about a frame, and that to one about an instruction.
-/

namespace Spectrum48.Machine

variable {τ σ : Type} [Scalar τ] [Processor σ]

/-- The cycles of the next instruction, with the extra ones of its contended accesses. -/
def instructionCycles (machine : Machine τ σ) : Nat :=
  let ((cycles, _), bus) :=
    Bus.run (Processor.instruction machine.cpu)
      (machine.bus.beginInstruction machine.clock.now)
  cycles + bus.contention

/-- The machines at which the instructions of a frame start, at most `limit` of them. -/
def instructionsRun : (limit : Nat) → Machine τ σ → List (Machine τ σ)
  | 0, _ => []
  | limit + 1, machine =>
    if machine.clock.budgetExhausted then []
    else
      machine ::
        if Processor.isHalted machine.runInstruction.cpu then []
        else instructionsRun limit machine.runInstruction

/-- The machines at which the instructions of the next frame start. -/
def frameInstructions (machine : Machine τ σ) : List (Machine τ σ) :=
  instructionsRun machine.instructionLimit machine

/-- The machines at which the frames that are due start, at most `limit` of them. -/
def dueFrames : (limit : Nat) → Machine τ σ → List (Machine τ σ)
  | 0, _ => []
  | limit + 1, machine =>
    if machine.clock.frameDue then
      machine ::
        match machine.stepFrame with
        | none => []
        | some machine => dueFrames limit machine
    else []

/-- The machines at which frames start while host time passes. -/
def advanceFrames (machine : Machine τ σ) (pass : Clock τ → Clock τ) : List (Machine τ σ) :=
  match machine.state with
  | .running =>
    let machine := { machine with clock := pass machine.clock }
    dueFrames (Scalar.withdrawals machine.clock.unspent machine.clock.frameTime) machine
  | _ => []

/-- The machines at which the frames of an operation start. -/
def operationFrames (machine : Machine τ σ) : Operation τ → List (Machine τ σ)
  | .tick delta => machine.advanceFrames fun clock => clock.elapse delta
  | .tickAt timestamp => machine.advanceFrames fun clock => clock.elapseTo timestamp
  | .stepFrame => [machine]
  | _ => []

/-- The machines at which the frames of a history start. -/
def historyFrames (machine : Machine τ σ) : List (Operation τ) → List (Machine τ σ)
  | [] => []
  | operation :: rest =>
    machine.operationFrames operation ++
      match machine.perform operation with
      | none => []
      | some (_, machine) => machine.historyFrames rest

/-- The machines at which the instructions of a history start. -/
def historyInstructions (machine : Machine τ σ) (history : List (Operation τ)) :
    List (Machine τ σ) :=
  (machine.historyFrames history).flatMap frameInstructions

/-- An instruction spends its cycles. -/
theorem clock_runInstruction (machine : Machine τ σ) :
    machine.runInstruction.clock = machine.clock.addCycles machine.instructionCycles := rfl

/-- The instructions of a history's first operation are instructions of the history. -/
theorem mem_historyInstructions_of_operation {machine frame start : Machine τ σ}
    {operation : Operation τ} (framed : frame ∈ machine.operationFrames operation)
    (run : start ∈ frame.frameInstructions) (rest : List (Operation τ)) :
    start ∈ machine.historyInstructions (operation :: rest) :=
  List.mem_flatMap.2 ⟨frame, List.mem_append_left _ framed, run⟩

/-- The instructions of what follows a history's first operation are instructions of the
history. -/
theorem mem_historyInstructions_of_rest {machine next start : Machine τ σ}
    {operation : Operation τ} {reply : Reply}
    (performed : machine.perform operation = some (reply, next)) {rest : List (Operation τ)}
    (run : start ∈ next.historyInstructions rest) :
    start ∈ machine.historyInstructions (operation :: rest) := by
  obtain ⟨frame, framed, run⟩ := List.mem_flatMap.1 run
  refine List.mem_flatMap.2 ⟨frame, ?_, run⟩
  rw [historyFrames, performed]
  exact List.mem_append_right _ framed

/-- The frames of a running machine. -/
theorem advanceFrames_of_running {machine : Machine τ σ} (running : machine.state = .running)
    (pass : Clock τ → Clock τ) :
    machine.advanceFrames pass =
      dueFrames
        (Scalar.withdrawals (pass machine.clock).unspent (pass machine.clock).frameTime)
        { machine with clock := pass machine.clock } := by
  unfold advanceFrames
  split
  · rfl
  · next stopped => exact absurd running stopped

/-- A running machine catches up with the time that passes. -/
theorem advance_of_running {machine : Machine τ σ} (running : machine.state = .running)
    (pass : Clock τ → Clock τ) :
    machine.advance pass =
      { machine with clock := pass machine.clock }.catchUp.map fun (frames, machine) =>
        (.ok frames, machine) := by
  unfold advance
  split
  · cases ({ machine with clock := pass machine.clock } : Machine τ σ).catchUp <;> rfl
  · next paused => rw [running] at paused; cases paused
  · next stopped _ => exact absurd running stopped

/-- If no frame is due, then none is run. -/
theorem catchUp_of_not_due {machine : Machine τ σ} (early : machine.clock.frameDue = false) :
    machine.catchUp = some (0, machine) := by
  unfold catchUp
  cases Scalar.withdrawals machine.clock.unspent machine.clock.frameTime with
  | zero | succ limit =>
    rw [runDueFrames, early]
    rfl

/-- A run of instructions ends with the budget spent. What its instructions keep, and idling after
a halt, holds at the end. -/
theorem keeps_runInstructions (holds : Machine τ σ → Prop) {limit : Nat}
    {machine after : Machine τ σ} (start : holds machine)
    (instruction : ∀ middle ∈ instructionsRun limit machine,
      middle.clock.budgetExhausted = false → holds middle → holds middle.runInstruction)
    (idle : ∀ middle ∈ instructionsRun limit machine,
      Processor.isHalted middle.runInstruction.cpu = true → holds middle.runInstruction →
        holds { middle.runInstruction with clock := middle.runInstruction.clock.idleToFrameEnd })
    (returned : runInstructions limit machine = some after) :
    after.clock.budgetExhausted = true ∧ holds after := by
  induction limit generalizing machine with
  | zero =>
    unfold runInstructions at returned
    split at returned
    · next exhausted =>
      cases returned
      exact ⟨exhausted, start⟩
    · cases returned
  | succ limit ih =>
    unfold runInstructions at returned
    unfold instructionsRun at instruction idle
    split at returned
    · next exhausted =>
      cases returned
      exact ⟨exhausted, start⟩
    · next unspent =>
      rw [if_neg unspent] at instruction idle
      have kept : holds machine.runInstruction :=
        instruction machine List.mem_cons_self (Bool.eq_false_iff.2 unspent) start
      dsimp only at returned
      split at returned
      · next halted =>
        cases returned
        exact ⟨Clock.budgetExhausted_idleToFrameEnd _, idle machine List.mem_cons_self halted kept⟩
      · next awake =>
        rw [if_neg awake] at instruction idle
        exact ih kept (fun middle run => instruction middle (List.mem_cons_of_mem _ run))
          (fun middle run => idle middle (List.mem_cons_of_mem _ run)) returned

/-- What every instruction keeps holds at the start of each instruction of a run. -/
theorem holds_of_mem_instructionsRun (holds : Machine τ σ → Prop) {limit : Nat}
    {machine middle : Machine τ σ} (start : holds machine)
    (instruction : ∀ middle : Machine τ σ, holds middle → holds middle.runInstruction)
    (run : middle ∈ instructionsRun limit machine) : holds middle := by
  induction limit generalizing machine with
  | zero => cases run
  | succ limit ih =>
    unfold instructionsRun at run
    split at run
    · cases run
    · cases run with
      | head => exact start
      | tail _ run =>
        split at run
        · cases run
        · exact ih (instruction _ start) run

/-- What each frame that is due keeps holds at the start of each of them and after the last. -/
theorem keeps_runDueFrames (holds : Machine τ σ → Prop) {limit : Nat} {machine : Machine τ σ}
    (start : holds machine)
    (frame : ∀ middle ∈ dueFrames limit machine, holds middle →
      ∀ after, middle.stepFrame = some after → holds after) :
    (∀ middle ∈ dueFrames limit machine, holds middle) ∧
    ∀ frames count after, runDueFrames limit frames machine = some (count, after) →
      holds after := by
  induction limit generalizing machine with
  | zero =>
    refine ⟨List.forall_mem_nil _, ?_⟩
    intro frames count after returned
    unfold runDueFrames at returned
    split at returned
    · cases returned
    · cases returned
      exact start
  | succ limit ih =>
    unfold dueFrames at frame ⊢
    unfold runDueFrames
    split
    · next due =>
      rw [if_pos due] at frame
      cases stepped : machine.stepFrame with
      | none =>
        exact ⟨List.forall_mem_singleton.2 start, fun _ _ _ returned => nomatch returned⟩
      | some next =>
        rw [stepped] at frame
        have kept : holds next := frame machine List.mem_cons_self start next stepped
        obtain ⟨starts, ends⟩ :=
          ih kept fun middle run => frame middle (List.mem_cons_of_mem _ run)
        exact ⟨List.forall_mem_cons.2 ⟨start, starts⟩, fun frames => ends (frames + 1)⟩
    · refine ⟨List.forall_mem_nil _, fun frames count after returned => ?_⟩
      cases returned
      exact start

/-- What the host's operations keep of processor and clock, frames aside. -/
structure Kept (holds : σ → Clock τ → Prop) : Prop where
  /-- The processor starts over. -/
  reset : ∀ {cpu clock}, holds cpu clock → holds (Processor.reset cpu) clock
  /-- The register file is replaced. -/
  setRegisters : ∀ {cpu clock} registers, holds cpu clock →
    holds (Processor.setRegisters registers cpu) clock
  /-- Unspent host time is forgotten. -/
  resetBaseline : ∀ {cpu clock}, holds cpu clock → holds cpu clock.resetBaseline
  /-- Host time passes. -/
  elapse : ∀ {cpu clock} delta, holds cpu clock → holds cpu (clock.elapse delta)
  /-- Host time passes up to a timestamp. -/
  elapseTo : ∀ {cpu clock} timestamp, holds cpu clock → holds cpu (clock.elapseTo timestamp)

namespace Kept

variable {holds : σ → Clock τ → Prop}

/-- What each frame keeps holds at the start of each frame that is run while host time passes,
and at the end. -/
theorem advance {machine : Machine τ σ} (pass : Clock τ → Clock τ)
    (start : holds machine.cpu machine.clock)
    (passed : holds machine.cpu (pass machine.clock))
    (frame : ∀ middle ∈ machine.advanceFrames pass, holds middle.cpu middle.clock →
      ∀ after, middle.stepFrame = some after → holds after.cpu after.clock) :
    (∀ middle ∈ machine.advanceFrames pass, holds middle.cpu middle.clock) ∧
    ∀ result after, machine.advance pass = some (result, after) →
      holds after.cpu after.clock := by
  unfold advanceFrames at frame ⊢
  unfold Machine.advance catchUp
  cases stage : machine.state with
  | running =>
    rw [stage] at frame
    dsimp only at frame ⊢
    obtain ⟨starts, ends⟩ :=
      keeps_runDueFrames (fun middle => holds middle.cpu middle.clock) passed frame
    refine ⟨starts, ?_⟩
    intro result after returned
    split at returned
    · cases returned
    · next caughtUp =>
      cases returned
      exact ends _ _ _ caughtUp
  | paused | uninitialized | loading =>
    refine ⟨List.forall_mem_nil _, ?_⟩
    intro result after returned
    cases returned
    exact start

/-- Loading firmware keeps what is kept. -/
theorem loadRom (kept : Kept holds) {machine : Machine τ σ}
    (start : holds machine.cpu machine.clock) (image : Array UInt8) :
    holds (machine.loadRom image).2.cpu (machine.loadRom image).2.clock := by
  unfold Machine.loadRom
  split
  · exact kept.resetBaseline (kept.reset start)
  · exact start

/-- Loading a snapshot keeps what is kept. -/
theorem loadSnapshot (kept : Kept holds) {machine : Machine τ σ}
    (start : holds machine.cpu machine.clock) (data : Array UInt8) :
    holds (machine.loadSnapshot data).2.cpu (machine.loadSnapshot data).2.clock := by
  unfold Machine.loadSnapshot
  split
  · rw [restore, cpu_withBus, clock_withBus]
    exact kept.setRegisters _ start
  · exact start

omit [Scalar τ] [Processor σ] in
/-- Pausing keeps whatever holds of processor and clock. -/
theorem pause {machine : Machine τ σ} (start : holds machine.cpu machine.clock) :
    holds machine.pause.2.cpu machine.pause.2.clock := by
  unfold Machine.pause
  split <;> exact start

/-- Resuming keeps what is kept. -/
theorem resume (kept : Kept holds) {machine : Machine τ σ}
    (start : holds machine.cpu machine.clock) :
    holds machine.resume.2.cpu machine.resume.2.clock := by
  unfold Machine.resume
  split
  · exact kept.resetBaseline start
  · exact start
  · exact start

omit [Scalar τ] [Processor σ] in
/-- A key keeps whatever holds of processor and clock. -/
theorem setCode {machine : Machine τ σ} (start : holds machine.cpu machine.clock)
    (code : UInt32) (down : Bool) :
    holds (machine.setCode code down).2.cpu (machine.setCode code down).2.clock := by
  unfold Machine.setCode
  generalize machine.bus.setCode code down = result
  exact start

omit [Scalar τ] [Processor σ] in
/-- Asking for sound samples keeps whatever holds of processor and clock. -/
theorem render {machine after : Machine τ σ} (start : holds machine.cpu machine.clock)
    {count : Nat} {reply : Reply} (rendered : machine.render count = some (reply, after)) :
    holds after.cpu after.clock := by
  unfold Machine.render at rendered
  split at rendered
  · cases rendered
    exact start
  · cases rendered
    exact start
  · cases rendered

omit [Scalar τ] [Processor σ] in
/-- Attaching a sound device keeps whatever holds of processor and clock. -/
theorem attachAudio {machine : Machine τ σ} (start : holds machine.cpu machine.clock)
    (started : Except Fault Unit) :
    holds (machine.attachAudio started).2.cpu (machine.attachAudio started).2.clock := by
  unfold Machine.attachAudio
  split <;> exact start

/-- An operation that runs no frames keeps what holds of the machine that it leaves. -/
theorem of_no_frames {machine next : Machine τ σ} {operation : Operation τ} {reply : Reply}
    (still : machine.operationFrames operation = [])
    (performed : machine.perform operation = some (reply, next))
    (kept : holds next.cpu next.clock) :
    (∀ middle ∈ machine.operationFrames operation, holds middle.cpu middle.clock) ∧
    ∀ reply after, machine.perform operation = some (reply, after) →
      holds after.cpu after.clock := by
  constructor
  · intro middle run
    rw [still] at run
    cases run
  · intro reply after performed'
    rw [performed] at performed'
    cases performed'
    exact kept

/-- What each frame keeps holds at the start of each frame of an operation, and after it. -/
theorem perform (kept : Kept holds) {machine : Machine τ σ} {operation : Operation τ}
    (start : holds machine.cpu machine.clock)
    (frame : ∀ middle ∈ machine.operationFrames operation, holds middle.cpu middle.clock →
      ∀ after, middle.stepFrame = some after → holds after.cpu after.clock) :
    (∀ middle ∈ machine.operationFrames operation, holds middle.cpu middle.clock) ∧
    ∀ reply after, machine.perform operation = some (reply, after) →
      holds after.cpu after.clock := by
  cases operation with
  | tick delta =>
    obtain ⟨starts, ends⟩ := advance (fun clock => clock.elapse delta) start
      (kept.elapse delta start) frame
    refine ⟨starts, ?_⟩
    intro reply after performed
    obtain ⟨⟨result, final⟩, returned, same⟩ := Option.map_eq_some_iff.1 performed
    cases same
    exact ends result _ returned
  | tickAt timestamp =>
    obtain ⟨starts, ends⟩ := advance (fun clock => clock.elapseTo timestamp) start
      (kept.elapseTo timestamp start) frame
    refine ⟨starts, ?_⟩
    intro reply after performed
    obtain ⟨⟨result, final⟩, returned, same⟩ := Option.map_eq_some_iff.1 performed
    cases same
    exact ends result _ returned
  | stepFrame =>
    refine ⟨List.forall_mem_singleton.2 start, ?_⟩
    intro reply after performed
    obtain ⟨final, returned, same⟩ := Option.map_eq_some_iff.1 performed
    cases same
    exact frame machine List.mem_cons_self start _ returned
  | loadRom image => exact of_no_frames rfl rfl (kept.loadRom start image)
  | loadSnapshot data => exact of_no_frames rfl rfl (kept.loadSnapshot start data)
  | pause => exact of_no_frames rfl rfl (pause start)
  | resume => exact of_no_frames rfl rfl (kept.resume start)
  | reset => exact of_no_frames rfl rfl (kept.reset start)
  | render count => exact ⟨List.forall_mem_nil _, fun _ _ performed => render start performed⟩
  | attachAudio started => exact of_no_frames rfl rfl (attachAudio start started)
  | key code down => exact of_no_frames rfl rfl (setCode start code down)
  | poke address value => exact of_no_frames rfl rfl start
  | loadRam first block =>
    apply of_no_frames rfl rfl
    rw [Machine.loadRam, cpu_withBus, clock_withBus]
    exact start

/-- What each frame keeps holds at the start of each frame of a history, and after it. -/
theorem performAll (kept : Kept holds) {machine : Machine τ σ} {history : List (Operation τ)}
    (start : holds machine.cpu machine.clock)
    (frame : ∀ middle ∈ machine.historyFrames history, holds middle.cpu middle.clock →
      ∀ after, middle.stepFrame = some after → holds after.cpu after.clock) :
    (∀ middle ∈ machine.historyFrames history, holds middle.cpu middle.clock) ∧
    ∀ replies after, machine.performAll history = some (replies, after) →
      holds after.cpu after.clock := by
  induction history generalizing machine with
  | nil =>
    refine ⟨List.forall_mem_nil _, ?_⟩
    intro replies after performed
    cases performed
    exact start
  | cons operation rest ih =>
    unfold historyFrames at frame ⊢
    obtain ⟨first, last⟩ := kept.perform start fun middle run =>
      frame middle (List.mem_append_left _ run)
    constructor
    · cases performed : machine.perform operation with
      | none =>
        rw [List.append_nil]
        exact first
      | some result =>
        rw [performed] at frame
        exact List.forall_mem_append.2 ⟨first, (ih (last result.1 result.2 performed)
          fun middle run => frame middle (List.mem_append_right _ run)).1⟩
    · intro replies after returned
      obtain ⟨reply, next, more, performed, done, same⟩ :=
        Machine.performAll_cons_eq_some.1 returned
      rw [performed] at frame
      exact (ih (last reply next performed) fun middle run =>
        frame middle (List.mem_append_right _ run)).2 more after done

end Kept

end Spectrum48.Machine
