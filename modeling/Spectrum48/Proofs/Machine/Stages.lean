import Spectrum48.Proofs.Machine.Interrupts
import Spectrum48.Proofs.Machine.Outcome

/-!
# The stages of a machine's life

A machine starts without firmware, and the first image of the right size sets it running for good:
from then on it is running or paused. What needs firmware is refused without it, and an image of
another size always is; whatever is refused leaves the machine as it was. While a machine is not
running, only a single frame that the host asks for makes it run instructions.
-/

namespace Spectrum48

/-- Whether a call runs an instruction. -/
def ProcessorCall.isInstruction : ProcessorCall → Bool
  | .instruction _ => true
  | .reset | .interrupt _ _ | .setRegisters _ => false

namespace Machine

variable {τ σ : Type}

/-! ### Stages -/

/-- Whether an operation loads firmware of the right size. -/
def Operation.isFirmware : Operation τ → Bool
  | .loadRom image => image.size == 0x4000
  | _ => false

/-- The stage after an operation. -/
def stageAfter (stage : RunState) : Operation τ → RunState
  | .loadRom image => if image.size = 0x4000 then .running else stage
  | .pause => if stage = .uninitialized then stage else .paused
  | .resume => if stage = .uninitialized then stage else .running
  | _ => stage

/-- What is refused leaves the stage as it was. -/
theorem stageAfter_of_refusal {stage : RunState} {operation : Operation τ} {fault : Fault}
    (reason : refusal? stage operation = some fault) : stageAfter stage operation = stage := by
  cases operation with
  | loadRom image =>
    by_cases fits : image.size = 0x4000
    · simp [refusal?, fits] at reason
    · simp [stageAfter, fits]
  | pause | resume =>
    by_cases missing : stage = .uninitialized
    · simp [stageAfter, missing]
    · simp [refusal?, refusalWithoutFirmware, missing] at reason
  | _ => rfl

/-- A machine without firmware stays so without firmware. -/
theorem stageAfter_uninitialized {operation : Operation τ} (other : operation.isFirmware = false) :
    stageAfter .uninitialized operation = .uninitialized := by
  cases operation with
  | loadRom image =>
    apply if_neg
    simpa [Operation.isFirmware] using other
  | _ => rfl

/-- Firmware sets any machine running. -/
theorem stageAfter_of_isFirmware (stage : RunState) {operation : Operation τ}
    (firmware : operation.isFirmware = true) : stageAfter stage operation = .running := by
  cases operation with
  | loadRom image =>
    apply if_pos
    simpa [Operation.isFirmware] using firmware
  | _ => cases firmware

/-- A machine that is running or paused stays so. -/
theorem stageAfter_live {stage : RunState} (live : stage = .running ∨ stage = .paused)
    (operation : Operation τ) :
    stageAfter stage operation = .running ∨ stageAfter stage operation = .paused := by
  cases operation with
  | loadRom image =>
    by_cases fits : image.size = 0x4000
    · exact .inl (if_pos fits)
    · simpa [stageAfter, fits] using live
  | pause | resume => obtain rfl | rfl := live <;> simp [stageAfter]
  | _ => exact live

/-- A machine that is running or paused stays so throughout. -/
theorem foldl_stageAfter_live {stage : RunState} (live : stage = .running ∨ stage = .paused)
    (history : List (Operation τ)) :
    history.foldl stageAfter stage = .running ∨ history.foldl stageAfter stage = .paused := by
  induction history generalizing stage with
  | nil => exact live
  | cons operation rest ih => exact ih (stageAfter_live live operation)

/-- The first firmware decides between a machine without firmware and one that is running or
paused. -/
theorem foldl_stageAfter (history : List (Operation τ)) :
    if history.any Operation.isFirmware then
      history.foldl stageAfter .uninitialized = .running ∨
        history.foldl stageAfter .uninitialized = .paused
    else history.foldl stageAfter .uninitialized = .uninitialized := by
  induction history with
  | nil => rfl
  | cons operation rest ih =>
    rw [List.any_cons, List.foldl_cons]
    cases first : operation.isFirmware with
    | true =>
      rw [stageAfter_of_isFirmware _ first, Bool.true_or, if_pos rfl]
      exact foldl_stageAfter_live (.inl rfl) rest
    | false =>
      rw [stageAfter_uninitialized first, Bool.false_or]
      exact ih

variable [Scalar τ] [Processor σ]

/-- A frame leaves the stage alone. -/
theorem state_stepFrame {machine after : Machine τ σ}
    (returned : machine.stepFrame = some after) : after.state = machine.state := by
  obtain ⟨ran, done, rfl⟩ := stepFrame_eq_some.1 returned
  rw [state_finishFrame]
  exact (keeps_runInstructions (fun middle => middle.state = machine.state) rfl
    (fun _ _ _ same => same) (fun _ _ _ same => same) done).2

/-- The frames that are due leave the stage alone. -/
theorem state_catchUp {machine after : Machine τ σ} {count : Nat}
    (returned : machine.catchUp = some (count, after)) : after.state = machine.state := by
  unfold catchUp at returned
  refine (keeps_runDueFrames (fun middle => middle.state = machine.state) rfl ?_).2 _ _ _ returned
  intro middle _ same next stepped
  exact (state_stepFrame stepped).trans same

omit [Scalar τ] [Processor σ] in
/-- Letting time pass is no change of stage. -/
theorem stageAfter_of_pass [Scalar τ] (stage : RunState) {operation : Operation τ}
    (passes : operation.pass?.isSome = true) : stageAfter stage operation = stage := by
  cases operation with
  | tick | tickAt => rfl
  | _ => cases passes

omit [Scalar τ] [Processor σ] in
/-- Another bus leaves the stage alone. -/
theorem state_withBus (machine : Machine τ σ) (bus : Bus τ) :
    (machine.withBus bus).state = machine.state := rfl

/-- An operation changes the stage as it should. -/
theorem Outcome.state {machine after : Machine τ σ} {operation : Operation τ} {reply : Reply}
    (outcome : machine.Outcome operation reply after) :
    after.state = stageAfter machine.state operation := by
  cases outcome with
  | refused reason => exact (stageAfter_of_refusal reason).symm
  | started fits => exact (if_pos fits).symm
  | caughtUp running passes ran =>
    rw [state_catchUp ran, stageAfter_of_pass _ (by rw [passes]; rfl)]
  | waited paused passes => rw [stageAfter_of_pass _ passes]
  | stepped ran => exact state_stepFrame ran
  | paused live => exact (if_neg live).symm
  | resumed paused | wentOn paused => simp [stageAfter, paused]
  | restored data live =>
    rw [restore, state_withBus]
    rfl
  | reset => rfl
  | typed code down => rfl
  | poked | filled =>
    rw [state_withBus]
    rfl
  | rendered => rfl
  | attached device running => rfl

/-- A machine is not in the course of loading firmware. -/
def Settled (machine : Machine τ σ) : Prop :=
  machine.state = .uninitialized ∨ machine.state = .running ∨ machine.state = .paused

omit [Scalar τ] [Processor σ] in
/-- A machine that is settled is not loading. -/
theorem Settled.between {machine : Machine τ σ} (settled : machine.Settled) :
    machine.state ≠ .loading := by
  intro loading
  simp [Settled, loading] at settled

/-- No operation leaves a machine in the course of loading firmware. -/
theorem Settled.perform {machine after : Machine τ σ} (settled : machine.Settled)
    {operation : Operation τ} {reply : Reply}
    (performed : machine.perform operation = some (reply, after)) : after.Settled := by
  unfold Settled
  rw [(outcome_of_perform settled.between performed).state]
  obtain without | live := settled
  · have decided := foldl_stageAfter [operation]
    rw [List.foldl_cons, List.foldl_nil, ← without] at decided
    split at decided
    · exact .inr decided
    · exact .inl (decided.trans without)
  · exact .inr (stageAfter_live live operation)

/-- No history leaves a machine in the course of loading firmware. -/
theorem Settled.performAll {machine after : Machine τ σ} (settled : machine.Settled)
    {history : List (Operation τ)} {replies : List Reply}
    (reached : machine.performAll history = some (replies, after)) : after.Settled := by
  induction history generalizing machine replies with
  | nil =>
    cases reached
    exact settled
  | cons operation rest ih =>
    obtain ⟨reply, next, more, performed, done, rfl⟩ := performAll_cons_eq_some.1 reached
    exact ih (settled.perform performed) done

/-- A history changes the stage operation by operation. -/
theorem state_performAll {machine after : Machine τ σ} (settled : machine.Settled)
    {history : List (Operation τ)} {replies : List Reply}
    (reached : machine.performAll history = some (replies, after)) :
    after.state = history.foldl stageAfter machine.state := by
  induction history generalizing machine replies with
  | nil =>
    cases reached
    rfl
  | cons operation rest ih =>
    obtain ⟨reply, next, more, performed, done, rfl⟩ := performAll_cons_eq_some.1 reached
    rw [List.foldl_cons, ← (outcome_of_perform settled.between performed).state]
    exact ih (settled.perform performed) done

/-! ### Refusals -/

omit [Scalar τ] [Processor σ] in
/-- What needs firmware is refused exactly without it, and with this cause. -/
theorem refusalWithoutFirmware_eq_some {stage : RunState} {operation : GuardedOperation}
    {fault : Fault} :
    refusalWithoutFirmware stage operation = some fault ↔
      stage = .uninitialized ∧ fault = .invalidState operation .uninitialized := by
  unfold refusalWithoutFirmware
  split
  · next missing => simp [missing, eq_comm]
  · next live => simp [live]

/-- What there is a cause to refuse is refused, and nothing else happens. -/
theorem perform_of_refusal {machine : Machine τ σ} {operation : Operation τ} {fault : Fault}
    (reason : refusal? machine.state operation = some fault) :
    machine.perform operation = some (.refused fault, machine) := by
  cases operation with
  | loadRom image =>
    by_cases fits : image.size = 0x4000
    · simp [refusal?, fits] at reason
    · have unloaded : machine.loadRom image =
          (.error (.romSize Memory.romSize image.size), machine) := if_neg fits
      obtain rfl : Fault.romSize 0x4000 image.size = fault := by
        simpa [refusal?, fits] using reason
      simp [perform, unloaded, Memory.romSize, Reply.ofUnit]
  | tick | tickAt =>
    obtain ⟨missing, rfl⟩ := refusalWithoutFirmware_eq_some.1 reason
    simp [perform, Machine.tick, Machine.tickAt, Machine.advance, refusal, missing,
      Reply.ofFrames]
  | loadSnapshot | pause | resume =>
    obtain ⟨missing, rfl⟩ := refusalWithoutFirmware_eq_some.1 reason
    simp [perform, Machine.loadSnapshot, Machine.pause, Machine.resume, hasFirmware, refusal,
      missing, Reply.ofUnit]
  | _ => cases reason

/-- An operation is refused exactly if there is a cause, and then the machine stays as it was. -/
theorem perform_eq_refused_iff {machine after : Machine τ σ} (between : machine.state ≠ .loading)
    {operation : Operation τ} {fault : Fault} :
    machine.perform operation = some (.refused fault, after) ↔
      refusal? machine.state operation = some fault ∧ after = machine := by
  constructor
  · intro performed
    cases outcome_of_perform between performed with
    | refused reason => exact ⟨reason, rfl⟩
    | rendered _ accepted => exact absurd rfl (accepted fault)
  · rintro ⟨reason, rfl⟩
    exact perform_of_refusal reason

/-! ### Machines that are not running -/

/-- The host's operations log no instruction. -/
theorem kept_instructions (made : List ProcessorCall) :
    Kept fun (cpu : Logged σ) (_ : Clock τ) =>
      cpu.calls.filter ProcessorCall.isInstruction = made where
  reset same := by
    rw [← same]
    exact (List.filter_append _ _).trans (List.append_nil _)
  setRegisters _ same := by
    rw [← same]
    exact (List.filter_append _ _).trans (List.append_nil _)
  resetBaseline := id
  elapse _ := id
  elapseTo _ := id

/-- While a machine is not running, time passes it by. -/
theorem advanceFrames_of_idle {machine : Machine τ σ} (idle : machine.state ≠ .running)
    (pass : Clock τ → Clock τ) : machine.advanceFrames pass = [] := by
  unfold advanceFrames
  split
  · next running => exact absurd running idle
  · rfl

/-- While a machine is not running, only the host's asking for a frame starts one. -/
theorem operationFrames_of_idle {machine : Machine τ σ} (idle : machine.state ≠ .running)
    {operation : Operation τ} (other : operation ≠ .stepFrame) :
    machine.operationFrames operation = [] := by
  cases operation with
  | tick delta => exact advanceFrames_of_idle idle fun clock => clock.elapse delta
  | tickAt timestamp => exact advanceFrames_of_idle idle fun clock => clock.elapseTo timestamp
  | stepFrame => exact absurd rfl other
  | _ => rfl

/-- While a machine is not running, no operation but a frame makes it run an instruction. -/
theorem instructions_of_idle {machine after : Machine τ σ} (idle : machine.state ≠ .running)
    {operation : Operation τ} (other : operation ≠ .stepFrame) {reply : Reply}
    (performed : machine.perform operation = some (reply, after)) (calls : List ProcessorCall) :
    ∃ later, (machine.withCalls calls).perform operation = some (reply, after.withCalls later) ∧
      later.filter ProcessorCall.isInstruction = calls.filter ProcessorCall.isInstruction := by
  have alone : machine.performAll [operation] = some ([reply], after) :=
    performAll_cons_eq_some.2 ⟨reply, after, [], performed, rfl, rfl⟩
  obtain ⟨later, ran⟩ := performAll_withCalls alone calls
  obtain ⟨told, next, more, logged, done, same⟩ := performAll_cons_eq_some.1 ran
  cases done
  cases same
  have idle : (machine.withCalls calls).state ≠ .running := idle
  have start : (machine.withCalls calls).cpu.calls.filter ProcessorCall.isInstruction =
      calls.filter ProcessorCall.isInstruction := rfl
  refine ⟨later, logged, ((kept_instructions _).perform start ?_).2 _ _ logged⟩
  rw [operationFrames_of_idle idle other]
  exact List.forall_mem_nil _

/-! ### Every history -/

/-- An operation on a machine makes its processor run no instruction, counts no frame and no
cycle, and gathers no host time. -/
structure StandsStill (machine : Machine τ σ) (operation : Operation τ) (reply : Reply)
    (after : Machine τ σ) : Prop where
  /-- A log of the processor's calls gets no further instruction. -/
  instructions : ∀ calls, ∃ later,
    (machine.withCalls calls).perform operation = some (reply, after.withCalls later) ∧
      later.filter ProcessorCall.isInstruction = calls.filter ProcessorCall.isInstruction
  /-- No frame is counted. -/
  frameCount : after.clock.frameCount = machine.clock.frameCount
  /-- No cycle is counted in the frame. -/
  cycleCount : after.clock.cycleCount = machine.clock.cycleCount
  /-- No cycle is counted in all frames. -/
  totalCycles : after.clock.totalCycles = machine.clock.totalCycles
  /-- Unspent host time stays, or is forgotten together with the host's timestamp. -/
  hostTime : after.clock.unspent = machine.clock.unspent ∧
      after.clock.lastTimestamp = machine.clock.lastTimestamp ∨
    after.clock.unspent = Scalar.zero ∧ after.clock.lastTimestamp = none

/-- An operation on a machine that is not running leaves its clock alone or forgets the host's
time. -/
theorem Outcome.clock_of_idle {machine after : Machine τ σ} {operation : Operation τ}
    {reply : Reply} (outcome : machine.Outcome operation reply after)
    (idle : machine.state ≠ .running) (other : operation ≠ .stepFrame) :
    after.clock = machine.clock ∨ after.clock = machine.clock.resetBaseline := by
  cases outcome with
  | caughtUp running => exact absurd running idle
  | stepped => exact absurd rfl other
  | started | resumed => exact .inr rfl
  | restored data live =>
    left
    rw [restore, clock_withBus]
  | poked | filled =>
    left
    rw [clock_withBus]
  | refused | waited | paused | wentOn | reset | typed | attached => exact .inl rfl
  | rendered => exact .inl rfl

/-- A machine that is not running stands still, whatever the host does but run a frame. -/
theorem standsStill_of_idle {machine after : Machine τ σ} (between : machine.state ≠ .loading)
    (idle : machine.state ≠ .running) {operation : Operation τ} (other : operation ≠ .stepFrame)
    {reply : Reply} (performed : machine.perform operation = some (reply, after)) :
    machine.StandsStill operation reply after := by
  have logs := instructions_of_idle idle other performed
  obtain same | forgotten := (outcome_of_perform between performed).clock_of_idle idle other
  · refine ⟨logs, ?_, ?_, ?_, .inl ⟨?_, ?_⟩⟩ <;> rw [same]
  · refine ⟨logs, ?_, ?_, ?_, .inr ⟨?_, ?_⟩⟩ <;> rw [forgotten] <;> rfl

/-- An operation on a machine that is not running returns, unless it is a frame or asks for
sound. -/
theorem returns_of_idle {machine : Machine τ σ} (idle : machine.state ≠ .running)
    {operation : Operation τ} (other : operation ≠ .stepFrame)
    (silent : operation.isRender = false) :
    ∃ reply after, machine.perform operation = some (reply, after) := by
  have waits (pass : Clock τ → Clock τ) :
      ∃ result, machine.advance pass = some (result, machine) := by
    unfold advance
    split
    · next running => exact absurd running idle
    · exact ⟨_, rfl⟩
    · exact ⟨_, rfl⟩
  cases operation with
  | tick delta =>
    obtain ⟨result, waited⟩ := waits fun clock => clock.elapse delta
    exact ⟨.ofFrames result, machine, by rw [perform, tick, waited]; rfl⟩
  | tickAt timestamp =>
    obtain ⟨result, waited⟩ := waits fun clock => clock.elapseTo timestamp
    exact ⟨.ofFrames result, machine, by rw [perform, tickAt, waited]; rfl⟩
  | stepFrame => exact absurd rfl other
  | render => cases silent
  | _ => exact ⟨_, _, rfl⟩

/-- After every history of a new machine: it is without firmware exactly as long as no image of
the right size was loaded, is running or paused ever after, and is never seen to load. The next
operation is refused exactly if it loads an image of another size, or needs firmware that is
missing; the refusal tells which, and leaves the whole machine as it was. If the machine is not
running, every operation but a frame stands still. -/
theorem stages_of_history (config : Config τ) (cpu : σ) {machine : Machine τ σ}
    (built : build config cpu = .ok machine) {history : List (Operation τ)}
    {replies : List Reply} {after : Machine τ σ}
    (reached : machine.performAll history = some (replies, after)) :
    (after.state = history.foldl stageAfter .uninitialized ∧
      after.state ≠ .loading ∧
      if history.any Operation.isFirmware then after.state = .running ∨ after.state = .paused
      else after.state = .uninitialized) ∧
    (∀ operation fault next, after.perform operation = some (.refused fault, next) ↔
      refusal? after.state operation = some fault ∧ next = after) ∧
    (after.state ≠ .running → ∀ operation, operation ≠ .stepFrame →
      (operation.isRender = false →
        ∃ reply next, after.perform operation = some (reply, next)) ∧
      ∀ reply next, after.perform operation = some (reply, next) →
        after.StandsStill operation reply next) := by
  have new := eq_new_of_build built
  have stage : after.state = history.foldl stageAfter .uninitialized := by
    have start : machine.state = .uninitialized := by
      rw [new]
      rfl
    rw [state_performAll (.inl start) reached, start]
  have decided := foldl_stageAfter history
  rw [← stage] at decided
  have between : after.state ≠ .loading := by
    intro loading
    rw [loading] at decided
    split at decided <;> simp at decided
  refine ⟨⟨stage, between, decided⟩, fun operation fault next => perform_eq_refused_iff between, ?_⟩
  intro idle operation other
  exact ⟨returns_of_idle idle other, fun reply next => standsStill_of_idle between idle other⟩

/-- A machine that gets its firmware at the second attempt and is paused: it refuses time before
that, refuses other firmware afterwards, and stands still while time passes. -/
theorem stages_of_history_of_late_firmware :
    ∃ (machine : Machine Float Scripted) (replies : List Reply) (after : Machine Float Scripted),
      build .standard (.ofScript #[] false false) = .ok machine ∧
      machine.performAll
          [.tick 20, .loadRom #[], .loadRom (Array.replicate 0x4000 0xC9), .pause] =
        some (replies, after) ∧
      after.state = .paused ∧
      after.perform (.loadRom #[0xC9]) = some (.refused (.romSize 0x4000 1), after) ∧
      (∀ fault next, after.perform .pause ≠ some (.refused fault, next)) ∧
      ∃ reply next, after.perform (.tick 20) = some (reply, next) ∧
        after.StandsStill (.tick 20) reply next := by
  have valid : (Config.standard : Config Float).Valid := by decide +kernel
  have built := build_eq_new valid (Scripted.ofScript #[] false false)
  generalize image : Array.replicate 0x4000 (0xC9 : UInt8) = firmware
  have fits : firmware.size = Memory.romSize := by
    rw [← image, Array.size_replicate, Memory.romSize]
  let start : Machine Float Scripted := new .standard (.ofScript #[] false false)
  have first : start.perform (.tick 20) =
      some (.refused (.invalidState .tick .uninitialized), start) := perform_of_refusal rfl
  have second : start.perform (.loadRom #[]) =
      some (.refused (.romSize 0x4000 0), start) := perform_of_refusal rfl
  have third : start.perform (.loadRom firmware) = some (.done, start.started firmware) := by
    have loaded : start.loadRom firmware = (.ok (), start.started firmware) := if_pos fits
    rw [perform, loaded]
    rfl
  obtain ⟨after, last⟩ : ∃ after, (start.started firmware).perform .pause = some (.done, after) :=
    ⟨_, rfl⟩
  have reached : start.performAll [.tick 20, .loadRom #[], .loadRom firmware, .pause] =
      some ([.refused (.invalidState .tick .uninitialized), .refused (.romSize 0x4000 0), .done,
        .done], after) := by
    simp only [performAll, first, second, third, last]
  obtain ⟨⟨stage, -, -⟩, refusals, idle⟩ := stages_of_history _ _ built reached
  have paused : ([.tick 20, .loadRom #[], .loadRom firmware, .pause] :
      List (Operation Float)).foldl stageAfter .uninitialized = .paused := by
    simp [stageAfter, show firmware.size = 0x4000 from fits]
  rw [paused] at stage
  have stands := idle (by rw [stage]; decide) (.tick 20) (by simp)
  obtain ⟨reply, next, ticked⟩ := stands.1 rfl
  refine ⟨_, _, _, built, reached, stage, (refusals _ _ _).2 ⟨rfl, rfl⟩, ?_, reply, next, ticked,
    stands.2 reply next ticked⟩
  intro fault next refused
  have cause := ((refusals _ _ _).1 refused).1
  rw [stage] at cause
  cases cause

end Machine

end Spectrum48
