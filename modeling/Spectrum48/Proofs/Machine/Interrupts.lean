import Mathlib.Algebra.BigOperators.Group.Finset.Basic
import Mathlib.Data.List.Basic
import Mathlib.Data.Nat.Find
import Mathlib.Order.Bounds.Basic
import Spectrum48.Proofs.Machine.Cycles
import Spectrum48.Proofs.Machine.Likeness
import Spectrum48.Proofs.Machine.Unseen

/-!
# What a frame asks of the processor

A frame runs instructions, one after the other, until the cycles of the frame are spent or the
processor is found halted after an instruction, and then raises one interrupt. How many instructions
that takes is told by what they cost. Nothing but frames raises interrupts, so these count the
frames.
-/

namespace Spectrum48

namespace Clock

variable {τ : Type}

/-- Once the cycles of a frame are spent, there is nothing to idle for. -/
theorem idleToFrameEnd_of_spent {clock : Clock τ} (spent : clock.budgetExhausted = true) :
    clock.idleToFrameEnd = clock := by
  have nothing : (clock.cyclesPerFrame - clock.cycleCount).toNat = 0 := by
    rw [budgetExhausted_iff] at spent
    omega
  rw [idleToFrameEnd, nothing, addCycles, Int.natCast_zero, Int.add_zero, Nat.add_zero]

end Clock

namespace Machine

variable {τ σ : Type} [Scalar τ] [Processor σ]

/-! ### What instructions cost -/

/-- The accesses of the next instruction, with the bytes that answer them. -/
def instructionTrace (machine : Machine τ σ) : List (BusAccess × UInt8) :=
  Bus.trace (Processor.instruction machine.cpu) (machine.bus.beginInstruction machine.clock.now)

/-- What the next instruction costs: the cycles that it returns, and the extra cycles of contended
memory for each access to it. -/
def cost (machine : Machine τ σ) : Nat :=
  machine.returnedCycles + machine.bus.memory.contentionPenalty *
    machine.instructionTrace.countP fun made => made.1.isContended

/-- The machine after a number of instructions in a row. -/
def afterInstructions (machine : Machine τ σ) (count : Nat) : Machine τ σ :=
  runInstruction^[count] machine

/-- The cycles spent in the frame after a number of instructions: what was carried into it and what
the instructions cost. -/
def spentAfter (machine : Machine τ σ) (count : Nat) : Int :=
  machine.clock.cycleCount +
    ∑ done ∈ Finset.range count, ((machine.afterInstructions done).cost : Int)

/-- Whether a number of instructions ends the frame: its cycles are spent, or the processor is
halted after the last of them. -/
def FrameEnds (machine : Machine τ σ) (count : Nat) : Prop :=
  machine.clock.cyclesPerFrame ≤ machine.spentAfter count ∨
    0 < count ∧ Processor.isHalted (machine.afterInstructions count).cpu = true

/-- Whether a number of instructions ends the frame is decided by running them. -/
instance (machine : Machine τ σ) : DecidablePred machine.FrameEnds := fun _ =>
  inferInstanceAs (Decidable (_ ∨ _))

/-- What is left of the frame is spent idly. -/
def idle (machine : Machine τ σ) : Machine τ σ :=
  { machine with clock := machine.clock.idleToFrameEnd }

omit [Scalar τ] [Processor σ] in
/-- Once the cycles of a frame are spent, idling changes nothing. -/
theorem idle_of_spent {machine : Machine τ σ} (spent : machine.clock.budgetExhausted = true) :
    machine.idle = machine := by
  rw [idle, Clock.idleToFrameEnd_of_spent spent]

/-- An instruction spends what it costs. -/
theorem instructionCycles_eq_cost (machine : Machine τ σ) :
    machine.instructionCycles = machine.cost := by
  have charged := Bus.contention_run (Processor.instruction machine.cpu)
    (machine.bus.beginInstruction machine.clock.now)
  rw [instructionCycles_eq, extraCycles, charged]
  exact congrArg _ (Nat.zero_add _)

/-- The next instruction comes after the others. -/
theorem afterInstructions_succ (machine : Machine τ σ) (count : Nat) :
    machine.afterInstructions (count + 1) = (machine.afterInstructions count).runInstruction :=
  Function.iterate_succ_apply' _ _ _

/-- The first instruction comes before the others. -/
theorem afterInstructions_succ' (machine : Machine τ σ) (count : Nat) :
    machine.afterInstructions (count + 1) = machine.runInstruction.afterInstructions count :=
  Function.iterate_succ_apply _ _ _

/-- Instructions leave the budget of a frame alone. -/
theorem cyclesPerFrame_afterInstructions (machine : Machine τ σ) (count : Nat) :
    (machine.afterInstructions count).clock.cyclesPerFrame = machine.clock.cyclesPerFrame := by
  induction count with
  | zero => rfl
  | succ count ih =>
    rw [afterInstructions_succ, clock_runInstruction]
    exact ih

/-- The clock counts what instructions cost. -/
theorem cycleCount_afterInstructions (machine : Machine τ σ) (count : Nat) :
    (machine.afterInstructions count).clock.cycleCount = machine.spentAfter count := by
  induction count with
  | zero => exact (Int.add_zero _).symm
  | succ count ih =>
    rw [afterInstructions_succ, clock_runInstruction, instructionCycles_eq_cost, spentAfter,
      Finset.sum_range_succ, ← Int.add_assoc]
    exact congrArg (· + _) ih

/-- What is spent can be counted from the second instruction on. -/
theorem spentAfter_succ (machine : Machine τ σ) (count : Nat) :
    machine.spentAfter (count + 1) = machine.runInstruction.spentAfter count := by
  rw [← cycleCount_afterInstructions, ← cycleCount_afterInstructions, afterInstructions_succ']

/-! ### How a frame ends -/

/-- No instructions end the frame if its cycles are spent already. -/
theorem frameEnds_zero {machine : Machine τ σ} :
    machine.FrameEnds 0 ↔ machine.clock.budgetExhausted = true := by
  simp [FrameEnds, spentAfter, Clock.budgetExhausted_iff]

/-- One instruction ends the frame if the processor is halted after it. -/
theorem frameEnds_one_of_halted {machine : Machine τ σ}
    (halted : Processor.isHalted machine.runInstruction.cpu = true) : machine.FrameEnds 1 :=
  .inr ⟨Nat.one_pos, halted⟩

/-- While the processor is awake, how the frame ends can be told from the second instruction on. -/
theorem frameEnds_succ {machine : Machine τ σ}
    (awake : Processor.isHalted machine.runInstruction.cpu = false) (count : Nat) :
    machine.FrameEnds (count + 1) ↔ machine.runInstruction.FrameEnds count := by
  have budget : machine.runInstruction.clock.cyclesPerFrame = machine.clock.cyclesPerFrame := rfl
  unfold FrameEnds
  rw [spentAfter_succ, afterInstructions_succ', budget]
  cases count with
  | zero =>
    have same : machine.runInstruction.afterInstructions 0 = machine.runInstruction := rfl
    rw [same, awake]
    simp
  | succ count => simp

/-- The instructions of a frame are as many as end it, and no more. -/
theorem runInstructions_of_frameEnds {machine : Machine τ σ} {count limit : Nat}
    (least : IsLeast {count | machine.FrameEnds count} count) (enough : count ≤ limit) :
    runInstructions limit machine = some (machine.afterInstructions count).idle := by
  -- The first instruction is run here; what is left of the frame is a frame of the machine after
  -- it, unless that finds the processor halted.
  induction limit generalizing machine count with
  | zero =>
    obtain rfl := Nat.le_zero.1 enough
    have spent := frameEnds_zero.1 least.1
    rw [runInstructions, if_pos spent]
    exact congrArg some (idle_of_spent spent).symm
  | succ limit ih =>
    unfold runInstructions
    split
    · next spent =>
      obtain rfl := Nat.le_zero.1 (least.2 (frameEnds_zero.2 spent))
      exact congrArg some (idle_of_spent spent).symm
    · next unspent =>
      obtain ⟨count, rfl⟩ : ∃ more, count = more + 1 := by
        refine Nat.exists_eq_add_one_of_ne_zero ?_
        rintro rfl
        exact unspent (frameEnds_zero.1 least.1)
      dsimp only
      split
      · next halted =>
        have one := least.2 (frameEnds_one_of_halted halted)
        obtain rfl : count = 0 := by omega
        rfl
      · next awake =>
        have next := frameEnds_succ (Bool.eq_false_iff.2 awake)
        rw [afterInstructions_succ']
        refine ih ⟨(next count).1 least.1, fun other ends => ?_⟩ (Nat.le_of_succ_le_succ enough)
        exact Nat.le_of_succ_le_succ (least.2 ((next other).2 ends))

/-- Instructions that cost a cycle each spend as many cycles as they are. -/
theorem le_spentAfter {machine : Machine τ σ} {count : Nat}
    (costly : ∀ done < count, 1 ≤ (machine.afterInstructions done).cost) :
    machine.clock.cycleCount + count ≤ machine.spentAfter count := by
  induction count with
  | zero => simp [spentAfter]
  | succ count ih =>
    have sofar := ih fun done before => costly done (before.trans (Nat.lt_succ_self _))
    have cost := costly count (Nat.lt_succ_self _)
    rw [spentAfter] at sofar ⊢
    rw [Finset.sum_range_succ]
    omega

/-- If every instruction that is run before the frame ends costs a cycle, then the frame ends, and
after no more instructions than it has cycles left. -/
theorem exists_frameEnds {machine : Machine τ σ}
    (costly : ∀ count, (∀ earlier ≤ count, ¬ machine.FrameEnds earlier) →
      1 ≤ (machine.afterInstructions count).cost) :
    ∃ count, IsLeast {count | machine.FrameEnds count} count ∧
      count ≤ (machine.clock.cyclesPerFrame - machine.clock.cycleCount).toNat := by
  obtain ⟨bound, within, ends⟩ : ∃ bound,
      bound ≤ (machine.clock.cyclesPerFrame - machine.clock.cycleCount).toNat ∧
        machine.FrameEnds bound := by
    -- Otherwise each of as many instructions as there are cycles left spends at least one of them.
    by_contra never
    push Not at never
    have spent := le_spentAfter fun done before =>
      costly done fun earlier sooner => never earlier (sooner.trans before.le)
    exact never _ le_rfl (.inl (by omega))
  exact ⟨Nat.find ⟨bound, ends⟩, ⟨Nat.find_spec _, fun other ends => Nat.find_min' _ ends⟩,
    (Nat.find_min' _ ends).trans within⟩

/-- A frame runs as many instructions as end it, idles, and finishes. -/
theorem stepFrame_of_frameEnds {machine : Machine τ σ} {count : Nat}
    (least : IsLeast {count | machine.FrameEnds count} count)
    (enough : count ≤ machine.instructionLimit) :
    machine.stepFrame = some (machine.afterInstructions count).idle.finishFrame := by
  rw [stepFrame, runInstructions_of_frameEnds least enough, Option.map_some]

/-- What a frame carries into the next one is what its instructions overspent. -/
theorem cycleCount_finishFrame_idle (machine : Machine τ σ) (count : Nat) :
    (machine.afterInstructions count).idle.finishFrame.clock.cycleCount =
      max (machine.spentAfter count - machine.clock.cyclesPerFrame) 0 := by
  rw [clock_finishFrame, Clock.cycleCount_endFrame]
  simp only [idle, Clock.idleToFrameEnd, Clock.addCycles, cyclesPerFrame_afterInstructions,
    cycleCount_afterInstructions]
  omega

/-! ### What is logged -/

/-- A processor with a log logs its instruction. -/
theorem runInstruction_withCalls (machine : Machine τ σ) (calls : List ProcessorCall) :
    (machine.withCalls calls).runInstruction =
      machine.runInstruction.withCalls (calls ++ [.instruction machine.instructionTrace]) := by
  rw [runInstruction_eq, runInstruction_eq]
  change afterProgram _ (Bus.run ((Processor.instruction machine.cpu).recorded.map _)
    (machine.bus.beginInstruction machine.clock.now)) = _
  rw [Bus.run_map, Bus.run_recorded]
  rfl

/-- The instructions of a machine, as its processor logs them. -/
def instructionCalls (machine : Machine τ σ) (count : Nat) : List ProcessorCall :=
  (List.range count).map fun done => .instruction (machine.afterInstructions done).instructionTrace

/-- A processor with a log logs all its instructions. -/
theorem afterInstructions_withCalls (machine : Machine τ σ) (calls : List ProcessorCall)
    (count : Nat) :
    (machine.withCalls calls).afterInstructions count =
      (machine.afterInstructions count).withCalls (calls ++ machine.instructionCalls count) := by
  induction count with
  | zero =>
    rw [instructionCalls, List.range_zero, List.map_nil, List.append_nil]
    rfl
  | succ count ih =>
    rw [afterInstructions_succ, ih, runInstruction_withCalls, afterInstructions_succ,
      List.append_assoc, instructionCalls, instructionCalls, List.range_succ, List.map_append]
    rfl

/-- A frame ends alike whether there is a log or not. -/
theorem frameEnds_withCalls (machine : Machine τ σ) (calls : List ProcessorCall) (count : Nat) :
    (machine.withCalls calls).FrameEnds count ↔ machine.FrameEnds count := by
  unfold FrameEnds
  rw [← cycleCount_afterInstructions, ← cycleCount_afterInstructions, afterInstructions_withCalls]
  rfl

/-- A processor with a log logs the interrupt of a frame. -/
theorem finishFrame_withCalls (machine : Machine τ σ) (calls : List ProcessorCall) :
    (machine.withCalls calls).finishFrame =
      machine.finishFrame.withCalls (calls ++ [.interrupt false 0]) := by
  have shown (closed : Machine τ σ) (drawn : Except Fault Video.Picture) :
      ((closed.withCalls calls).showDrawn drawn).interrupt =
        (closed.showDrawn drawn).interrupt.withCalls (calls ++ [.interrupt false 0]) := by
    cases drawn with
    | ok _ | error _ => rfl
  exact shown machine.closeFrame _

/-- A processor with a log logs the instructions of a frame and its interrupt. -/
theorem stepFrame_withCalls {machine : Machine τ σ} {count : Nat}
    (least : IsLeast {count | machine.FrameEnds count} count)
    (enough : count ≤ machine.instructionLimit) (calls : List ProcessorCall) :
    (machine.withCalls calls).stepFrame =
      some ((machine.afterInstructions count).idle.finishFrame.withCalls
        (calls ++ machine.instructionCalls count ++ [.interrupt false 0])) := by
  have same : {count | (machine.withCalls calls).FrameEnds count} =
      {count | machine.FrameEnds count} :=
    Set.ext fun other => machine.frameEnds_withCalls calls other
  rw [← same] at least
  rw [stepFrame_of_frameEnds least enough, afterInstructions_withCalls]
  have idle (ran : Machine τ σ) (calls : List ProcessorCall) :
      (ran.withCalls calls).idle = ran.idle.withCalls calls := rfl
  rw [idle, finishFrame_withCalls]

/-! ### Frames and interrupts -/

/-- The frames that a reply tells. -/
def Reply.framesTold : Reply → Nat
  | .frames count => count
  | _ => 0

/-- The frames that an operation ran, as its reply tells. -/
def framesRun : Operation τ → Reply → Nat
  | .tick _, reply | .tickAt _, reply => reply.framesTold
  | .stepFrame, _ => 1
  | _, _ => 0

/-- The frames that a history ran, as its replies tell. -/
def historyFramesRun (history : List (Operation τ)) (replies : List Reply) : Nat :=
  ((history.zip replies).map fun (operation, reply) => framesRun operation reply).sum

/-- A frame is counted. -/
theorem frameCount_stepFrame {machine after : Machine τ σ}
    (returned : machine.stepFrame = some after) :
    after.clock.frameCount = machine.clock.frameCount + 1 := by
  obtain ⟨ran, done, rfl⟩ := stepFrame_eq_some.1 returned
  have same := (keeps_runInstructions
    (fun middle => middle.clock.frameCount = machine.clock.frameCount) rfl
    (fun _ _ _ same => same) (fun _ _ _ same => same) done).2
  rw [clock_finishFrame, Clock.frameCount_endFrame, same]

/-- The frames that are due are counted. -/
theorem frameCount_runDueFrames {limit frames count : Nat} {machine after : Machine τ σ}
    (returned : runDueFrames limit frames machine = some (count, after)) :
    after.clock.frameCount + frames = machine.clock.frameCount + count := by
  induction limit generalizing machine frames with
  | zero =>
    unfold runDueFrames at returned
    split at returned
    · cases returned
    · cases returned
      rfl
  | succ limit ih =>
    unfold runDueFrames at returned
    split at returned
    · split at returned
      · cases returned
      · next next stepped =>
        have later := ih returned
        rw [frameCount_stepFrame stepped] at later
        omega
    · cases returned
      rfl

/-- Frames that are run while host time passes are told. -/
theorem frameCount_advance {machine after : Machine τ σ} {pass : Clock τ → Clock τ}
    (same : (pass machine.clock).frameCount = machine.clock.frameCount)
    {result : Except Fault Nat} (returned : machine.advance pass = some (result, after)) :
    after.clock.frameCount = machine.clock.frameCount + (Reply.ofFrames result).framesTold := by
  cases stage : machine.state with
  | running =>
    rw [advance_of_running stage] at returned
    obtain ⟨⟨count, next⟩, caughtUp, returned⟩ := Option.map_eq_some_iff.1 returned
    cases returned
    exact (frameCount_runDueFrames caughtUp).trans (congrArg (· + count) same)
  | paused | uninitialized | loading =>
    unfold advance at returned
    rw [stage] at returned
    cases returned
    rfl

/-- Frames are counted as the replies tell. -/
theorem frameCount_perform {machine after : Machine τ σ} {operation : Operation τ} {reply : Reply}
    (performed : machine.perform operation = some (reply, after)) :
    after.clock.frameCount = machine.clock.frameCount + framesRun operation reply := by
  have kept : Kept fun (_ : σ) (clock : Clock τ) =>
      clock.frameCount = machine.clock.frameCount :=
    .ofCounters fun start _ _ frames _ => frames.trans start
  cases operation with
  | tick delta =>
    obtain ⟨⟨result, next⟩, passed, returned⟩ := Option.map_eq_some_iff.1 performed
    cases returned
    exact frameCount_advance rfl passed
  | tickAt timestamp =>
    obtain ⟨⟨result, next⟩, passed, returned⟩ := Option.map_eq_some_iff.1 performed
    cases returned
    refine frameCount_advance ?_ passed
    obtain ⟨unspent, only⟩ := machine.clock.elapseTo_eq timestamp
    rw [only]
  | stepFrame =>
    obtain ⟨next, stepped, returned⟩ := Option.map_eq_some_iff.1 performed
    cases returned
    exact frameCount_stepFrame stepped
  | _ => exact (kept.perform rfl (List.forall_mem_nil _)).2 _ _ performed

/-- A history's frames are counted as its replies tell. -/
theorem frameCount_performAll {machine after : Machine τ σ} {history : List (Operation τ)}
    {replies : List Reply} (reached : machine.performAll history = some (replies, after)) :
    after.clock.frameCount = machine.clock.frameCount + historyFramesRun history replies := by
  induction history generalizing machine replies with
  | nil =>
    cases reached
    rfl
  | cons operation rest ih =>
    obtain ⟨reply, next, more, performed, done, rfl⟩ := performAll_cons_eq_some.1 reached
    rw [ih done, frameCount_perform performed, Nat.add_assoc]
    rfl

/-- The interrupts in a log, of which all are maskable and put nothing on the data bus, are as many
as the completed frames. -/
def InterruptsCounted (cpu : Logged σ) (clock : Clock τ) : Prop :=
  cpu.calls.filter ProcessorCall.isInterrupt =
    List.replicate clock.frameCount (.interrupt false 0)

omit [Scalar τ] [Processor σ] in
/-- Calls other than interrupts need not be counted. -/
theorem InterruptsCounted.log {logged : Logged σ} {clock : Clock τ}
    (counted : InterruptsCounted logged clock) {call : ProcessorCall}
    (silent : call.isInterrupt = false) (cpu : σ) :
    InterruptsCounted (logged.log call cpu) clock := by
  rw [InterruptsCounted, Logged.log, List.filter_append, List.filter_singleton, silent, counted]
  exact List.append_nil _

/-- The host's operations raise no interrupts. -/
theorem kept_interruptsCounted :
    Kept fun (cpu : Logged σ) (clock : Clock τ) => InterruptsCounted cpu clock where
  reset counted := counted.log rfl _
  setRegisters _ counted := counted.log rfl _
  resetBaseline := id
  elapse _ := id
  elapseTo {_ clock} timestamp counted := by
    obtain ⟨unspent, only⟩ := clock.elapseTo_eq timestamp
    rw [only]
    exact counted

/-- A frame raises one interrupt. -/
theorem interruptsCounted_stepFrame {machine after : Machine τ (Logged σ)}
    (counted : InterruptsCounted machine.cpu machine.clock)
    (returned : machine.stepFrame = some after) : InterruptsCounted after.cpu after.clock := by
  obtain ⟨ran, done, rfl⟩ := stepFrame_eq_some.1 returned
  have counted : InterruptsCounted ran.cpu ran.clock := by
    refine (keeps_runInstructions (fun middle => InterruptsCounted middle.cpu middle.clock) counted
      (fun middle _ _ counted => ?_) (fun _ _ _ counted => counted) done).2
    have logs := (middle.map Logged.cpu).runInstruction_withCalls middle.cpu.calls
    change middle.runInstruction = _ at logs
    rw [logs]
    exact counted.log rfl _
  rw [cpu_finishFrame, clock_finishFrame, InterruptsCounted, Clock.frameCount_endFrame,
    List.replicate_succ', ← counted]
  exact List.filter_append _ _

/-- After every history of a new machine, the interrupts that were raised are as many as the
completed frames, and as many as the replies tell: none of them non-maskable, none with a byte on
the data bus. If its instructions cost a cycle each, the next frame runs the least number of them
that ends it. It idles if that leaves cycles, so that nothing is carried into the frame after it,
and carries what is overspent otherwise. Once it has redrawn the picture it raises one
interrupt. -/
theorem interrupts_after_history (config : Config τ) (cpu : σ) {machine : Machine τ σ}
    (built : build config cpu = .ok machine) {history : List (Operation τ)}
    {replies : List Reply} {after : Machine τ σ}
    (reached : machine.performAll history = some (replies, after)) :
    (∃ calls, machine.logged.performAll history = some (replies, after.withCalls calls) ∧
      calls.filter ProcessorCall.isInterrupt =
        List.replicate after.clock.frameCount (.interrupt false 0) ∧
      after.clock.frameCount = historyFramesRun history replies) ∧
    ((∀ count, (∀ earlier ≤ count, ¬ after.FrameEnds earlier) →
        1 ≤ (after.afterInstructions count).cost) →
      ∃ count next, IsLeast {count | after.FrameEnds count} count ∧
        after.stepFrame = some next ∧
        next = (after.afterInstructions count).idle.closeFrame.redraw.interrupt ∧
        next.clock.cycleCount =
          max (after.spentAfter count - after.clock.cyclesPerFrame) 0 ∧
        ∀ calls, (after.withCalls calls).stepFrame =
          some (next.withCalls
            (calls ++ after.instructionCalls count ++ [.interrupt false 0]))) := by
  constructor
  · obtain ⟨calls, logged⟩ := performAll_withCalls reached []
    have new := (clock_of_build built).2.2
    have counted : InterruptsCounted machine.logged.cpu machine.logged.clock := by
      change [] = List.replicate machine.clock.frameCount _
      rw [new]
      rfl
    have counted := (kept_interruptsCounted.performAll counted
      fun _ _ counted _ returned => interruptsCounted_stepFrame counted returned).2 _ _ logged
    have frames := frameCount_performAll reached
    rw [new] at frames
    exact ⟨calls, logged, counted, frames.trans (Nat.zero_add _)⟩
  · intro costly
    obtain ⟨count, least, within⟩ := exists_frameEnds costly
    have enough : count ≤ after.instructionLimit :=
      within.trans (Nat.le_mul_of_pos_right _ (Nat.succ_pos _))
    exact ⟨count, _, least, stepFrame_of_frameEnds least enough, rfl,
      cycleCount_finishFrame_idle after count, stepFrame_withCalls least enough⟩

/-- Instructions in a row do not depend on the picture. -/
theorem afterInstructions_withPicture (machine : Machine τ σ) (picture : Video.Picture)
    (count : Nat) :
    (machine.withPicture picture).afterInstructions count =
      (machine.afterInstructions count).withPicture picture := by
  induction count with
  | zero => rfl
  | succ count ih =>
    rw [afterInstructions_succ, ih, runInstruction_withPicture, afterInstructions_succ]

/-- What instructions spend does not depend on the picture. -/
theorem spentAfter_withPicture (machine : Machine τ σ) (picture : Video.Picture) (count : Nat) :
    (machine.withPicture picture).spentAfter count = machine.spentAfter count := by
  rw [← cycleCount_afterInstructions, afterInstructions_withPicture,
    ← cycleCount_afterInstructions]
  rfl

/-- How a frame ends does not depend on the picture. -/
theorem frameEnds_withPicture (machine : Machine τ σ) (picture : Video.Picture) (count : Nat) :
    (machine.withPicture picture).FrameEnds count ↔ machine.FrameEnds count := by
  unfold FrameEnds
  rw [spentAfter_withPicture, afterInstructions_withPicture]
  rfl

/-- What is logged of instructions does not depend on the picture. -/
theorem instructionCalls_withPicture (machine : Machine τ σ) (picture : Video.Picture)
    (count : Nat) :
    (machine.withPicture picture).instructionCalls count = machine.instructionCalls count := by
  refine List.map_congr_left fun done _ => ?_
  rw [afterInstructions_withPicture]
  rfl

/-- Frames of 30 cycles, and three extra cycles for an access to contended memory. -/
def contendedFrames : Config Float :=
  { Config.standard with cpuFrequency := 3, frameTime := 10, contentionPenalty := 3 }

/-- A processor that reads contended memory and halts, frame by frame. -/
def napping : Scripted := .ofScript #[⟨20, [.read 0x4000]⟩, ⟨4, [.halt]⟩] true true

/-- A frame of two instructions, with a contended access in one and a halt in the other, idles for
three cycles. -/
theorem interrupts_after_history_of_napping :
    ∃ (machine : Machine Float Scripted) (replies : List Reply) (after : Machine Float Scripted),
      build contendedFrames napping = .ok machine ∧
      machine.performAll [.stepFrame, .stepFrame] = some (replies, after) ∧
      (∃ calls, machine.logged.performAll [.stepFrame, .stepFrame] =
          some (replies, after.withCalls calls) ∧
        calls.filter ProcessorCall.isInterrupt = [.interrupt false 0, .interrupt false 0]) ∧
      after.spentAfter 2 = 27 ∧
      ∃ next, after.stepFrame = some next ∧ next.clock.cycleCount = 0 ∧
        ∀ calls, (after.withCalls calls).stepFrame =
          some (next.withCalls
            (calls ++ [.instruction [(.readMemory 0x4000, 0)], .instruction []] ++
              [.interrupt false 0])) := by
  have built := build_eq_new (show contendedFrames.Valid by decide +kernel) napping
  have computed : (unseenFrames 2 (new contendedFrames napping)).any (fun run =>
      decide (run.2.clock.frameCount = 2 ∧ run.2.clock.cyclesPerFrame = 30) &&
      decide (run.2.spentAfter 2 = 27 ∧ run.2.FrameEnds 2) &&
      decide (¬ run.2.FrameEnds 0 ∧ 1 ≤ run.2.cost) &&
      decide (¬ run.2.FrameEnds 1 ∧ 1 ≤ (run.2.afterInstructions 1).cost) &&
      run.2.instructionCalls 2 == [.instruction [(.readMemory 0x4000, 0)], .instruction []]) =
      true := by
    decide +kernel
  obtain ⟨⟨starts, after⟩, run, checked⟩ := (Option.any_eq_true _ _).1 computed
  simp only [Bool.and_eq_true, decide_eq_true_eq, beq_iff_eq] at checked
  obtain ⟨⟨⟨⟨⟨frames, budget⟩, spent, ends⟩, first⟩, second⟩, calls⟩ := checked
  have costs (count : Nat) (before : count < 2) :
      ¬ after.FrameEnds count ∧ 1 ≤ (after.afterInstructions count).cost := by
    obtain rfl | rfl : count = 0 ∨ count = 1 := by omega
    · exact first
    · exact second
  obtain ⟨replies, drawn, reached⟩ :=
    (performAll_of_unseenFrames instructionTrace (fun _ _ => rfl) run
      (new contendedFrames napping).picture).2
  obtain ⟨⟨logs, logged, interrupts, -⟩, frame⟩ :=
    interrupts_after_history contendedFrames napping built reached
  have two : IsLeast {count | (after.withPicture drawn).FrameEnds count} 2 := by
    refine ⟨(after.frameEnds_withPicture drawn 2).2 ends, fun count sooner => ?_⟩
    by_contra before
    exact (costs count (by omega)).1 ((after.frameEnds_withPicture drawn count).1 sooner)
  obtain ⟨count, next, least, returned, -, carry, logsFrame⟩ := frame fun count awake => by
    have before : count < 2 := by
      by_contra late
      exact awake 2 (by omega) two.1
    rw [afterInstructions_withPicture]
    exact (costs count before).2
  obtain rfl := least.unique two
  have shown : (after.withPicture drawn).clock = after.clock := rfl
  rw [shown, frames] at interrupts
  rw [spentAfter_withPicture, spent, shown, budget] at carry
  rw [instructionCalls_withPicture, calls] at logsFrame
  refine ⟨_, replies, _, built, reached, ⟨logs, logged, interrupts⟩, ?_, next, returned, carry,
    logsFrame⟩
  rw [spentAfter_withPicture, spent]

end Machine

end Spectrum48
