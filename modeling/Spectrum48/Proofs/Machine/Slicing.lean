import Mathlib.Algebra.BigOperators.Group.List.Basic
import Mathlib.Algebra.Order.Floor.Ring
import Mathlib.Algebra.Order.Floor.Semifield
import Mathlib.Data.Rat.Floor
import Mathlib.Tactic.Linarith
import Mathlib.Tactic.Ring
import Spectrum48.Proofs.Machine.Cycles
import Spectrum48.Proofs.Numeric.Exact

/-!
# Slices of host time

What a frame does depends on everything but the host time that is left and the host's timestamp: it
only takes its length from what is left. Without rounding, any number of ticks therefore run the
frames that fit into the host time they bring, as if those had been run one by one, and leave the
rest. How the host slices its time makes no difference.
-/

namespace Spectrum48.Machine

section HostTime

variable {τ σ : Type} [Scalar τ] [Processor σ]

/-- The machine with other host time left and another timestamp remembered. -/
def withHostTime (machine : Machine τ σ) (unspent : τ) (last : Option τ) : Machine τ σ :=
  { machine with clock := { machine.clock with unspent := unspent, lastTimestamp := last } }

/-- Run a number of frames. -/
def stepFrames : (count : Nat) → Machine τ σ → Option (Machine τ σ)
  | 0, machine => some machine
  | count + 1, machine => machine.stepFrame.bind (stepFrames count)

omit [Scalar τ] [Processor σ] in
/-- Host time is apart from the budget of a frame. -/
theorem budgetExhausted_withHostTime (machine : Machine τ σ) (unspent : τ) (last : Option τ) :
    (machine.withHostTime unspent last).clock.budgetExhausted =
      machine.clock.budgetExhausted := rfl

omit [Scalar τ] in
/-- Host time is apart from what bounds the instructions of a frame. -/
theorem instructionLimit_withHostTime (machine : Machine τ σ) (unspent : τ) (last : Option τ) :
    (machine.withHostTime unspent last).instructionLimit = machine.instructionLimit := rfl

omit [Scalar τ] [Processor σ] in
/-- Host time is apart from the processor. -/
theorem cpu_withHostTime (machine : Machine τ σ) (unspent : τ) (last : Option τ) :
    (machine.withHostTime unspent last).cpu = machine.cpu := rfl

omit [Scalar τ] [Processor σ] in
/-- Host time is apart from what is drawn. -/
theorem drawn_withHostTime (machine : Machine τ σ) (unspent : τ) (last : Option τ) :
    (machine.withHostTime unspent last).border = machine.border ∧
    (machine.withHostTime unspent last).bus = machine.bus ∧
    (machine.withHostTime unspent last).clock.flashInverted = machine.clock.flashInverted :=
  ⟨rfl, rfl, rfl⟩

omit [Scalar τ] [Processor σ] in
/-- Showing what was drawn leaves host time alone. -/
theorem showDrawn_withHostTime (machine : Machine τ σ) (unspent : τ) (last : Option τ)
    (drawn : Except Fault Video.Picture) :
    (machine.withHostTime unspent last).showDrawn drawn =
      (machine.showDrawn drawn).withHostTime unspent last := by
  cases drawn <;> rfl

omit [Scalar τ] in
/-- An interrupt leaves host time alone. -/
theorem interrupt_withHostTime (machine : Machine τ σ) (unspent : τ) (last : Option τ) :
    (machine.withHostTime unspent last).interrupt =
      machine.interrupt.withHostTime unspent last := rfl

/-- An instruction does not depend on host time. -/
theorem runInstruction_withHostTime (machine : Machine τ σ) (unspent : τ) (last : Option τ) :
    (machine.withHostTime unspent last).runInstruction =
      machine.runInstruction.withHostTime unspent last := rfl

/-- The instructions of a frame do not depend on host time. -/
theorem runInstructions_withHostTime (limit : Nat) (machine : Machine τ σ) (unspent : τ)
    (last : Option τ) :
    runInstructions limit (machine.withHostTime unspent last) =
      (runInstructions limit machine).map fun ran => ran.withHostTime unspent last := by
  induction limit generalizing machine with
  | zero =>
    unfold runInstructions
    rw [budgetExhausted_withHostTime]
    split <;> rfl
  | succ limit ih =>
    unfold runInstructions
    rw [budgetExhausted_withHostTime]
    split
    · rfl
    · dsimp only
      rw [runInstruction_withHostTime, cpu_withHostTime, ih]
      split <;> rfl

omit [Processor σ] in
/-- Closing a frame takes its length from the host time that is left. -/
theorem closeFrame_withHostTime (machine : Machine τ σ) (unspent : τ) (last : Option τ) :
    (machine.withHostTime unspent last).closeFrame =
      machine.closeFrame.withHostTime (unspent - machine.clock.frameTime) last := by
  unfold closeFrame Clock.endFrame Clock.advanceFlash withHostTime
  dsimp only
  split <;> rfl

omit [Scalar τ] [Processor σ] in
/-- Drawing leaves host time alone. -/
theorem redraw_withHostTime (machine : Machine τ σ) (unspent : τ) (last : Option τ) :
    (machine.withHostTime unspent last).redraw =
      machine.redraw.withHostTime unspent last := by
  obtain ⟨border, bus, flash⟩ := drawn_withHostTime machine unspent last
  unfold redraw
  rw [showDrawn_withHostTime, border, bus, flash]

/-- Finishing a frame takes its length from the host time that is left. -/
theorem finishFrame_withHostTime (machine : Machine τ σ) (unspent : τ) (last : Option τ) :
    (machine.withHostTime unspent last).finishFrame =
      machine.finishFrame.withHostTime (unspent - machine.clock.frameTime) last := by
  unfold finishFrame
  rw [closeFrame_withHostTime, redraw_withHostTime, interrupt_withHostTime]

/-- Another machine at the same stage, which turns host time into frames in the same way. -/
structure SameTiming (machine other : Machine τ σ) : Prop where
  /-- The length of a frame. -/
  frameTime : other.clock.frameTime = machine.clock.frameTime
  /-- The length of a stall. -/
  maxFrameDelta : other.clock.maxFrameDelta = machine.clock.maxFrameDelta
  /-- The stage. -/
  state : other.state = machine.state

/-- The instructions of a frame leave the timing of frames alone. -/
theorem sameTiming_runInstructions {limit : Nat} {machine ran : Machine τ σ}
    (returned : runInstructions limit machine = some ran) : machine.SameTiming ran :=
  (keeps_runInstructions machine.SameTiming ⟨rfl, rfl, rfl⟩
    (fun _ _ _ same => ⟨same.frameTime, same.maxFrameDelta, same.state⟩)
    (fun _ _ _ same => ⟨same.frameTime, same.maxFrameDelta, same.state⟩) returned).2

/-- A frame leaves the timing of frames alone. -/
theorem sameTiming_stepFrame {machine after : Machine τ σ}
    (returned : machine.stepFrame = some after) : machine.SameTiming after := by
  obtain ⟨ran, done, rfl⟩ := stepFrame_eq_some.1 returned
  have same := sameTiming_runInstructions done
  constructor
  · rw [clock_finishFrame, Clock.frameTime_endFrame, same.frameTime]
  · rw [clock_finishFrame, Clock.maxFrameDelta_endFrame, same.maxFrameDelta]
  · rw [state_finishFrame, same.state]

/-- Frames leave the timing of frames alone. -/
theorem sameTiming_stepFrames {count : Nat} {machine after : Machine τ σ}
    (returned : machine.stepFrames count = some after) : machine.SameTiming after := by
  induction count generalizing machine with
  | zero =>
    cases returned
    exact ⟨rfl, rfl, rfl⟩
  | succ count ih =>
    obtain ⟨next, stepped, returned⟩ := Option.bind_eq_some_iff.1 returned
    have first := sameTiming_stepFrame stepped
    have rest := ih returned
    exact ⟨rest.frameTime.trans first.frameTime, rest.maxFrameDelta.trans first.maxFrameDelta,
      rest.state.trans first.state⟩

/-- A frame takes its length from the host time that is left, and does not depend on it
otherwise. -/
theorem stepFrame_withHostTime (machine : Machine τ σ) (unspent : τ) (last : Option τ) :
    (machine.withHostTime unspent last).stepFrame =
      machine.stepFrame.map fun after =>
        after.withHostTime (unspent - machine.clock.frameTime) last := by
  unfold stepFrame
  rw [instructionLimit_withHostTime, runInstructions_withHostTime, Option.map_map,
    Option.map_map]
  cases done : runInstructions machine.instructionLimit machine with
  | none => rw [Option.map_none, Option.map_none]
  | some ran =>
    simp only [Option.map_some, Function.comp_apply, finishFrame_withHostTime,
      (sameTiming_runInstructions done).frameTime]

/-- A frame takes its length from the host time that is left. -/
theorem unspent_stepFrame {machine after : Machine τ σ}
    (returned : machine.stepFrame = some after) :
    after.clock.unspent = machine.clock.unspent - machine.clock.frameTime := by
  have same : machine.stepFrame = _ :=
    stepFrame_withHostTime machine machine.clock.unspent machine.clock.lastTimestamp
  rw [returned, Option.map_some] at same
  exact congrArg (fun machine => machine.clock.unspent) (Option.some.inj same)

/-- Frames can be run in two parts. -/
theorem stepFrames_add (first second : Nat) (machine : Machine τ σ) :
    machine.stepFrames (first + second) =
      (machine.stepFrames first).bind (stepFrames second) := by
  induction first generalizing machine with
  | zero => rw [Nat.zero_add, stepFrames, Option.bind_some]
  | succ first ih =>
    rw [Nat.add_right_comm, stepFrames, stepFrames, Option.bind_assoc]
    exact congrArg _ (funext ih)

/-- Every instruction takes cycles, however many frames are run. -/
def Costly (machine : Machine τ σ) : Prop :=
  ∀ count, ∀ start ∈ machine.historyInstructions (List.replicate count .stepFrame),
    1 ≤ start.instructionCycles

/-- Frames return if their instructions take cycles. -/
theorem Costly.stepFrames_returns {machine : Machine τ σ} (costly : machine.Costly)
    (count : Nat) : ∃ after, machine.stepFrames count = some after := by
  induction count generalizing machine with
  | zero => exact ⟨machine, rfl⟩
  | succ count ih =>
    obtain ⟨next, returned⟩ : ∃ next, machine.stepFrame = some next :=
      stepFrame_returns fun start run => costly 1 start
        (mem_historyInstructions_of_operation (List.mem_singleton_self _) run [])
    have performed : machine.perform .stepFrame = some (.done, next) := by
      rw [perform, returned]
      rfl
    obtain ⟨after, stepped⟩ := ih fun more start run =>
      costly (more + 1) start (mem_historyInstructions_of_rest performed run)
    refine ⟨after, ?_⟩
    rw [stepFrames, returned, Option.bind_some, stepped]

end HostTime

variable {σ : Type} [Processor σ]

/-- Frames take their lengths from the host time that is left, and do not depend on it
otherwise. -/
theorem stepFrames_withHostTime {machine : Machine Exact σ} {frame : ℚ}
    (frameTime : machine.clock.frameTime = .number frame) (count : Nat) (unspent : ℚ)
    (last : Option Exact) :
    (machine.withHostTime (.number unspent) last).stepFrames count =
      (machine.stepFrames count).map fun after =>
        after.withHostTime (.number (unspent - count * frame)) last := by
  induction count generalizing machine unspent with
  | zero => rw [Nat.cast_zero, zero_mul, sub_zero, stepFrames, stepFrames, Option.map_some]
  | succ count ih =>
    rw [stepFrames, stepFrame_withHostTime, frameTime, Exact.number_sub, stepFrames]
    cases stepped : machine.stepFrame with
    | none => rfl
    | some next =>
      rw [Option.map_some, Option.bind_some, Option.bind_some,
        ih ((sameTiming_stepFrame stepped).frameTime.trans frameTime)]
      push_cast
      rw [add_mul, one_mul, sub_sub, add_comm frame]

/-- Of the frames that are due, as many are run as fit into the host time that is left. -/
theorem runDueFrames_eq_stepFrames {machine after : Machine Exact σ} {frame unspent : ℚ}
    (positive : 0 < frame) (frameTime : machine.clock.frameTime = .number frame)
    (left : machine.clock.unspent = .number unspent) {count limit : Nat} (enough : count ≤ limit)
    (fits : 0 ≤ unspent - count * frame) (fraction : unspent - count * frame < frame)
    (stepped : machine.stepFrames count = some after) (frames : Nat) :
    runDueFrames limit frames machine = some (frames + count, after) := by
  have due : machine.clock.frameDue = decide (frame ≤ unspent) := by
    rw [Clock.frameDue, frameTime, left]
    exact decide_eq_decide.2 Exact.number_le
  induction count generalizing machine unspent limit frames with
  | zero =>
    cases stepped
    rw [Nat.cast_zero, zero_mul, sub_zero] at fraction
    rw [decide_eq_false (not_le.2 fraction)] at due
    cases limit <;> rw [runDueFrames, due] <;> rfl
  | succ count ih =>
    obtain ⟨limit, rfl⟩ := Nat.exists_eq_add_of_le' enough
    obtain ⟨next, returned, stepped⟩ := Option.bind_eq_some_iff.1 stepped
    push_cast at fits fraction
    have whole : 0 ≤ count * frame := mul_nonneg (Nat.cast_nonneg count) positive.le
    rw [decide_eq_true (by linarith)] at due
    have same := (sameTiming_stepFrame returned).frameTime.trans frameTime
    have left : next.clock.unspent = .number (unspent - frame) := by
      rw [unspent_stepFrame returned, left, frameTime, Exact.number_sub]
    rw [← add_assoc, runDueFrames, if_pos due, returned]
    dsimp only
    rw [ih same left (by omega) (by linarith) (by linarith) stepped, Nat.add_right_comm]
    · rfl
    · rw [Clock.frameDue, same, left]
      exact decide_eq_decide.2 Exact.number_le

/-- A running machine of a valid configuration, with the milliseconds of a frame and of a stall,
that has less host time left than a frame takes. -/
structure Metered (config : Config Exact) (frame stall unspent : ℚ) (machine : Machine Exact σ) :
    Prop where
  /-- The configuration describes a machine. -/
  valid : config.Valid
  /-- The milliseconds of a frame. -/
  frameFraction : config.frameTime = .number frame
  /-- The milliseconds that are not yet a stall. -/
  stallFraction : config.maxFrameDelta = .number stall
  /-- Frames take as long as configured. -/
  frameTime : machine.clock.frameTime = config.frameTime
  /-- Stalls are recognised as configured. -/
  maxFrameDelta : machine.clock.maxFrameDelta = config.maxFrameDelta
  /-- Frames are run as host time passes. -/
  running : machine.state = .running
  /-- The host time that is left. -/
  left : machine.clock.unspent = .number unspent
  /-- No host time is owed. -/
  nonneg : 0 ≤ unspent
  /-- No frame is due. -/
  fraction : unspent < frame

/-- The host time that was left, with what ticks add to it. -/
def accumulated (frame stall unspent : ℚ) (deltas : List Exact) : ℚ :=
  unspent + (deltas.map (Exact.counted frame stall)).sum

/-- The host time that a timestamp brings: what has passed since the one before it,
or nothing if none is remembered. -/
def sinceLast (machine : Machine Exact σ) (timestamp : Exact) : Exact :=
  match machine.clock.lastTimestamp with
  | some last => timestamp - last
  | none => .number 0

/-- The host time that is left once all frames that fit into it are run. -/
theorem eq_floor_iff {frame : ℚ} (positive : 0 < frame) {time : ℚ} (nonneg : 0 ≤ time) {count : ℕ} :
    count = ⌊time / frame⌋₊ ↔ 0 ≤ time - count * frame ∧ time - count * frame < frame := by
  rw [eq_comm, Nat.floor_eq_iff (div_nonneg nonneg positive.le), le_div_iff₀ positive,
    div_lt_iff₀ positive, sub_nonneg, sub_lt_iff_lt_add', add_mul, one_mul]

namespace Metered

variable {config : Config Exact} {frame stall unspent : ℚ} {machine : Machine Exact σ}

omit [Processor σ] in
/-- A frame takes time. -/
theorem positive (metered : machine.Metered config frame stall unspent) : 0 < frame := by
  have positive := metered.valid.frameTime_pos
  rw [metered.frameFraction, Exact.zero_eq] at positive
  exact Exact.number_lt.1 positive

omit [Processor σ] in
/-- A frame is no stall. -/
theorem ordered (metered : machine.Metered config frame stall unspent) : frame ≤ stall := by
  have ordered := metered.valid.frameTime_le
  rw [metered.frameFraction, metered.stallFraction] at ordered
  exact Exact.number_le.1 ordered

omit [Processor σ] in
/-- What elapsed host time is credited with. -/
theorem credited (metered : machine.Metered config frame stall unspent) (delta : Exact) :
    machine.clock.credited delta = .number (Exact.counted frame stall delta) :=
  Exact.credited_eq (metered.frameTime.trans metered.frameFraction)
    (metered.maxFrameDelta.trans metered.stallFraction) delta

/-- Frames leave a machine that can go on with less host time than a frame takes. -/
theorem afterFrames (metered : machine.Metered config frame stall unspent) {count : Nat}
    {after : Machine Exact σ} (stepped : machine.stepFrames count = some after) {rest : ℚ}
    (nonneg : 0 ≤ rest) (fraction : rest < frame) (last : Option Exact) :
    (after.withHostTime (.number rest) last).Metered config frame stall rest where
  valid := metered.valid
  frameFraction := metered.frameFraction
  stallFraction := metered.stallFraction
  frameTime := (sameTiming_stepFrames stepped).frameTime.trans metered.frameTime
  maxFrameDelta := (sameTiming_stepFrames stepped).maxFrameDelta.trans metered.maxFrameDelta
  running := (sameTiming_stepFrames stepped).state.trans metered.running
  left := rfl
  nonneg := nonneg
  fraction := fraction

/-- Once host time has passed, the frames that fit into it are run. -/
theorem advance (metered : machine.Metered config frame stall unspent)
    {pass : Clock Exact → Clock Exact} {time : ℚ} {last : Option Exact}
    (passed : { machine with clock := pass machine.clock } =
      machine.withHostTime (.number time) last)
    {count : Nat} (fits : 0 ≤ time - count * frame) (fraction : time - count * frame < frame)
    {after : Machine Exact σ} (stepped : machine.stepFrames count = some after) :
    machine.advance pass =
      some (.ok count, after.withHostTime (.number (time - count * frame)) last) := by
  have frameTime := metered.frameTime.trans metered.frameFraction
  have enough : count ≤ Scalar.withdrawals (Exact.number time) (.number frame) := by
    refine le_trans ?_ (Exact.floor_lt_withdrawals time frame).le
    exact Nat.le_floor ((le_div_iff₀ metered.positive).2 (sub_nonneg.1 fits))
  have frameTimeThen :
      (machine.withHostTime (.number time) last).clock.frameTime = .number frame := frameTime
  have steppedThen : (machine.withHostTime (.number time) last).stepFrames count =
      some (after.withHostTime (.number (time - count * frame)) last) := by
    rw [stepFrames_withHostTime frameTime, stepped, Option.map_some]
  have caughtUp : (machine.withHostTime (.number time) last).catchUp =
      some (count, after.withHostTime (.number (time - count * frame)) last) := by
    unfold catchUp
    change runDueFrames (Scalar.withdrawals (Exact.number time) machine.clock.frameTime) 0 _ = _
    rw [frameTime, runDueFrames_eq_stepFrames metered.positive frameTimeThen rfl enough fits
      fraction steppedThen, Nat.zero_add]
  rw [advance_of_running metered.running, passed, caughtUp, Option.map_some]

omit [Processor σ] in
/-- Host time that elapses is added to what is left. -/
theorem elapse (metered : machine.Metered config frame stall unspent) (delta : Exact) :
    machine.clock.elapse delta =
      { machine.clock with unspent := .number (unspent + Exact.counted frame stall delta) } := by
  rw [Clock.elapse, metered.credited, metered.left, Exact.number_add]

/-- A tick runs the frames that fit into the host time left and what the tick adds to it. -/
theorem perform_tick (metered : machine.Metered config frame stall unspent) {delta : Exact}
    {count : Nat} (fits : 0 ≤ unspent + Exact.counted frame stall delta - count * frame)
    (fraction : unspent + Exact.counted frame stall delta - count * frame < frame)
    {after : Machine Exact σ} (stepped : machine.stepFrames count = some after) :
    machine.perform (.tick delta) = some (.frames count,
      after.withHostTime (.number (unspent + Exact.counted frame stall delta - count * frame))
        machine.clock.lastTimestamp) := by
  have elapsed : { machine with clock := machine.clock.elapse delta } = machine.withHostTime
      (.number (unspent + Exact.counted frame stall delta)) machine.clock.lastTimestamp := by
    rw [metered.elapse]
    rfl
  rw [perform, tick, metered.advance elapsed fits fraction stepped]
  rfl

/-- A timestamp brings the host time since the one before it, and is remembered. -/
theorem perform_tickAt (metered : machine.Metered config frame stall unspent)
    (returns : ∀ count, ∃ after, machine.stepFrames count = some after) (timestamp : Exact) :
    machine.perform (.tickAt timestamp) =
      (machine.perform (.tick (machine.sinceLast timestamp))).map fun (reply, after) =>
        (reply, after.withHostTime after.clock.unspent (some timestamp)) := by
  have elapsed : { machine with clock := machine.clock.elapseTo timestamp } =
      machine.withHostTime
        (.number (unspent + Exact.counted frame stall (machine.sinceLast timestamp)))
        (some timestamp) := by
    unfold Clock.elapseTo sinceLast
    cases machine.clock.lastTimestamp with
    | none =>
      dsimp only
      rw [Exact.counted_number le_rfl (metered.positive.le.trans metered.ordered), add_zero,
        ← metered.left]
      rfl
    | some last =>
      dsimp only
      rw [metered.elapse]
      rfl
  obtain ⟨fits, fraction⟩ := (eq_floor_iff metered.positive (add_nonneg metered.nonneg
    (Exact.counted_nonneg metered.positive.le stall (machine.sinceLast timestamp)))).1 rfl
  obtain ⟨after, stepped⟩ := returns _
  rw [metered.perform_tick fits fraction stepped, perform, tickAt,
    metered.advance elapsed fits fraction stepped]
  rfl

/-- Ticks run frames as if these were run one by one, and leave host time for less than one. -/
theorem performAll_ticks (metered : machine.Metered config frame stall unspent)
    (returns : ∀ count, ∃ after, machine.stepFrames count = some after) (deltas : List Exact) :
    ∃ (counts : List ℕ) (stepped : Machine Exact σ),
      counts.length = deltas.length ∧
      machine.stepFrames counts.sum = some stepped ∧
      machine.performAll (deltas.map .tick) = some (counts.map .frames,
        stepped.withHostTime
          (.number (accumulated frame stall unspent deltas - counts.sum * frame))
          machine.clock.lastTimestamp) ∧
      0 ≤ accumulated frame stall unspent deltas - counts.sum * frame ∧
      accumulated frame stall unspent deltas - counts.sum * frame < frame := by
  induction deltas generalizing machine unspent with
  | nil =>
    refine ⟨[], machine, rfl, rfl, ?_, ?_⟩ <;>
      simp only [accumulated, List.map_nil, List.sum_nil, Nat.cast_zero, zero_mul, sub_zero,
        add_zero]
    · rw [← metered.left]
      rfl
    · exact ⟨metered.nonneg, metered.fraction⟩
  | cons delta deltas ih =>
    obtain ⟨fits, fraction⟩ := (eq_floor_iff metered.positive (add_nonneg metered.nonneg
      (Exact.counted_nonneg metered.positive.le stall delta))).1 rfl
    generalize ⌊(unspent + Exact.counted frame stall delta) / frame⌋₊ = count at fits fraction
    obtain ⟨middle, stepped⟩ := returns count
    have performed := metered.perform_tick fits fraction stepped
    have later := metered.afterFrames stepped fits fraction machine.clock.lastTimestamp
    have frameTime : middle.clock.frameTime = .number frame :=
      later.frameTime.trans later.frameFraction
    -- The frames of the later ticks are frames of the machine after the first one.
    obtain ⟨counts, last, length, steppedLater, reached, fitsLater, fractionLater⟩ :=
      ih later fun more => by
        obtain ⟨after, both⟩ := returns (count + more)
        rw [stepFrames_add, stepped, Option.bind_some] at both
        rw [stepFrames_withHostTime frameTime, both]
        exact ⟨_, rfl⟩
    rw [stepFrames_withHostTime frameTime, Option.map_eq_some_iff] at steppedLater
    obtain ⟨after, steppedLater, rfl⟩ := steppedLater
    have total : accumulated frame stall unspent (delta :: deltas) - (count :: counts).sum * frame
        = accumulated frame stall (unspent + Exact.counted frame stall delta - count * frame) deltas
          - counts.sum * frame := by
      simp only [accumulated, List.map_cons, List.sum_cons, Nat.cast_add]
      ring
    refine ⟨count :: counts, after, congrArg Nat.succ length, ?_, ?_, ?_⟩
    · rw [List.sum_cons, stepFrames_add, stepped, Option.bind_some, steppedLater]
    · rw [total, List.map_cons, performAll, performed]
      dsimp only
      rw [reached]
      rfl
    · rw [total]
      exact ⟨fitsLater, fractionLater⟩

omit [Processor σ] in
/-- Less time than a frame takes, and no more than is not yet a stall, holds at most one frame more
than the latter alone. -/
theorem count_le (metered : machine.Metered config frame stall unspent) {delta : Exact}
    {count : ℕ}
    (fits : 0 ≤ unspent + Exact.counted frame stall delta - count * frame) :
    count ≤ ⌊stall / frame⌋₊ + 1 := by
  have most := Exact.counted_le metered.positive.le metered.ordered delta
  have below : (count : ℚ) < stall / frame + 1 := by
    rw [← div_self metered.positive.ne', ← add_div, lt_div_iff₀ metered.positive]
    have := metered.fraction
    linarith
  have floor := Nat.lt_floor_add_one (stall / frame)
  have : (count : ℚ) < (⌊stall / frame⌋₊ + 1 + 1 : ℕ) := by
    push_cast
    linarith
  exact Nat.lt_succ_iff.1 (Nat.cast_lt.1 this)

end Metered

/-- What the host does leaves the timing of frames as configured. -/
theorem timing_performAll {τ : Type} [Scalar τ] {config : Config τ} {cpu : σ}
    {start machine : Machine τ σ} (built : build config cpu = .ok start)
    {history : List (Operation τ)}
    {replies : List Reply} (reached : start.performAll history = some (replies, machine)) :
    machine.clock.frameTime = config.frameTime ∧
    machine.clock.maxFrameDelta = config.maxFrameDelta := by
  obtain ⟨-, -, new⟩ := clock_of_build built
  have kept : Kept fun (_ : σ) (clock : Clock τ) =>
      clock.frameTime = config.frameTime ∧ clock.maxFrameDelta = config.maxFrameDelta :=
    { reset := id
      setRegisters := fun _ => id
      resetBaseline := id
      elapse := fun _ => id
      elapseTo := fun {_ clock} timestamp same => by
        obtain ⟨_, only⟩ := clock.elapseTo_eq timestamp
        rw [only]
        exact same }
  refine (kept.performAll (new ▸ ⟨rfl, rfl⟩) ?_).2 _ _ reached
  rintro middle - ⟨frameTime, maxFrameDelta⟩ after returned
  have same := sameTiming_stepFrame returned
  exact ⟨same.frameTime.trans frameTime, same.maxFrameDelta.trans maxFrameDelta⟩

/-- A running machine that a history leaves with less host time than a frame takes. -/
theorem Metered.of_reached {config : Config Exact} {cpu : σ} {start machine : Machine Exact σ}
    (built : build config cpu = .ok start) {history : List (Operation Exact)}
    {replies : List Reply} (reached : start.performAll history = some (replies, machine))
    {frame stall unspent : ℚ} (frameFraction : config.frameTime = .number frame)
    (stallFraction : config.maxFrameDelta = .number stall) (running : machine.state = .running)
    (left : machine.clock.unspent = .number unspent) (nonneg : 0 ≤ unspent)
    (fraction : unspent < frame) : machine.Metered config frame stall unspent where
  valid := (clock_of_build built).1
  frameFraction := frameFraction
  stallFraction := stallFraction
  frameTime := (timing_performAll built reached).1
  maxFrameDelta := (timing_performAll built reached).2
  running := running
  left := left
  nonneg := nonneg
  fraction := fraction

/-- Host time can be sliced in any way. However it comes in ticks, as many frames are run as fit
into what was left and what the ticks count for, the machine is as if those frames had been run one
by one, and less than a frame's time is left. Two ticks are therefore one tick of their sum, as long
as that is no stall; a tick runs no more frames than fit into what is not yet a stall, and one; a
timestamp is a tick of the time since the last one, or of none if none is remembered. -/
theorem performAll_map_tick {config : Config Exact} {frame stall unspent : ℚ}
    {machine : Machine Exact σ} (metered : machine.Metered config frame stall unspent)
    (costly : machine.Costly) :
    (∀ deltas : List Exact, ∃ (counts : List ℕ) (stepped : Machine Exact σ),
      machine.performAll (deltas.map .tick) = some (counts.map .frames,
        stepped.withHostTime
          (.number (accumulated frame stall unspent deltas - counts.sum * frame))
          machine.clock.lastTimestamp) ∧
      counts.sum = ⌊accumulated frame stall unspent deltas / frame⌋₊ ∧
      machine.stepFrames counts.sum = some stepped ∧
      0 ≤ accumulated frame stall unspent deltas - counts.sum * frame ∧
      accumulated frame stall unspent deltas - counts.sum * frame < frame) ∧
    (∀ first second : ℚ, 0 ≤ first → 0 ≤ second → first + second ≤ stall →
      ∃ firstCount secondCount after,
        machine.performAll [.tick (.number first), .tick (.number second)] =
          some ([.frames firstCount, .frames secondCount], after) ∧
        machine.perform (.tick (.number (first + second))) =
          some (.frames (firstCount + secondCount), after)) ∧
    (∀ delta, ∃ count after, machine.perform (.tick delta) = some (.frames count, after) ∧
      count ≤ ⌊stall / frame⌋₊ + 1) ∧
    (∀ timestamp, machine.perform (.tickAt timestamp) =
      (machine.perform (.tick (machine.sinceLast timestamp))).map fun (reply, after) =>
        (reply, after.withHostTime after.clock.unspent (some timestamp))) := by
  have returns := costly.stepFrames_returns
  refine ⟨fun deltas => ?_, fun first second firstNonneg secondNonneg noStall => ?_,
    fun delta => ?_, metered.perform_tickAt returns⟩
  · obtain ⟨counts, stepped, -, run, reached, fits, fraction⟩ :=
      metered.performAll_ticks returns deltas
    have nonneg : 0 ≤ accumulated frame stall unspent deltas := by
      have whole : (0 : ℚ) ≤ counts.sum * frame :=
        mul_nonneg (Nat.cast_nonneg _) metered.positive.le
      linarith
    exact ⟨counts, stepped, reached, (eq_floor_iff metered.positive nonneg).2 ⟨fits, fraction⟩,
      run, fits, fraction⟩
  · obtain ⟨counts, stepped, length, run, reached, fits, fraction⟩ :=
      metered.performAll_ticks returns [.number first, .number second]
    obtain ⟨firstCount, secondCount, rfl⟩ := List.length_eq_two.1 length
    have sum : accumulated frame stall unspent [.number first, .number second] =
        unspent + Exact.counted frame stall (.number (first + second)) := by
      simp only [accumulated, List.map_cons, List.map_nil, List.sum_cons, List.sum_nil, add_zero]
      rw [Exact.counted_number firstNonneg (by linarith),
        Exact.counted_number secondNonneg (by linarith),
        Exact.counted_number (add_nonneg firstNonneg secondNonneg) noStall]
    rw [sum] at reached fits fraction
    have counted : [firstCount, secondCount].sum = firstCount + secondCount := by simp
    rw [counted] at run reached fits fraction
    exact ⟨firstCount, secondCount, _, reached, metered.perform_tick fits fraction run⟩
  · obtain ⟨fits, fraction⟩ := (eq_floor_iff metered.positive (add_nonneg metered.nonneg
      (Exact.counted_nonneg metered.positive.le stall delta))).1 rfl
    obtain ⟨after, stepped⟩ := returns _
    exact ⟨_, _, metered.perform_tick fits fraction stepped, metered.count_le fits⟩

/-- A machine of the real one's timing is brought seven and a half milliseconds, no number at all, a
stall, an endless stall, time that runs backwards and thirteen milliseconds: three frames, and half
a millisecond is left. -/
theorem performAll_map_tick_of_standard :
    ∃ (machine stepped : Machine Exact Scripted) (counts : List ℕ),
      machine.Metered Config.standard 20 500 0 ∧ machine.Costly ∧
      machine.performAll ([.number (15 / 2), .undefined, .number 600, .infinite false, .number (-3),
          .number 13].map .tick) =
        some (counts.map .frames, stepped.withHostTime (.number (1 / 2)) none) ∧
      counts.sum = 3 ∧ machine.stepFrames 3 = some stepped := by
  have valid : (Config.standard : Config Exact).Valid := by decide +kernel
  obtain ⟨start, built⟩ := build_returns valid (Scripted.ofScript #[⟨4, []⟩] true true)
  obtain ⟨-, same, -⟩ := clock_of_build built
  obtain ⟨machine, reached, running, cpu, left, none_remembered⟩ : ∃ machine,
      start.performAll [.loadRom (Array.replicate Memory.romSize 0)] = some ([.done], machine) ∧
      machine.state = .running ∧ machine.cpu = Processor.reset start.cpu ∧
      machine.clock.unspent = .number 0 ∧ machine.clock.lastTimestamp = none := by
    rw [performAll, perform, loadRom, if_pos Array.size_replicate]
    exact ⟨_, rfl, rfl, rfl, rfl, rfl⟩
  have metered : machine.Metered Config.standard 20 500 0 :=
    .of_reached built reached rfl rfl running left le_rfl (by norm_num)
  have steady : machine.cpu.Steady 4 := cpu ▸ same ▸ ⟨rfl, rfl, rfl⟩
  have costly : machine.Costly := fun _ start run => by
    rw [(steady_runInstruction (steady_of_mem_historyInstructions steady run)).1]
    decide
  have time : accumulated 20 500 0 [.number (15 / 2), .undefined, .number 600, .infinite false,
      .number (-3), .number 13] = 121 / 2 := by
    norm_num [accumulated, Exact.counted]
  obtain ⟨counts, stepped, run, frames, steps, -, -⟩ :=
    (performAll_map_tick metered costly).1 [.number (15 / 2), .undefined, .number 600,
      .infinite false, .number (-3), .number 13]
  have three : counts.sum = 3 := by
    rw [frames, time]
    norm_num
  have rest : (121 / 2 - (3 : ℕ) * 20 : ℚ) = 1 / 2 := by norm_num
  rw [time, three, rest, none_remembered] at run
  rw [three] at steps
  exact ⟨machine, stepped, counts, metered, costly, run, three, steps⟩

end Spectrum48.Machine
