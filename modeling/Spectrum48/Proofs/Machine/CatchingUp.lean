import Spectrum48.Proofs.Machine.Speed
import Spectrum48.Proofs.Numeric.Withdrawals

/-!
# Catching up with host time

A tick runs frames as long as the host time of one is unspent, and each of them takes that time
away. In doubles, the time of a frame is rounded away where it is taken from too much; then the same
frame is due for ever. So a tick returns exactly if no such amount of host time can come together:
neither at once, which the longest delta that is not a stall decides, nor on top of what the ticks
before have left.
-/

namespace Spectrum48.Machine

open Numeric (value? Exhaustible Inexhaustible)

variable {σ : Type} [Processor σ]

/-- Firmware, and then ticks. -/
def romAndTicks (image : Array UInt8) (deltas : List Float) : List (Operation Float) :=
  .loadRom image :: deltas.map .tick

/-- The machine once host time has passed. -/
def afterTime (machine : Machine Float σ) (delta : Float) : Machine Float σ :=
  { machine with clock := machine.clock.elapse delta }

/-- A frame that returns, and leaves less host time unspent. -/
def Lowers (frame : Machine Float σ) : Prop :=
  ∃ after, frame.stepFrame = some after ∧ after.clock.unspent < frame.clock.unspent

/-- Host time that passes now is never caught up with, however many frames are run. -/
def NeverCatchesUp (machine : Machine Float σ) (delta : Float) : Prop :=
  ∀ limit frames, runDueFrames limit frames (machine.afterTime delta) = none

/-- The host time that comes together between frames can be exhausted: the longest delta that is no
stall can, and it has a finite sum with whatever is less than a frame. -/
structure KeepsUp (config : Config Float) (time limit : ℚ) : Prop where
  /-- The longest delta is not too long. -/
  below : limit < Numeric.stuckFrom time
  /-- What a tick leaves and the longest delta do not add up to an infinity. -/
  sums : ∀ rest : Float, Scalar.zero ≤ rest → rest < config.frameTime →
    (value? (rest + config.maxFrameDelta)).isSome = true

/-! ### Host time as it counts -/

/-- If the longest delta is finite, a valid frame has a positive length, which is no longer. -/
theorem times_of_valid {config : Config Float} (valid : config.Valid) {limit : ℚ}
    (finite : value? config.maxFrameDelta = some limit) :
    ∃ time, value? config.frameTime = some time ∧ 0 < time ∧ time ≤ limit := by
  have zero := Numeric.value?_scalar_zero
  obtain infinite | ⟨time, value, nonneg⟩ :=
    Numeric.value_of_le zero le_rfl (Numeric.zero_le_of_pos valid.frameTime_pos)
  · exact absurd (Numeric.lt_of_infinite finite infinite)
      (Numeric.not_lt_of_le valid.frameTime_le)
  · have positive := (Numeric.lt_iff_of_values zero value le_rfl nonneg).1 valid.frameTime_pos
    obtain infinite | ⟨greatest, value', longer⟩ :=
      Numeric.value_of_le value nonneg valid.frameTime_le
    · rw [value?, infinite] at finite
      cases finite
    · rw [finite] at value'
      cases value'
      exact ⟨time, value, positive, longer⟩

/-- Whatever the host hands over, what counts of it is finite, not negative, and no longer than the
longest delta. -/
theorem value_credited {clock : Clock Float} {time limit : ℚ}
    (frame : value? clock.frameTime = some time) (nonneg : 0 ≤ time) (longer : time ≤ limit)
    (greatest : value? clock.maxFrameDelta = some limit) (delta : Float) :
    ∃ counted, value? (clock.credited delta) = some counted ∧ 0 ≤ counted ∧ counted ≤ limit := by
  have zero := Numeric.value?_scalar_zero
  unfold Clock.credited Scalar.positivePart
  split
  · exact ⟨time, frame, nonneg, longer⟩
  · next short =>
    split
    · next forward =>
      obtain infinite | ⟨counted, value, atLeast⟩ := Numeric.value_of_le zero le_rfl forward
      · exact absurd (Numeric.lt_of_infinite greatest infinite) short
      · refine ⟨counted, value, atLeast, ?_⟩
        by_contra above
        exact short (Numeric.lt_of_values greatest value (nonneg.trans longer) (not_le.1 above))
    · exact ⟨0, zero, le_rfl, nonneg.trans longer⟩

/-- What is not negative and less than a frame has a value. -/
theorem value_of_early {frameTime delta : Float} {time : ℚ} (value : value? frameTime = some time)
    (nonneg : 0 ≤ time) (forward : Scalar.zero ≤ delta) (early : delta < frameTime) :
    ∃ rest, value? delta = some rest ∧ 0 ≤ rest ∧ rest < time := by
  obtain infinite | ⟨rest, restValue, restNonneg⟩ :=
    Numeric.value_of_le Numeric.value?_scalar_zero le_rfl forward
  · exact absurd early (Numeric.not_lt_of_le (Numeric.le_of_infinite value infinite))
  · exact ⟨rest, restValue, restNonneg,
      (Numeric.lt_iff_of_values restValue value restNonneg nonneg).1 early⟩

/-- Host time that does not run backwards and is no stall counts as it is. -/
theorem credited_of_mem {clock : Clock Float} {delta : Float} (forward : Scalar.zero ≤ delta)
    (short : ¬ clock.maxFrameDelta < delta) : clock.credited delta = delta := by
  unfold Clock.credited Scalar.positivePart
  rw [if_neg short, if_pos forward]

namespace Paced

variable {config : Config Float} {unspent : Float} {frames : Nat} {machine : Machine Float σ}

omit [Processor σ] in
/-- Host time that passes is unspent. -/
theorem afterTime (paced : machine.Paced config unspent frames) (delta : Float) :
    (machine.afterTime delta).Paced config (unspent + machine.clock.credited delta) frames := by
  refine ⟨paced.running, paced.frameTime, paced.maxFrameDelta, ?_, paced.frames⟩
  rw [← paced.unspent]
  rfl

end Paced

/-! ### Frames that are due -/

/-- A tick runs the frames that are due once its time has passed. -/
theorem perform_tick_eq {machine : Machine Float σ} (running : machine.state = .running)
    (delta : Float) :
    machine.perform (.tick delta) =
      (machine.afterTime delta).catchUp.map fun (count, after) => (.frames count, after) := by
  change (machine.tick delta).map _ = _
  rw [tick, advance_of_running running]
  change ((machine.afterTime delta).catchUp.map _).map _ = _
  cases (machine.afterTime delta).catchUp <;> rfl

/-- The frames of a tick are those that are due once its time has passed. -/
theorem operationFrames_tick {machine : Machine Float σ} (running : machine.state = .running)
    (delta : Float) :
    machine.operationFrames (.tick delta) =
      dueFrames (Scalar.withdrawals (machine.afterTime delta).clock.unspent
        (machine.afterTime delta).clock.frameTime) (machine.afterTime delta) := by
  change machine.advanceFrames (fun clock => clock.elapse delta) = _
  rw [advanceFrames_of_running running]
  rfl

/-- The frames that start are due. -/
theorem frameDue_of_mem_dueFrames {limit : ℕ} {machine frame : Machine Float σ}
    (run : frame ∈ dueFrames limit machine) : frame.clock.frameDue = true := by
  induction limit generalizing machine with
  | zero => cases run
  | succ limit ih =>
    unfold dueFrames at run
    split at run
    · next due =>
      cases run with
      | head => exact due
      | tail _ run =>
        split at run
        · cases run
        · exact ih run
    · cases run

/-- No frame is due once those that were have been run. -/
theorem frameDue_of_runDueFrames {limit frames count : ℕ} {machine after : Machine Float σ}
    (returned : runDueFrames limit frames machine = some (count, after)) :
    after.clock.frameDue = false := by
  induction limit generalizing machine frames with
  | zero =>
    unfold runDueFrames at returned
    split at returned
    · cases returned
    · next early =>
      cases returned
      exact Bool.eq_false_iff.2 early
  | succ limit ih =>
    unfold runDueFrames at returned
    split at returned
    · split at returned
      · cases returned
      · exact ih returned
    · next early =>
      cases returned
      exact Bool.eq_false_iff.2 early

section

variable {config : Config Float} {time limit : ℚ} {unspent : Float} {frames : ℕ}
  {machine : Machine Float σ} (value : value? config.frameTime = some time) (positive : 0 < time)

include value positive

/-- Frames that leave less and less unspent come to an end: the bits of what is unspent spell less
and less, and they spell no more than the limit to begin with. -/
theorem runDueFrames_returns {limit : ℕ} (count : ℕ) (paced : machine.Paced config unspent frames)
    (lowers : ∀ frame ∈ dueFrames limit machine, frame.Lowers)
    (enough : config.frameTime ≤ unspent → unspent.toBits.toNat < limit) :
    ∃ total after rest closed, runDueFrames limit count machine = some (total, after) ∧
      after.Paced config rest closed := by
  induction limit generalizing machine unspent frames count with
  | zero =>
    have early : ¬ machine.clock.frameDue = true := fun due =>
      Nat.not_lt_zero _ (enough (paced.frameDue_iff.1 due))
    exact ⟨count, machine, unspent, frames, if_neg early, paced⟩
  | succ limit ih =>
    unfold dueFrames at lowers
    unfold runDueFrames
    split
    · next due =>
      rw [if_pos due] at lowers
      obtain ⟨after, returned, less⟩ := lowers machine List.mem_cons_self
      rw [returned] at lowers ⊢
      have next := paced.spendFrame returned
      refine ih (count + 1) next
        (fun frame run => lowers frame (List.mem_cons_of_mem _ run)) fun again => ?_
      have due := paced.frameDue_iff.1 due
      rw [next.unspent, paced.unspent] at less
      have fewer := Numeric.toBits_sub_lt value positive due less again
      have := enough due
      omega
    · exact ⟨count, machine, unspent, frames, rfl, paced⟩

/-- A tick whose frames leave less and less unspent returns. -/
theorem perform_tick_returns (paced : machine.Paced config unspent frames) {delta : Float}
    (lowers : ∀ frame ∈ machine.operationFrames (.tick delta), frame.Lowers) :
    ∃ reply after rest closed, machine.perform (.tick delta) = some (reply, after) ∧
      after.Paced config rest closed := by
  rw [operationFrames_tick paced.running] at lowers
  have passed := paced.afterTime delta
  obtain ⟨total, after, rest, closed, returned, paced'⟩ :=
    runDueFrames_returns value positive 0 passed lowers fun _ => by
      rw [passed.unspent]
      exact Nat.lt_succ_self _
  refine ⟨.frames total, after, rest, closed, ?_, paced'⟩
  rw [perform_tick_eq paced.running, catchUp, returned]
  rfl

/-- Ticks whose frames leave less and less unspent return. -/
theorem performAll_ticks_returns (paced : machine.Paced config unspent frames)
    {deltas : List Float}
    (lowers : ∀ frame ∈ machine.historyFrames (deltas.map .tick), frame.Lowers) :
    (machine.performAll (deltas.map .tick)).isSome = true := by
  induction deltas generalizing machine unspent frames with
  | nil => rfl
  | cons delta deltas ih =>
    rw [List.map_cons] at lowers ⊢
    unfold historyFrames at lowers
    obtain ⟨reply, after, rest, closed, performed, paced'⟩ :=
      perform_tick_returns value positive paced fun frame run =>
        lowers frame (List.mem_append_left _ run)
    rw [performed] at lowers
    have others := ih paced' fun frame run => lowers frame (List.mem_append_right _ run)
    obtain ⟨⟨replies, final⟩, done⟩ := Option.isSome_iff_exists.1 others
    rw [performAll, performed]
    dsimp only
    rw [done]
    rfl

/-- A frame that is due, whose instructions take cycles, leaves less of an exhaustible amount. -/
theorem lowers_of_exhaustible (paced : machine.Paced config unspent frames)
    (exhaustible : Exhaustible time unspent) (due : machine.clock.frameDue = true)
    (costly : ∀ start ∈ machine.frameInstructions, 1 ≤ start.instructionCycles) :
    machine.Lowers := by
  obtain ⟨after, returned⟩ := stepFrame_returns costly
  refine ⟨after, returned, ?_⟩
  rw [(paced.spendFrame returned).unspent, paced.unspent]
  exact (exhaustible.sub value positive (paced.frameDue_iff.1 due)).2

/-- Frames that are due while an exhaustible amount is unspent leave less and less of it, and an
exhaustible amount in the end. -/
theorem lowers_dueFrames {limit : ℕ} (paced : machine.Paced config unspent frames)
    (exhaustible : Exhaustible time unspent)
    (costly : ∀ frame ∈ dueFrames limit machine,
      ∀ start ∈ frame.frameInstructions, 1 ≤ start.instructionCycles) :
    (∀ frame ∈ dueFrames limit machine, frame.Lowers) ∧
    ∀ count total after, runDueFrames limit count machine = some (total, after) →
      ∃ rest closed, after.Paced config rest closed ∧ Exhaustible time rest := by
  obtain ⟨starts, ends⟩ := keeps_runDueFrames
    (fun middle => ∃ rest closed, middle.Paced config rest closed ∧ Exhaustible time rest)
    ⟨unspent, frames, paced, exhaustible⟩ fun middle run ⟨rest, closed, paced, exhaustible⟩ after
      returned => by
        have due := paced.frameDue_iff.1 (frameDue_of_mem_dueFrames run)
        exact ⟨_, _, paced.spendFrame returned, (exhaustible.sub value positive due).1⟩
  refine ⟨fun frame run => ?_, ends⟩
  obtain ⟨rest, closed, paced, exhaustible⟩ := starts frame run
  exact lowers_of_exhaustible value positive paced exhaustible (frameDue_of_mem_dueFrames run)
    (costly frame run)

end

/-! ### Between ticks -/

/-- A machine with less host time unspent than a frame takes. -/
def CaughtUp (config : Config Float) (time : ℚ) (machine : Machine Float σ) : Prop :=
  ∃ unspent frames rest, machine.Paced config unspent frames ∧
    value? unspent = some rest ∧ 0 ≤ rest ∧ rest < time

section

variable {config : Config Float} {time limit : ℚ} {machine : Machine Float σ}
  (value : value? config.frameTime = some time) (positive : 0 < time) (longer : time ≤ limit)
  (greatest : value? config.maxFrameDelta = some limit)

include value positive longer greatest

omit [Processor σ] in
/-- Whatever passes then, the machine has an exhaustible amount unspent. -/
theorem CaughtUp.afterTime (keepsUp : KeepsUp config time limit)
    (caughtUp : machine.CaughtUp config time) (delta : Float) :
    ∃ unspent frames, (machine.afterTime delta).Paced config unspent frames ∧
      Exhaustible time unspent := by
  obtain ⟨unspent, frames, rest, paced, restValue, nonneg, less⟩ := caughtUp
  obtain ⟨counted, amount, amountNonneg, atMost⟩ :=
    value_credited (paced.frameTime ▸ value) positive.le longer (paced.maxFrameDelta ▸ greatest)
      delta
  have forward : Scalar.zero ≤ unspent :=
    Numeric.le_of_values Numeric.value?_scalar_zero restValue le_rfl nonneg
  have early : unspent < config.frameTime := Numeric.lt_of_values restValue value nonneg less
  exact ⟨_, _, paced.afterTime delta, .add restValue nonneg less amount amountNonneg atMost greatest
    keepsUp.below (keepsUp.sums unspent forward early)⟩

/-- The frames of a tick of a machine that has caught up leave less and less unspent, and the
machine catches up again. -/
theorem CaughtUp.tick (keepsUp : KeepsUp config time limit)
    (caughtUp : machine.CaughtUp config time) {delta : Float}
    (costly : ∀ frame ∈ machine.operationFrames (.tick delta),
      ∀ start ∈ frame.frameInstructions, 1 ≤ start.instructionCycles) :
    (∀ frame ∈ machine.operationFrames (.tick delta), frame.Lowers) ∧
    ∀ reply after, machine.perform (.tick delta) = some (reply, after) →
      after.CaughtUp config time := by
  obtain ⟨unspent, frames, passed, exhaustible⟩ :=
    caughtUp.afterTime value positive longer greatest keepsUp delta
  obtain ⟨_, _, _, paced, -, -, -⟩ := caughtUp
  rw [operationFrames_tick paced.running] at costly ⊢
  obtain ⟨lowers, ends⟩ := lowers_dueFrames value positive passed exhaustible costly
  refine ⟨lowers, fun reply after performed => ?_⟩
  rw [perform_tick_eq paced.running] at performed
  obtain ⟨⟨total, final⟩, returned, same⟩ := Option.map_eq_some_iff.1 performed
  cases same
  obtain ⟨rest, closed, paced', amount, restValue, nonneg, -⟩ := ends _ _ _ returned
  refine ⟨rest, closed, amount, paced', restValue, nonneg, ?_⟩
  have early := frameDue_of_runDueFrames returned
  by_contra above
  rw [paced'.frameDue_iff.2 (Numeric.le_of_values value restValue positive.le (not_lt.1 above))]
    at early
  cases early

/-- The frames of ticks of a machine that has caught up leave less and less unspent. -/
theorem CaughtUp.ticks (keepsUp : KeepsUp config time limit)
    (caughtUp : machine.CaughtUp config time) {deltas : List Float}
    (costly : ∀ frame ∈ machine.historyFrames (deltas.map .tick),
      ∀ start ∈ frame.frameInstructions, 1 ≤ start.instructionCycles) :
    ∀ frame ∈ machine.historyFrames (deltas.map .tick), frame.Lowers := by
  induction deltas generalizing machine with
  | nil => exact List.forall_mem_nil _
  | cons delta deltas ih =>
    rw [List.map_cons] at costly ⊢
    unfold historyFrames at costly ⊢
    obtain ⟨lowers, ends⟩ := caughtUp.tick value positive longer greatest keepsUp
      fun frame run => costly frame (List.mem_append_left _ run)
    refine List.forall_mem_append.2 ⟨lowers, ?_⟩
    cases performed : machine.perform (.tick delta) with
    | none => exact List.forall_mem_nil _
    | some result =>
      rw [performed] at costly
      exact ih (ends _ _ performed) fun frame run => costly frame (List.mem_append_right _ run)

end

/-! ### Host time that is never caught up with -/

section

variable {config : Config Float} {time limit : ℚ} {unspent : Float} {frames : ℕ}
  {machine : Machine Float σ} (value : value? config.frameTime = some time) (positive : 0 < time)

include value positive

/-- While an inexhaustible amount is unspent, there is always another frame due. -/
theorem runDueFrames_eq_none (paced : machine.Paced config unspent frames)
    (inexhaustible : Inexhaustible time unspent) (limit count : ℕ) :
    runDueFrames limit count machine = none := by
  induction limit generalizing machine unspent frames count with
  | zero => exact if_pos (paced.frameDue_iff.2 (inexhaustible.due value positive))
  | succ limit ih =>
    rw [runDueFrames, if_pos (paced.frameDue_iff.2 (inexhaustible.due value positive))]
    cases returned : machine.stepFrame with
    | none => rfl
    | some after =>
      exact ih (paced.spendFrame returned) (inexhaustible.sub value positive) (count + 1)

variable (longer : time ≤ limit) (greatest : value? config.maxFrameDelta = some limit)

include longer greatest

/-- The longest delta is never caught up with if it adds up to an inexhaustible amount. -/
theorem neverCatchesUp (paced : machine.Paced config unspent frames)
    (inexhaustible : Inexhaustible time (unspent + config.maxFrameDelta)) :
    machine.NeverCatchesUp config.maxFrameDelta := by
  have nonneg := positive.le.trans longer
  have credited : machine.clock.credited config.maxFrameDelta = config.maxFrameDelta := by
    refine credited_of_mem
      (Numeric.le_of_values Numeric.value?_scalar_zero greatest le_rfl nonneg) ?_
    rw [paced.maxFrameDelta, Numeric.lt_iff_of_values greatest greatest nonneg nonneg]
    exact lt_irrefl limit
  have passed := paced.afterTime config.maxFrameDelta
  rw [credited] at passed
  exact runDueFrames_eq_none value positive passed inexhaustible

/-- Less than a frame is left unspent by a tick. -/
theorem perform_tick_of_early (paced : machine.Paced config Scalar.zero frames) {delta : Float}
    {rest : ℚ} (restValue : value? delta = some rest) (nonzero : 0 < rest) (less : rest < time) :
    machine.perform (.tick delta) = some (.frames 0, machine.afterTime delta) ∧
      (machine.afterTime delta).Paced config delta frames := by
  have above := Numeric.lt_of_values Numeric.value?_scalar_zero restValue le_rfl nonzero
  have short : ¬ config.maxFrameDelta < delta := by
    rw [Numeric.lt_iff_of_values greatest restValue (positive.le.trans longer) nonzero.le]
    exact not_lt.2 (less.le.trans longer)
  have passed := paced.afterTime delta
  rw [credited_of_mem (Numeric.zero_le_of_pos above) (paced.maxFrameDelta ▸ short),
    Numeric.zero_add_of_pos above] at passed
  refine ⟨?_, passed⟩
  have early : (machine.afterTime delta).clock.frameDue = false := by
    rw [Bool.eq_false_iff, ne_eq, passed.frameDue_iff,
      Numeric.le_iff_of_values value restValue positive.le nonzero.le]
    exact not_le.2 less
  rw [perform_tick_eq paced.running, catchUp_of_not_due early]
  rfl

/-- If host time that cannot be exhausted comes together, then a tick never catches up. -/
theorem exists_neverCatchesUp (paced : machine.Paced config Scalar.zero frames)
    (fails : ¬ KeepsUp config time limit) :
    ∃ (deltas : List Float) (delta : Float) (replies : List Reply) (reached : Machine Float σ),
      machine.performAll (deltas.map .tick) = some (replies, reached) ∧
      reached.state = .running ∧ reached.NeverCatchesUp delta := by
  have nonneg := positive.le.trans longer
  obtain below | stuck := lt_or_ge limit (Numeric.stuckFrom time)
  · obtain ⟨delta, forward, early, overflow⟩ : ∃ delta : Float, Scalar.zero ≤ delta ∧
        delta < config.frameTime ∧ value? (delta + config.maxFrameDelta) = none := by
      by_contra sums
      refine fails ⟨below, fun rest forward early => ?_⟩
      rw [Option.isSome_iff_ne_none]
      exact fun overflow => sums ⟨rest, forward, early, overflow⟩
    obtain ⟨rest, restValue, restNonneg, less⟩ := value_of_early value positive.le forward early
    have sum := Numeric.RoundsTo.add restValue greatest restNonneg nonneg
    have something : 0 < rest := by
      refine restNonneg.lt_of_ne fun none => ?_
      have small := Numeric.value_lt greatest nonneg
      rw [← Numeric.rounded_of_value greatest nonneg, ← zero_add limit, none] at small
      rw [sum.finite small] at overflow
      cases overflow
    obtain ⟨performed, passed⟩ :=
      perform_tick_of_early value positive longer greatest paced restValue something less
    refine ⟨[delta], config.maxFrameDelta, [.frames 0], machine.afterTime delta, ?_,
      passed.running, neverCatchesUp value positive longer greatest passed
        (.inl (sum.infinite_of_none overflow))⟩
    rw [List.map_singleton, performAll, performed]
    rfl
  · refine ⟨[], config.maxFrameDelta, [], machine, rfl, paced.running,
      neverCatchesUp value positive longer greatest paced (.inr ⟨limit, ?_, stuck⟩)⟩
    rw [Numeric.zero_add_of_pos
      (Numeric.lt_of_values Numeric.value?_scalar_zero greatest le_rfl (positive.trans_le longer))]
    exact greatest

end

/-! ### Ticks of a machine with firmware -/

/-- Ticks return, whatever host time is handed over. -/
def TicksReturn (image : Array UInt8) (machine : Machine Float σ) : Prop :=
  ∀ deltas, (machine.performAll (romAndTicks image deltas)).isSome = true

/-- Every frame that is due in a tick returns, and leaves less host time unspent. -/
def TicksLower (image : Array UInt8) (machine : Machine Float σ) : Prop :=
  ∀ deltas, ∀ frame ∈ machine.historyFrames (romAndTicks image deltas), frame.Lowers

/-- Ticks after loading firmware are ticks of the loaded machine. -/
theorem performAll_romAndTicks {machine loaded : Machine Float σ} {image : Array UInt8}
    {reply : Reply} (performed : machine.perform (.loadRom image) = some (reply, loaded))
    (deltas : List Float) :
    machine.performAll (romAndTicks image deltas) =
      (loaded.performAll (deltas.map .tick)).map fun (replies, after) =>
        (reply :: replies, after) := by
  rw [romAndTicks, performAll, performed]
  dsimp only
  cases loaded.performAll (deltas.map .tick) <;> rfl

/-- Their frames are those of the loaded machine. -/
theorem historyFrames_romAndTicks {machine loaded : Machine Float σ} {image : Array UInt8}
    {reply : Reply} (performed : machine.perform (.loadRom image) = some (reply, loaded))
    (deltas : List Float) :
    machine.historyFrames (romAndTicks image deltas) =
      loaded.historyFrames (deltas.map .tick) := by
  rw [romAndTicks, historyFrames, performed]
  rfl

/-- A tick that never catches up does not return. -/
theorem not_ticksReturn_of_neverCatchesUp {machine reached : Machine Float σ}
    {image : Array UInt8} {deltas : List Float} {delta : Float} {replies : List Reply}
    (performed : machine.performAll (romAndTicks image deltas) = some (replies, reached))
    (running : reached.state = .running) (never : reached.NeverCatchesUp delta) :
    ¬ machine.TicksReturn image := by
  intro returns
  have hangs : reached.perform (.tick delta) = none := by
    rw [perform_tick_eq running, catchUp, never]
    rfl
  have alone : reached.performAll ([delta].map .tick) = none := by
    rw [List.map_singleton, performAll, hangs]
  have together := returns (deltas ++ [delta])
  rw [romAndTicks, List.map_append, ← List.cons_append, ← romAndTicks, performAll_append, performed]
    at together
  dsimp only [Option.bind_some] at together
  rw [alone] at together
  cases together

/-- If all instructions take cycles, then ticks return for all host times, and all their frames
leave less host time unspent, exactly if no inexhaustible amount of host time can come together.
Otherwise some ticks lead a running machine to one that never catches up. -/
theorem ticksReturn_iff (config : Config Float) (cpu : σ) {machine : Machine Float σ}
    (built : build config cpu = .ok machine) {limit : ℚ}
    (finite : value? config.maxFrameDelta = some limit) {image : Array UInt8}
    (sized : image.size = Memory.romSize)
    (costly : ∀ deltas, ∀ start ∈ machine.historyInstructions (romAndTicks image deltas),
      1 ≤ start.instructionCycles) :
    ∃ time, value? config.frameTime = some time ∧
      (machine.TicksReturn image ↔ KeepsUp config time limit) ∧
      (machine.TicksLower image ↔ KeepsUp config time limit) ∧
      (¬ KeepsUp config time limit → ∃ deltas delta replies reached,
        machine.performAll (romAndTicks image deltas) = some (replies, reached) ∧
        reached.state = .running ∧ reached.NeverCatchesUp delta) := by
  obtain ⟨valid, -, new⟩ := clock_of_build built
  obtain ⟨time, value, positive, longer⟩ := times_of_valid valid finite
  obtain ⟨loaded, performed, paced⟩ := Paced.loadRom new sized
  have started : loaded.CaughtUp config time :=
    ⟨_, _, 0, paced, Numeric.value?_scalar_zero, le_rfl, positive⟩
  -- What keeps up leaves less and less, what leaves less and less returns, and what returns keeps
  -- up.
  have lowers (keepsUp : KeepsUp config time limit) : machine.TicksLower image := by
    intro deltas
    have costly := costly deltas
    rw [historyInstructions, historyFrames_romAndTicks performed] at costly
    rw [historyFrames_romAndTicks performed]
    exact started.ticks value positive longer finite keepsUp fun frame framed start run =>
      costly start (List.mem_flatMap.2 ⟨frame, framed, run⟩)
  have returns (lowers : machine.TicksLower image) : machine.TicksReturn image := by
    intro deltas
    have lowers := lowers deltas
    rw [historyFrames_romAndTicks performed] at lowers
    rw [performAll_romAndTicks performed, Option.isSome_map]
    exact performAll_ticks_returns value positive paced lowers
  have never (fails : ¬ KeepsUp config time limit) : ∃ deltas delta replies reached,
      machine.performAll (romAndTicks image deltas) = some (replies, reached) ∧
      reached.state = .running ∧ reached.NeverCatchesUp delta := by
    obtain ⟨deltas, delta, replies, reached, done, running, never⟩ :=
      exists_neverCatchesUp value positive longer finite paced fails
    refine ⟨deltas, delta, .done :: replies, reached, ?_, running, never⟩
    rw [performAll_romAndTicks performed, done]
    rfl
  have keepsUp (returns : machine.TicksReturn image) : KeepsUp config time limit := by
    by_contra fails
    obtain ⟨_, _, _, _, done, running, never⟩ := never fails
    exact not_ticksReturn_of_neverCatchesUp done running never returns
  exact ⟨time, value, ⟨keepsUp, returns ∘ lowers⟩, ⟨keepsUp ∘ returns, lowers⟩, never⟩

/-- A machine keeps up if its longest delta is within `2 ^ 53` frames, as long as all times are far
from the greatest doubles. -/
theorem keepsUp_of_moderate {config : Config Float} {time limit : ℚ}
    (value : value? config.frameTime = some time) (positive : 0 < time)
    (greatest : value? config.maxFrameDelta = some limit) (nonneg : 0 ≤ limit)
    (ratio : limit ≤ 2 ^ 53 * time) (size : time + limit < 2 ^ (1023 : ℤ)) :
    KeepsUp config time limit := by
  refine ⟨ratio.trans_lt (Numeric.stuckFrom_bounds positive).1, fun rest forward early => ?_⟩
  obtain ⟨unspent, restValue, restNonneg, less⟩ := value_of_early value positive.le forward early
  have small : Numeric.rounded (unspent + limit) < 2 ^ (1024 : ℤ) :=
    Numeric.rounded_lt_of_lt (add_nonneg restNonneg nonneg) (by linarith)
  rw [(Numeric.RoundsTo.add restValue greatest restNonneg nonneg).finite small]
  rfl

/-- All instructions of a steady processor with firmware and ticks take its cycles. -/
theorem instructionCycles_of_steady {cycles : ℕ} {machine : Machine Float Scripted}
    (steady : machine.cpu.Steady cycles) (image : Array UInt8) (deltas : List Float) :
    ∀ start ∈ machine.historyInstructions (romAndTicks image deltas),
      start.instructionCycles = cycles := fun _ run => (uniform_of_steady steady _ _ run).1

/-- The value of the standard length of a frame. -/
theorem value?_standard_frameTime : value? (Config.standard : Config Float).frameTime = some 20 :=
  Numeric.value?_ofNat_of_short (n := 20) (by norm_num)

/-- The real machine, with frames of 20 milliseconds and deltas of up to 500 milliseconds, always
catches up. -/
theorem ticksReturn_of_standard :
    ∃ machine : Machine Float Scripted,
      build Config.standard (.ofScript #[⟨4, []⟩] true true) = .ok machine ∧
      machine.TicksReturn (Array.replicate Memory.romSize 0) ∧
      machine.TicksLower (Array.replicate Memory.romSize 0) := by
  have valid : (Config.standard : Config Float).Valid := by decide +kernel
  obtain ⟨machine, built⟩ := build_returns valid (Scripted.ofScript #[⟨4, []⟩] true true)
  obtain ⟨-, same, -⟩ := clock_of_build built
  have steady : machine.cpu.Steady 4 := same ▸ .ofScript 4 true
  have greatest : value? (Config.standard : Config Float).maxFrameDelta = some 500 :=
    Numeric.value?_ofNat_of_short (n := 500) (by norm_num)
  obtain ⟨time, value, returns, lowers, -⟩ :=
    ticksReturn_iff _ _ built greatest Array.size_replicate fun deltas start run =>
      (instructionCycles_of_steady steady _ deltas start run).symm ▸ (by decide)
  rw [value?_standard_frameTime] at value
  cases value
  have size : (20 + 500 : ℚ) < 2 ^ (1023 : ℤ) :=
    lt_of_lt_of_le (by norm_num : (20 + 500 : ℚ) < 2 ^ (10 : ℤ))
      (zpow_le_zpow_right₀ one_le_two (by norm_num))
  have keepsUp : KeepsUp (Config.standard : Config Float) 20 500 :=
    keepsUp_of_moderate value?_standard_frameTime (by norm_num) greatest (by norm_num)
      (by norm_num) size
  exact ⟨machine, built, returns.2 keepsUp, lowers.2 keepsUp⟩

/-- Frames of 20 milliseconds, and deltas of up to `10 ^ 18` milliseconds. -/
def longDeltas : Config Float := { Config.standard with maxFrameDelta := 1e18 }

/-- From `10 ^ 18` milliseconds, 20 are rounded away: the frame that is due leaves as much unspent
as before, and the tick never returns. -/
theorem neverCatchesUp_of_longDeltas :
    ∃ (machine loaded : Machine Float Scripted),
      build longDeltas (.ofScript #[⟨4, []⟩] true true) = .ok machine ∧
      value? longDeltas.maxFrameDelta = some (10 ^ 18) ∧
      (∀ deltas, ∀ start ∈ machine.historyInstructions
        (romAndTicks (Array.replicate Memory.romSize 0) deltas), start.instructionCycles = 4) ∧
      machine.performAll (romAndTicks (Array.replicate Memory.romSize 0) []) =
        some ([.done], loaded) ∧
      loaded.state = .running ∧
      (loaded.afterTime longDeltas.maxFrameDelta).clock.frameDue = true ∧
      (loaded.afterTime longDeltas.maxFrameDelta).clock.endFrame.2.unspent =
        (loaded.afterTime longDeltas.maxFrameDelta).clock.unspent ∧
      loaded.NeverCatchesUp longDeltas.maxFrameDelta := by
  have valid : longDeltas.Valid := by decide +kernel
  obtain ⟨machine, built⟩ := build_returns valid (Scripted.ofScript #[⟨4, []⟩] true true)
  obtain ⟨-, same, new⟩ := clock_of_build built
  have steady : machine.cpu.Steady 4 := same ▸ .ofScript 4 true
  have greatest : value? longDeltas.maxFrameDelta = some (10 ^ 18) := by
    have parts : Numeric.parts longDeltas.maxFrameDelta =
      .finite .positive 7812500000000000 7 (by decide) := rfl
    rw [value?, parts]
    norm_num [Float.Model.UnpackedFloat.Sign.apply]
  have value : value? longDeltas.frameTime = some 20 := value?_standard_frameTime
  obtain ⟨loaded, performed, paced⟩ :=
    Paced.loadRom new (Array.size_replicate (n := Memory.romSize) (v := (0 : UInt8)))
  have started : machine.performAll (romAndTicks (Array.replicate Memory.romSize 0) []) =
      some ([.done], loaded) := by
    rw [performAll_romAndTicks performed]
    rfl
  have sum : Scalar.zero + longDeltas.maxFrameDelta = longDeltas.maxFrameDelta := by decide +kernel
  have stuck : Inexhaustible 20 (Scalar.zero + longDeltas.maxFrameDelta) := by
    rw [sum]
    refine .inr ⟨10 ^ 18, greatest, ?_⟩
    have bound := (Numeric.stuckFrom_bounds (by norm_num : (0 : ℚ) < 20)).2
    norm_num at bound ⊢
    linarith
  have passed := paced.afterTime longDeltas.maxFrameDelta
  have credited : loaded.clock.credited longDeltas.maxFrameDelta = longDeltas.maxFrameDelta := by
    refine credited_of_mem (by decide +kernel) ?_
    rw [paced.maxFrameDelta]
    decide +kernel
  rw [credited, sum] at passed
  refine ⟨machine, loaded, built, greatest, instructionCycles_of_steady steady _, started,
    paced.running, ?_, ?_,
    neverCatchesUp value (by norm_num) (by norm_num) greatest paced stuck⟩
  · exact passed.frameDue_iff.2 valid.frameTime_le
  · rw [Clock.unspent_endFrame, passed.unspent, passed.frameTime]
    decide +kernel

end Spectrum48.Machine
