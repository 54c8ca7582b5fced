import Mathlib.Algebra.Order.Archimedean.Basic
import Mathlib.Algebra.Order.Floor.Ring
import Mathlib.Data.Rat.Floor
import Mathlib.Tactic.Linarith
import Spectrum48.Proofs.Machine.Cycles

/-!
# The speed of the machine

Host time that comes in ticks of one frame each runs one frame a tick, exactly, also in doubles:
the time of a frame is added to nothing and taken away again. If all instructions cost the same,
the cycles spent are the budgets of the frames, rounded up to whole instructions.

The budget of a frame is a whole number, so it is the frame's share of the configured frequency only
if that share is whole. Otherwise the difference comes back with every frame, and the cycles spent
drift away from the configured frequency beyond every bound.
-/

namespace Spectrum48.Machine

variable {σ : Type} [Processor σ]

/-- A running machine of a configuration, at a given number of frames and host time unspent. -/
structure Paced (config : Config Float) (unspent : Float) (frames : Nat)
    (machine : Machine Float σ) : Prop where
  /-- Frames are run as host time passes. -/
  running : machine.state = .running
  /-- The length of a frame. -/
  frameTime : machine.clock.frameTime = config.frameTime
  /-- The length of a stall. -/
  maxFrameDelta : machine.clock.maxFrameDelta = config.maxFrameDelta
  /-- Host time that has not been turned into frames. -/
  unspent : machine.clock.unspent = unspent
  /-- Frames completed. -/
  frames : machine.clock.frameCount = frames

/-- All instructions of a history cost the same, and none of them halts. -/
def Uniform (cost : Nat) (machine : Machine Float σ) (history : List (Operation Float)) : Prop :=
  ∀ start ∈ machine.historyInstructions history,
    start.instructionCycles = cost ∧ Processor.isHalted start.runInstruction.cpu = false

/-- The machine once the time of a frame has passed. -/
def afterFrameTime (config : Config Float) (machine : Machine Float σ) : Machine Float σ :=
  { machine with clock := machine.clock.elapse config.frameTime }

namespace Paced

variable {config : Config Float} {unspent : Float} {frames : Nat}
  {machine after : Machine Float σ}

/-- Firmware of the right size starts a new machine without host time. -/
theorem loadRom (fresh : machine.clock = .ofConfig config) {image : Array UInt8}
    (sized : image.size = Memory.romSize) :
    ∃ loaded, machine.perform (.loadRom image) = some (.done, loaded) ∧
      loaded.Paced config Scalar.zero 0 := by
  have performed : machine.perform (.loadRom image) =
      some (.ofUnit (machine.loadRom image).1, (machine.loadRom image).2) := rfl
  rw [performed, Machine.loadRom, if_pos sized]
  exact ⟨_, rfl, rfl, by rw [fresh]; rfl, by rw [fresh]; rfl, rfl, by rw [fresh]; rfl⟩

omit [Processor σ] in
/-- The time of a frame, added to none. -/
theorem afterFrameTime (valid : config.Valid) (paced : machine.Paced config Scalar.zero frames) :
    (machine.afterFrameTime config).Paced config config.frameTime frames := by
  have credited : machine.clock.credited config.frameTime = config.frameTime := by
    unfold Clock.credited Scalar.positivePart
    rw [paced.maxFrameDelta, if_neg (Numeric.not_lt_of_le valid.frameTime_le),
      if_pos (Numeric.zero_le_of_pos valid.frameTime_pos)]
  refine ⟨paced.running, paced.frameTime, paced.maxFrameDelta, ?_, paced.frames⟩
  change machine.clock.unspent + machine.clock.credited config.frameTime = _
  rw [credited, paced.unspent, Numeric.zero_add_of_pos valid.frameTime_pos]

omit [Processor σ] in
/-- Spending cycles takes no host time. -/
theorem addCycles (paced : machine.Paced config unspent frames) (same : after.state = machine.state)
    {cycles : Nat} (spent : after.clock = machine.clock.addCycles cycles) :
    after.Paced config unspent frames := by
  constructor
  · rw [same]
    exact paced.running
  all_goals rw [spent]
  · exact paced.frameTime
  · exact paced.maxFrameDelta
  · exact paced.unspent
  · exact paced.frames

/-- A frame spends the time of a frame. -/
theorem spendFrame (paced : machine.Paced config unspent frames)
    (returned : machine.stepFrame = some after) :
    after.Paced config (unspent - config.frameTime) (frames + 1) := by
  obtain ⟨ran, done, rfl⟩ := stepFrame_eq_some.1 returned
  obtain ⟨-, paced⟩ :=
    keeps_runInstructions (fun middle => middle.Paced config unspent frames) paced
      (fun middle _ _ paced => paced.addCycles rfl (clock_runInstruction middle))
      (fun _ _ _ paced => paced.addCycles rfl rfl) done
  constructor
  · rw [state_finishFrame]
    exact paced.running
  · rw [clock_finishFrame, Clock.frameTime_endFrame]
    exact paced.frameTime
  · rw [clock_finishFrame, Clock.maxFrameDelta_endFrame]
    exact paced.maxFrameDelta
  · rw [clock_finishFrame, Clock.unspent_endFrame, paced.unspent, paced.frameTime]
  · rw [clock_finishFrame, Clock.frameCount_endFrame, paced.frames]

/-- A frame whose time has just passed leaves nothing unspent. -/
theorem stepFrame (valid : config.Valid) {time : ℚ}
    (finite : Numeric.value? config.frameTime = some time)
    (paced : machine.Paced config config.frameTime frames)
    (returned : machine.stepFrame = some after) : after.Paced config Scalar.zero (frames + 1) := by
  have spent := paced.spendFrame returned
  rwa [Numeric.sub_self_of_finite valid.frameTime_pos finite] at spent

omit [Processor σ] in
/-- A frame is due if its time is no more than what is unspent. -/
theorem frameDue_iff (paced : machine.Paced config unspent frames) :
    machine.clock.frameDue = true ↔ config.frameTime ≤ unspent := by
  unfold Clock.frameDue
  rw [paced.frameTime, paced.unspent, decide_eq_true_iff]

omit [Processor σ] in
/-- A frame is due once its time has passed. -/
theorem frameDue (valid : config.Valid) (paced : machine.Paced config config.frameTime frames) :
    machine.clock.frameDue = true :=
  paced.frameDue_iff.2 (Numeric.le_self_of_pos valid.frameTime_pos)

omit [Processor σ] in
/-- No frame is due before any time has passed. -/
theorem not_frameDue (valid : config.Valid) (paced : machine.Paced config Scalar.zero frames) :
    machine.clock.frameDue = false := by
  rw [Bool.eq_false_iff, ne_eq, paced.frameDue_iff]
  intro due
  exact Numeric.not_lt_of_le due valid.frameTime_pos

/-- The time of a frame starts a frame. -/
theorem mem_operationFrames (valid : config.Valid)
    (paced : machine.Paced config Scalar.zero frames) :
    machine.afterFrameTime config ∈ machine.operationFrames (.tick config.frameTime) := by
  change _ ∈ machine.advanceFrames fun clock => clock.elapse config.frameTime
  rw [advanceFrames_of_running paced.running]
  change _ ∈ dueFrames (_ + 1) (machine.afterFrameTime config)
  rw [dueFrames, if_pos (frameDue valid (paced.afterFrameTime valid))]
  exact List.mem_cons_self

/-- A tick of one frame runs one frame. -/
theorem perform_tick (valid : config.Valid) {time : ℚ}
    (finite : Numeric.value? config.frameTime = some time)
    (paced : machine.Paced config Scalar.zero frames)
    (returned : (machine.afterFrameTime config).stepFrame = some after) :
    machine.perform (.tick config.frameTime) = some (.frames 1, after) := by
  have due := frameDue valid (paced.afterFrameTime valid)
  have notDue : after.clock.frameDue = false :=
    not_frameDue valid ((paced.afterFrameTime valid).stepFrame valid finite returned)
  have finished (limit : Nat) : runDueFrames limit 1 after = some (1, after) := by
    cases limit <;> rw [runDueFrames, if_neg (by rw [notDue]; decide)]
  have caughtUp : (machine.afterFrameTime config).catchUp = some (1, after) := by
    change runDueFrames (_ + 1) 0 (machine.afterFrameTime config) = _
    rw [runDueFrames, if_pos due, returned]
    exact finished _
  have ticked : machine.tick config.frameTime = some (.ok 1, after) := by
    rw [tick, advance_of_running paced.running]
    change (machine.afterFrameTime config).catchUp.map _ = _
    rw [caughtUp]
    rfl
  change (machine.tick config.frameTime).map _ = _
  rw [ticked]
  rfl

/-- Ticks of one frame run one frame each. -/
theorem performAll_ticks (valid : config.Valid) {time : ℚ}
    (finite : Numeric.value? config.frameTime = some time) {cost : Nat} (positive : 1 ≤ cost)
    (paced : machine.Paced config Scalar.zero frames) (count : Nat)
    (uniform : machine.Uniform cost (List.replicate count (.tick config.frameTime))) :
    ∃ replies after,
      machine.performAll (List.replicate count (.tick config.frameTime)) = some (replies, after) ∧
      after.Paced config Scalar.zero (frames + count) := by
  induction count generalizing machine frames with
  | zero => exact ⟨[], machine, rfl, paced⟩
  | succ count ih =>
    rw [List.replicate_succ] at uniform ⊢
    obtain ⟨next, returned⟩ : ∃ next, (machine.afterFrameTime config).stepFrame = some next := by
      refine stepFrame_returns fun start run => ?_
      rw [(uniform start
        (mem_historyInstructions_of_operation (paced.mem_operationFrames valid) run _)).1]
      exact positive
    have performed := paced.perform_tick valid finite returned
    obtain ⟨replies, after, reached, paced⟩ :=
      ih ((paced.afterFrameTime valid).stepFrame valid finite returned) fun start run =>
        uniform start (mem_historyInstructions_of_rest performed run)
    refine ⟨.frames 1 :: replies, after, ?_, ?_⟩
    · rw [performAll, performed]
      dsimp only
      rw [reached]
    · rw [Nat.add_right_comm] at paced
      exact paced

end Paced

/-- Instructions of one cost leave a multiple of it. -/
theorem dvd_stepFrame {cost : Nat} {machine after : Machine Float σ}
    (multiple : cost ∣ machine.clock.totalCycles)
    (uniform : ∀ start ∈ machine.frameInstructions,
      start.instructionCycles = cost ∧ Processor.isHalted start.runInstruction.cpu = false)
    (returned : machine.stepFrame = some after) : cost ∣ after.clock.totalCycles := by
  obtain ⟨ran, done, rfl⟩ := stepFrame_eq_some.1 returned
  rw [clock_finishFrame, Clock.totalCycles_endFrame]
  refine (keeps_runInstructions (fun middle => cost ∣ middle.clock.totalCycles) multiple
    ?_ ?_ done).2
  · intro middle run _ multiple
    rw [clock_runInstruction, (uniform middle run).1]
    exact Nat.dvd_add multiple (Nat.dvd_refl cost)
  · intro middle run halted _
    rw [(uniform middle run).2] at halted
    cases halted

/-- A history of instructions of one cost leaves a multiple of it. -/
theorem dvd_performAll {cost : Nat} {machine after : Machine Float σ}
    (multiple : cost ∣ machine.clock.totalCycles) {history : List (Operation Float)}
    (uniform : machine.Uniform cost history) {replies : List Reply}
    (reached : machine.performAll history = some (replies, after)) :
    cost ∣ after.clock.totalCycles := by
  have kept : Kept fun (_ : σ) (clock : Clock Float) => cost ∣ clock.totalCycles :=
    .ofCounters fun multiple _ _ _ total => total ▸ multiple
  refine (kept.performAll multiple ?_).2 _ _ reached
  intro middle framed multiple next returned
  apply dvd_stepFrame multiple ?_ returned
  intro start run
  exact uniform start (List.mem_flatMap.2 ⟨middle, framed, run⟩)

/-- Firmware, and then ticks of one frame each. -/
def frameTicks (config : Config Float) (image : Array UInt8) (count : Nat) :
    List (Operation Float) :=
  .loadRom image :: List.replicate count (.tick config.frameTime)

/-- A multiple of the cost that goes beyond a target by less than the cost is the target rounded
up to whole costs. -/
theorem eq_mul_ceil {total cost : ℕ} {target : ℤ} (positive : 1 ≤ cost) (multiple : cost ∣ total)
    (reached : target ≤ total) (beyond : (total : ℤ) < target + cost) :
    (total : ℤ) = cost * ⌈(target : ℚ) / cost⌉ := by
  obtain ⟨whole, rfl⟩ := multiple
  have costs : (0 : ℚ) < cost := Nat.cast_pos.2 positive
  have reached : (target : ℚ) ≤ cost * whole := by exact_mod_cast reached
  have beyond : (cost : ℚ) * whole < target + cost := by exact_mod_cast beyond
  have rounded : ⌈(target : ℚ) / cost⌉ = whole := by
    rw [Int.ceil_eq_iff, lt_div_iff₀ costs, div_le_iff₀ costs]
    push_cast
    constructor <;> linarith
  rw [rounded]
  push_cast
  ring

/-- A target rounded up to whole costs is at least the target, and beyond it by less than the
cost. -/
theorem bounds_of_eq_mul_ceil {total cost : ℕ} {target : ℤ} (positive : 1 ≤ cost)
    (rounded : (total : ℤ) = cost * ⌈(target : ℚ) / cost⌉) :
    (target : ℚ) ≤ total ∧ (total : ℚ) < target + cost := by
  have costs : (0 : ℚ) < cost := Nat.cast_pos.2 positive
  have whole : cost * ((target : ℚ) / cost) = target := mul_div_cancel₀ _ costs.ne'
  have rounded : (total : ℚ) = cost * ⌈(target : ℚ) / cost⌉ := by exact_mod_cast rounded
  have above := mul_le_mul_of_nonneg_left (Int.le_ceil ((target : ℚ) / cost)) costs.le
  have below := mul_lt_mul_of_pos_left (Int.ceil_lt_add_one ((target : ℚ) / cost)) costs
  rw [mul_add, mul_one, whole] at below
  rw [whole] at above
  rw [rounded]
  exact ⟨above, below⟩

/-- What is repeated any number of times without going beyond a bound is nothing. -/
theorem eq_zero_of_forall_abs_mul_le {error : ℚ} (bound : ℚ)
    (bounded : ∀ count : ℕ, |(count : ℚ) * error| ≤ bound) : error = 0 := by
  by_contra nonzero
  have size : 0 < |error| := abs_pos.2 nonzero
  obtain ⟨count, large⟩ := exists_nat_gt (bound / |error|)
  rw [div_lt_iff₀ size] at large
  have small := bounded count
  rw [abs_mul, Nat.abs_cast] at small
  exact absurd large (not_lt.2 small)

/-- Ticks of one frame run one frame each, and spend the budgets of these frames, rounded up to
whole instructions. -/
theorem performAll_frameTicks {config : Config Float} {cpu : σ} {machine : Machine Float σ}
    (built : build config cpu = .ok machine) {time : ℚ}
    (finite : Numeric.value? config.frameTime = some time) {image : Array UInt8}
    (sized : image.size = Memory.romSize) {cost : Nat} (positive : 1 ≤ cost) (count : Nat)
    (uniform : machine.Uniform cost (frameTicks config image count)) :
    ∃ replies after,
      machine.performAll (frameTicks config image count) = some (replies, after) ∧
      after.clock.frameCount = count ∧
      (after.clock.totalCycles : ℤ) =
        cost * ⌈((count * config.cyclesPerFrame : ℤ) : ℚ) / cost⌉ := by
  obtain ⟨valid, -, new⟩ := clock_of_build built
  obtain ⟨loaded, performed, paced⟩ := Paced.loadRom new sized
  obtain ⟨replies, after, ticked, paced⟩ :=
    paced.performAll_ticks valid finite positive count fun start run =>
      uniform start (mem_historyInstructions_of_rest performed run)
  have reached : machine.performAll (frameTicks config image count)
      = some (.done :: replies, after) := by
    rw [frameTicks, performAll, performed]
    dsimp only
    rw [ticked]
  have frames : after.clock.frameCount = count := paced.frames.trans (Nat.zero_add count)
  have accounts : after.clock.Accounts config.cyclesPerFrame :=
    accounts_performAll (new ▸ .ofConfig config) reached
  have carried : after.clock.cycleCount < cost :=
    carry_performAll (cyclesPerFrame_nonneg valid) positive (new ▸ rfl)
      (new ▸ Int.ofNat_lt.2 positive) (fun start run => (uniform start run).1.le) reached
  have multiple : cost ∣ after.clock.totalCycles :=
    dvd_performAll (new ▸ Nat.dvd_zero cost) uniform reached
  have balanced := accounts.balanced
  have nonneg := accounts.nonneg
  rw [Clock.Balanced, accounts.cyclesPerFrame, frames] at balanced
  exact ⟨_, after, reached, frames, eq_mul_ceil positive multiple (by omega) (by omega)⟩

/-- The machine runs at its configured speed: after any number of ticks of one frame each, as many
frames are completed, and the cycles spent are those that the configured frequency has in that
time, give or take one instruction. -/
def KeepsSpeed (config : Config Float) (image : Array UInt8) (cost : Nat)
    (machine : Machine Float σ) : Prop :=
  ∀ count : ℕ, ∃ replies after time,
    machine.performAll (frameTicks config image count) = some (replies, after) ∧
    after.clock.frameCount = count ∧
    Numeric.value? config.frameTime = some time ∧
    |(after.clock.totalCycles : ℚ) - count * (config.cpuFrequency * time)| ≤ cost

/-- If all instructions cost the same and none halts, ticks of one frame run one frame each, and
spend the budgets of these frames, rounded up to whole instructions. The machine therefore runs at
its configured speed exactly if the budget of a frame, which is a whole number, is the frame's share
of the configured frequency. -/
theorem keepsSpeed_iff (config : Config Float) (cpu : σ) {machine : Machine Float σ}
    (built : build config cpu = .ok machine) {image : Array UInt8}
    (sized : image.size = Memory.romSize) {cost : Nat} (positive : 1 ≤ cost)
    (uniform : ∀ count, machine.Uniform cost (frameTicks config image count)) :
    (∀ time, Numeric.value? config.frameTime = some time → ∀ count : ℕ, ∃ replies after,
      machine.performAll (frameTicks config image count) = some (replies, after) ∧
      after.clock.frameCount = count ∧
      (after.clock.totalCycles : ℤ) =
        cost * ⌈((count * config.cyclesPerFrame : ℤ) : ℚ) / cost⌉) ∧
    (machine.KeepsSpeed config image cost ↔
      ∃ time, Numeric.value? config.frameTime = some time ∧
        (config.cyclesPerFrame : ℚ) = config.cpuFrequency * time) := by
  have spent (time : ℚ) (finite : Numeric.value? config.frameTime = some time) (count : ℕ) :=
    performAll_frameTicks built finite sized positive count (uniform count)
  refine ⟨spent, fun keeps => ?_, fun ⟨time, finite, share⟩ count => ?_⟩
  -- The error of a frame comes back with every frame, so a bound leaves room for none.
  · obtain ⟨-, -, time, -, -, finite, -⟩ := keeps 0
    refine ⟨time, finite, sub_eq_zero.1 (eq_zero_of_forall_abs_mul_le (2 * cost) fun count => ?_)⟩
    obtain ⟨_, after, _, reached, -, same, near⟩ := keeps count
    obtain ⟨_, _, reached', -, total⟩ := spent time finite count
    rw [reached] at reached'
    cases reached'
    rw [finite] at same
    cases same
    obtain ⟨above, below⟩ := bounds_of_eq_mul_ceil positive total
    rw [abs_le] at near ⊢
    push_cast at above below
    rw [mul_sub]
    constructor <;> linarith
  · obtain ⟨replies, after, reached, frames, total⟩ := spent time finite count
    obtain ⟨above, below⟩ := bounds_of_eq_mul_ceil positive total
    push_cast at above below
    refine ⟨replies, after, time, reached, frames, finite, ?_⟩
    rw [← share, abs_le]
    constructor <;> linarith

/-- All instructions of a steady processor cost the same, and none of them halts. -/
theorem uniform_of_steady {cost : Nat} {machine : Machine Float Scripted}
    (steady : machine.cpu.Steady cost) (history : List (Operation Float)) :
    machine.Uniform cost history := by
  intro start run
  obtain ⟨cycles, next⟩ :=
    steady_runInstruction (steady_of_mem_historyInstructions steady run)
  exact ⟨cycles, next.awake⟩

/-- The real machine, with 70000 cycles in a frame of 20 milliseconds, runs at its speed. -/
theorem keepsSpeed_of_standard :
    ∃ machine : Machine Float Scripted,
      build Config.standard (.ofScript #[⟨4, []⟩] true true) = .ok machine ∧
      machine.KeepsSpeed Config.standard (Array.replicate Memory.romSize 0) 4 := by
  have valid : (Config.standard : Config Float).Valid := by decide +kernel
  obtain ⟨machine, built⟩ := build_returns valid (Scripted.ofScript #[⟨4, []⟩] true true)
  obtain ⟨-, same, -⟩ := clock_of_build built
  have steady : machine.cpu.Steady 4 := same ▸ .ofScript 4 true
  have time : Numeric.value? (Config.standard : Config Float).frameTime = some 20 := by
    have parts : Numeric.parts (Config.standard : Config Float).frameTime
      = .finite .positive 5629499534213120 (-48) (by decide) := rfl
    rw [Numeric.value?, parts]
    norm_num [Float.Model.UnpackedFloat.Sign.apply]
  have cycles : (Config.standard : Config Float).cyclesPerFrame = 70000 := by decide +kernel
  refine ⟨machine, built, (keepsSpeed_iff _ _ built (Array.size_replicate) (by decide)
    fun count => uniform_of_steady steady _).2.2 ⟨20, time, ?_⟩⟩
  rw [cycles]
  norm_num [Config.standard]

/-- Frames of a cycle and a half. -/
def fractionalFrames : Config Float :=
  { Config.standard with cpuFrequency := 1, frameTime := 1.5 }

/-- The budget of a frame of a cycle and a half is two cycles, so four frames are eight cycles long
and not six. -/
theorem totalCycles_of_fractionalFrames :
    ∃ (machine : Machine Float Scripted) (replies : List Reply) (after : Machine Float Scripted)
      (time : ℚ),
      build fractionalFrames (.ofScript #[⟨1, []⟩] true true) = .ok machine ∧
      machine.performAll
        (frameTicks fractionalFrames (Array.replicate Memory.romSize 0) 4) =
          some (replies, after) ∧
      after.clock.frameCount = 4 ∧
      after.clock.totalCycles = 8 ∧
      Numeric.value? fractionalFrames.frameTime = some time ∧
      ¬ |(after.clock.totalCycles : ℚ) - 4 * (fractionalFrames.cpuFrequency * time)| ≤ 1 := by
  have valid : fractionalFrames.Valid := by decide +kernel
  obtain ⟨machine, built⟩ := build_returns valid (Scripted.ofScript #[⟨1, []⟩] true true)
  obtain ⟨-, same, -⟩ := clock_of_build built
  have steady : machine.cpu.Steady 1 := same ▸ .ofScript 1 true
  have time : Numeric.value? fractionalFrames.frameTime = some (3 / 2) := by
    have parts : Numeric.parts fractionalFrames.frameTime
      = .finite .positive 6755399441055744 (-52) (by decide) := rfl
    rw [Numeric.value?, parts]
    norm_num [Float.Model.UnpackedFloat.Sign.apply]
  have cycles : fractionalFrames.cyclesPerFrame = 2 := by decide +kernel
  obtain ⟨replies, after, reached, frames, total⟩ :=
    performAll_frameTicks built time (Array.size_replicate) (by decide) 4
      (uniform_of_steady steady _)
  have total : after.clock.totalCycles = 8 := by
    rw [cycles] at total
    norm_num at total
    exact_mod_cast total
  refine ⟨machine, replies, after, 3 / 2, built, reached, frames, total, time, ?_⟩
  rw [total]
  norm_num [fractionalFrames, abs_of_pos]

end Spectrum48.Machine
