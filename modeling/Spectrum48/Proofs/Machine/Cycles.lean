import Spectrum48.Proofs.Machine.Steady
import Spectrum48.Proofs.Numeric.Double

/-!
# Where the cycles go

Cycles are spent by instructions and by idling after a halt, and each completed frame takes its
budget. Whatever the processor does, what is spent is the budgets of the completed frames and what
is carried into the next one. The carry is never negative, and it stays below any bound on the cost
of an instruction: a frame only starts an instruction while its budget is not spent, so only the
last one can go beyond it.
-/

namespace Spectrum48

namespace Clock

variable {τ : Type}

/-- The clock of a machine with `budget` cycles in a frame, which accounts for every cycle. -/
structure Accounts (budget : Int) (clock : Clock τ) : Prop where
  /-- The cycles of a frame. -/
  cyclesPerFrame : clock.cyclesPerFrame = budget
  /-- Every cycle is accounted for. -/
  balanced : clock.Balanced
  /-- No cycle is owed. -/
  nonneg : 0 ≤ clock.cycleCount

namespace Accounts

variable {budget : Int} {clock : Clock τ}

/-- A new clock accounts for its cycles. -/
theorem ofConfig [Scalar τ] (config : Config τ) :
    (Clock.ofConfig config).Accounts config.cyclesPerFrame :=
  ⟨rfl, balanced_ofConfig config, le_rfl⟩

/-- Spent cycles are accounted for. -/
theorem addCycles (accounts : clock.Accounts budget) (cycles : Nat) :
    (clock.addCycles cycles).Accounts budget :=
  ⟨accounts.cyclesPerFrame, balanced_addCycles accounts.balanced cycles,
    Int.add_nonneg accounts.nonneg (Int.natCast_nonneg cycles)⟩

/-- A frame can be closed once its budget is spent. -/
theorem endFrame [Scalar τ] (accounts : clock.Accounts budget)
    (spent : clock.budgetExhausted = true) : clock.endFrame.2.Accounts budget := by
  refine ⟨?_, balanced_endFrame accounts.balanced, ?_⟩
  · rw [cyclesPerFrame_endFrame]
    exact accounts.cyclesPerFrame
  · rw [cycleCount_endFrame]
    exact Int.sub_nonneg_of_le (budgetExhausted_iff.1 spent)

end Accounts

end Clock

namespace Machine

variable {τ σ : Type} [Scalar τ] [Processor σ]

/-- What is said of the counters alone is kept by the host's operations. -/
theorem Kept.ofCounters {holds : Clock τ → Prop}
    (same : ∀ {clock other : Clock τ}, holds clock →
      other.cyclesPerFrame = clock.cyclesPerFrame → other.cycleCount = clock.cycleCount →
      other.frameCount = clock.frameCount → other.totalCycles = clock.totalCycles →
      holds other) :
    Kept fun (_ : σ) => holds where
  reset := id
  setRegisters _ := id
  resetBaseline start := same start rfl rfl rfl rfl
  elapse _ start := same start rfl rfl rfl rfl
  elapseTo {_ clock} timestamp start := by
    obtain ⟨unspent, only⟩ := clock.elapseTo_eq timestamp
    rw [only]
    exact same start rfl rfl rfl rfl

/-- The host's operations keep the accounts. -/
theorem kept_accounts (budget : Int) :
    Kept fun (_ : σ) (clock : Clock τ) => clock.Accounts budget :=
  .ofCounters fun accounts frame count frames total =>
    ⟨frame.trans accounts.cyclesPerFrame, by
      rw [Clock.Balanced, total, frames, frame, count]
      exact accounts.balanced, count ▸ accounts.nonneg⟩

/-- A frame keeps the accounts. -/
theorem accounts_stepFrame {budget : Int} {machine after : Machine τ σ}
    (accounts : machine.clock.Accounts budget) (returned : machine.stepFrame = some after) :
    after.clock.Accounts budget := by
  obtain ⟨ran, done, rfl⟩ := stepFrame_eq_some.1 returned
  obtain ⟨spent, accounts⟩ :=
    keeps_runInstructions (fun middle => middle.clock.Accounts budget) accounts
      (fun middle _ _ accounts => accounts.addCycles middle.instructionCycles)
      (fun middle _ _ accounts => accounts.addCycles _) done
  rw [clock_finishFrame]
  exact accounts.endFrame spent

/-- A history keeps the accounts. -/
theorem accounts_performAll {budget : Int} {machine after : Machine τ σ}
    (accounts : machine.clock.Accounts budget) {history : List (Operation τ)}
    {replies : List Reply} (reached : machine.performAll history = some (replies, after)) :
    after.clock.Accounts budget :=
  ((kept_accounts budget).performAll accounts
    fun _ _ accounts _ returned => accounts_stepFrame accounts returned).2 replies after reached

/-- A frame carries less than the cost of an instruction into the next one. -/
theorem carry_stepFrame {budget : Int} (nonneg : 0 ≤ budget) {bound : Nat} (positive : 1 ≤ bound)
    {machine after : Machine τ σ} (frame : machine.clock.cyclesPerFrame = budget)
    (carried : machine.clock.cycleCount < bound)
    (bounded : ∀ start ∈ machine.frameInstructions, start.instructionCycles ≤ bound)
    (returned : machine.stepFrame = some after) :
    after.clock.cyclesPerFrame = budget ∧ after.clock.cycleCount < bound := by
  obtain ⟨ran, done, rfl⟩ := stepFrame_eq_some.1 returned
  have below : ran.clock.cyclesPerFrame = budget ∧ ran.clock.cycleCount < budget + bound := by
    refine (keeps_runInstructions (fun middle => middle.clock.cyclesPerFrame = budget ∧
      middle.clock.cycleCount < budget + bound) ⟨frame, by omega⟩ ?_ ?_ done).2
    -- An instruction starts below the budget, whatever was carried in.
    · rintro middle run unspent ⟨frame, -⟩
      have cost := bounded middle run
      rw [← Bool.not_eq_true, Clock.budgetExhausted_iff] at unspent
      rw [clock_runInstruction]
      refine ⟨frame, ?_⟩
      simp only [Clock.addCycles]
      omega
    · rintro middle run halted ⟨frame, below⟩
      refine ⟨frame, ?_⟩
      simp only [Clock.idleToFrameEnd, Clock.addCycles]
      omega
  rw [clock_finishFrame, Clock.cyclesPerFrame_endFrame, Clock.cycleCount_endFrame]
  exact ⟨below.1, by omega⟩

/-- A history carries less than the cost of an instruction. -/
theorem carry_performAll {budget : Int} (nonneg : 0 ≤ budget) {bound : Nat} (positive : 1 ≤ bound)
    {machine after : Machine τ σ} (frame : machine.clock.cyclesPerFrame = budget)
    (carried : machine.clock.cycleCount < bound) {history : List (Operation τ)}
    (bounded : ∀ start ∈ machine.historyInstructions history, start.instructionCycles ≤ bound)
    {replies : List Reply} (reached : machine.performAll history = some (replies, after)) :
    after.clock.cycleCount < bound := by
  have kept : Kept fun (_ : σ) (clock : Clock τ) =>
      clock.cyclesPerFrame = budget ∧ clock.cycleCount < bound :=
    .ofCounters fun start frame count _ _ => ⟨frame.trans start.1, count ▸ start.2⟩
  refine ((kept.performAll ⟨frame, carried⟩ ?_).2 _ _ reached).2
  rintro middle framed ⟨frame, carried⟩ next returned
  apply carry_stepFrame nonneg positive frame carried ?_ returned
  intro start run
  exact bounded start (List.mem_flatMap.2 ⟨middle, framed, run⟩)

/-- A run of instructions that all take cycles spends the budget. -/
theorem runInstructions_returns {limit : Nat} {machine : Machine τ σ}
    (costly : ∀ start ∈ instructionsRun limit machine, 1 ≤ start.instructionCycles)
    (enough : machine.clock.cyclesPerFrame ≤ machine.clock.cycleCount + limit) :
    ∃ after, runInstructions limit machine = some after := by
  -- Each instruction takes a cycle, so the budget is spent before the limit runs out.
  induction limit generalizing machine with
  | zero =>
    refine ⟨machine, if_pos ?_⟩
    rw [Clock.budgetExhausted_iff]
    omega
  | succ limit ih =>
    unfold instructionsRun at costly
    unfold runInstructions
    split
    · exact ⟨machine, rfl⟩
    · next unspent =>
      rw [if_neg unspent] at costly
      have cost : 1 ≤ machine.instructionCycles := costly machine List.mem_cons_self
      dsimp only
      split
      · exact ⟨_, rfl⟩
      · next awake =>
        rw [if_neg awake] at costly
        apply ih
        · intro start run
          exact costly start (List.mem_cons_of_mem _ run)
        · simp only [clock_runInstruction, Clock.addCycles]
          omega

/-- A frame returns if all its instructions take cycles. -/
theorem stepFrame_returns {machine : Machine τ σ}
    (costly : ∀ start ∈ machine.frameInstructions, 1 ≤ start.instructionCycles) :
    ∃ after, machine.stepFrame = some after := by
  have left : (machine.clock.cyclesPerFrame - machine.clock.cycleCount).toNat ≤
      machine.instructionLimit :=
    Nat.le_mul_of_pos_right _ (Nat.succ_pos _)
  obtain ⟨ran, returned⟩ := runInstructions_returns costly (by omega)
  exact ⟨ran.finishFrame, stepFrame_eq_some.2 ⟨ran, returned, rfl⟩⟩

/-- A frame of a steady processor whose instruction takes cycles returns. -/
theorem steady_stepFrame_returns {cycles : Nat} (positive : 1 ≤ cycles)
    {machine : Machine τ Scripted} (steady : machine.cpu.Steady cycles) :
    ∃ after, machine.stepFrame = some after ∧ after.cpu.Steady cycles := by
  obtain ⟨after, returned⟩ : ∃ after, machine.stepFrame = some after := by
    refine stepFrame_returns fun start run => ?_
    rw [(steady_runInstruction (steady_of_mem_frameInstructions steady run)).1]
    exact positive
  exact ⟨after, returned, steady_stepFrame steady returned⟩

omit [Processor σ] in
/-- A valid configuration gives a machine. -/
theorem build_returns {config : Config τ} (valid : config.Valid) (cpu : σ) :
    ∃ machine, build config cpu = .ok machine := by
  unfold build
  rw [Config.defect?_eq_none_iff.2 valid]
  exact ⟨_, rfl⟩

omit [Processor σ] in
/-- A machine that was just built has a valid configuration and a new clock. -/
theorem clock_of_build {config : Config τ} {cpu : σ} {machine : Machine τ σ}
    (built : build config cpu = .ok machine) :
    config.Valid ∧ machine.cpu = cpu ∧ machine.clock = .ofConfig config := by
  unfold build at built
  split at built
  · cases built
  · next sound =>
    cases built
    exact ⟨Config.defect?_eq_none_iff.1 sound, rfl, rfl⟩

/-- The cycles of a valid frame are not negative. -/
theorem cyclesPerFrame_nonneg {config : Config Float} (valid : config.Valid) :
    0 ≤ config.cyclesPerFrame := by
  apply Numeric.toRange_nonneg (by decide)
  apply Numeric.signOf_ofParts
  exact Numeric.signOf_mul (Numeric.signOf_ofNat _) (Numeric.signOf_of_pos valid.frameTime_pos)

/-- After every history of a new machine, the cycles spent are the budgets of the completed frames
and the carry. The carry is not negative, and it is below every bound on the cost of the
instructions that were run. The next frame returns if all its instructions take cycles. -/
theorem totalCycles_eq (config : Config Float) (cpu : σ) {machine : Machine Float σ}
    (built : build config cpu = .ok machine) (history : List (Operation Float))
    {replies : List Reply} {after : Machine Float σ}
    (reached : machine.performAll history = some (replies, after)) :
    (after.clock.totalCycles : Int) =
      after.clock.frameCount * config.cyclesPerFrame + after.clock.cycleCount ∧
    0 ≤ after.clock.cycleCount ∧
    (∀ bound : Nat, 1 ≤ bound →
      (∀ start ∈ machine.historyInstructions history, start.instructionCycles ≤ bound) →
        after.clock.cycleCount < bound ∧
        after.clock.frameCount * config.cyclesPerFrame ≤ after.clock.totalCycles ∧
        after.clock.totalCycles < after.clock.frameCount * config.cyclesPerFrame + bound) ∧
    ((∀ start ∈ after.frameInstructions, 1 ≤ start.instructionCycles) →
      ∃ next, after.stepFrame = some next) := by
  obtain ⟨valid, -, new⟩ := clock_of_build built
  have accounts : after.clock.Accounts config.cyclesPerFrame :=
    accounts_performAll (new ▸ .ofConfig config) reached
  have balanced := accounts.balanced
  rw [Clock.Balanced, accounts.cyclesPerFrame] at balanced
  refine ⟨balanced, accounts.nonneg, fun bound positive bounded => ?_, stepFrame_returns⟩
  have carried : after.clock.cycleCount < bound :=
    carry_performAll (cyclesPerFrame_nonneg valid) positive (new ▸ rfl)
      (new ▸ Int.ofNat_lt.2 positive) bounded reached
  have nonneg := accounts.nonneg
  exact ⟨carried, by omega, by omega⟩

/-- Frames of 30 cycles. -/
def shortFrames : Config Float := { Config.standard with cpuFrequency := 3, frameTime := 10 }

/-- An instruction of 70 cycles goes beyond two frames of 30 cycles, and is accounted for. -/
theorem totalCycles_eq_of_overshoot :
    ∃ (machine : Machine Float Scripted) (replies : List Reply) (after : Machine Float Scripted),
      build shortFrames (.ofScript #[⟨70, []⟩] true true) = .ok machine ∧
      machine.performAll [.stepFrame, .stepFrame] = some (replies, after) ∧
      (after.clock.totalCycles : Int) = after.clock.frameCount * 30 + after.clock.cycleCount ∧
      0 ≤ after.clock.cycleCount ∧ after.clock.cycleCount < 70 ∧
      ∃ next, after.stepFrame = some next := by
  have cycles : shortFrames.cyclesPerFrame = 30 := by decide +kernel
  have valid : shortFrames.Valid := by decide +kernel
  obtain ⟨machine, built⟩ := build_returns valid (Scripted.ofScript #[⟨70, []⟩] true true)
  obtain ⟨-, same, -⟩ := clock_of_build built
  have steady : machine.cpu.Steady 70 := same ▸ .ofScript 70 true
  obtain ⟨middle, first, middleSteady⟩ := steady_stepFrame_returns (by decide) steady
  obtain ⟨after, second, afterSteady⟩ := steady_stepFrame_returns (by decide) middleSteady
  have reached : machine.performAll [.stepFrame, .stepFrame] = some ([.done, .done], after) := by
    simp only [performAll, perform, first, second, Option.map_some]
  obtain ⟨balanced, nonneg, bounded, next⟩ :=
    totalCycles_eq shortFrames _ built [.stepFrame, .stepFrame] reached
  obtain ⟨carried, -⟩ := bounded 70 (by decide) fun start run =>
    (steady_runInstruction (steady_of_mem_historyInstructions steady run)).1.le
  rw [cycles] at balanced
  refine ⟨machine, _, after, built, reached, balanced, nonneg, carried, next fun start run => ?_⟩
  rw [(steady_runInstruction (steady_of_mem_frameInstructions afterSteady run)).1]
  decide

end Machine

end Spectrum48
