import Spectrum48.Proofs.Machine.Cycles
import Spectrum48.Proofs.Machine.Instants
import Spectrum48.Proofs.Machine.Unseen
import Spectrum48.Proofs.Numeric.Error

/-!
# The direction of emulated time

The end of a frame takes the frame's budget, a whole number of cycles, from the cycles of the
current frame, and counts the frame's length instead. Where the budget exceeds what the frame lasts,
emulated time is set back by the difference, which is less than a cycle; but an instruction can run
into any number of frames. As long as it cannot lose the cycle that it takes itself, the instants
that the beeper is told are in order, and so is the beeper's queue. Rounding to doubles does not
change this until the cycles are too many to be told apart.
-/

namespace Spectrum48

namespace Config

/-- The integers of a configuration have no more bits than their parameters. -/
structure Fits (config : Config Float) : Prop where
  /-- The frequency has 32 bits. -/
  cpuFrequency : config.cpuFrequency < 2 ^ 32
  /-- The samples of a second have 32 bits. -/
  sampleRate : config.sampleRate < 2 ^ 32
  /-- The points of a sample have 64 bits. -/
  supersampleFactor : config.supersampleFactor < 2 ^ 64

/-- The timeline has a pace of a moderate magnitude. -/
theorem Fits.pace {config : Config Float} (fits : config.Fits) :
    ∃ pace, Numeric.value? config.supersamplesPerMs = some pace ∧ Numeric.Within 110 pace := by
  have rate : config.sampleRate < 2 ^ 53 := fits.sampleRate.trans (by norm_num)
  have rateWithin : Numeric.Within 32 config.sampleRate := .natCast fits.sampleRate.le
  have factorWithin : Numeric.Within (64 + 1) (Numeric.rounded config.supersampleFactor) :=
    (Numeric.Within.natCast fits.supersampleFactor.le).rounded
  have product := factorWithin.mul rateWithin
  have points := Numeric.value?_mul (Numeric.value?_ofNat fits.supersampleFactor)
    (Numeric.value?_ofNat_of_short rate) factorWithin.nonneg rateWithin.nonneg
    (product.inRange (by norm_num))
  have thousand : Numeric.Within 10 (1000 : ℕ) := .natCast (by norm_num)
  have quotient := product.rounded.div thousand
  have pace := Numeric.value?_div points (Numeric.value?_ofNat_of_short (n := 1000) (by norm_num))
    product.rounded.nonneg (by norm_num) (quotient.inRange (by norm_num))
  exact ⟨_, pace, quotient.rounded.mono (by norm_num)⟩

end Config

namespace Clock

variable {τ : Type}

/-- The cycles that emulated time amounts to, if each of the completed frames lasts `perFrame`. -/
def emulatedCycles (perFrame : ℚ) (clock : Clock τ) : ℚ :=
  clock.frameCount * perFrame + clock.cycleCount

/-- The budgets of the completed frames, and the cycles of the current one. -/
def budgetedCycles (clock : Clock τ) : ℤ :=
  clock.frameCount * clock.cyclesPerFrame + clock.cycleCount

end Clock

namespace Machine

variable {τ σ : Type} [Scalar τ] [Processor σ]

/-! ### Exact cycles -/

/-- What emulated time can lose at the ends of the frames that the next instruction runs into, in
cycles, if a frame lasts `perFrame`. -/
def frameLoss (perFrame : ℚ) (machine : Machine τ σ) : ℚ :=
  (machine.clock.cyclesPerFrame - perFrame) *
    (machine.clock.cyclesPerFrame + machine.extraCycles) / machine.clock.cyclesPerFrame

/-- A machine at which an instruction starts. -/
structure Starts (base : Timebase τ) (machine : Machine τ σ) : Prop where
  /-- What instants are reckoned with. -/
  timebase : machine.timebase = base
  /-- No cycle is owed. -/
  nonneg : 0 ≤ machine.clock.cycleCount
  /-- Cycles of the frame are left. -/
  unspent : machine.clock.cycleCount < machine.clock.cyclesPerFrame

/-- Another machine at which no fewer frames are completed and no fewer cycles spent. -/
structure Onward (cycles : ℤ) (machine later : Machine τ σ) : Prop where
  /-- The budget of a frame is the same. -/
  budget : later.clock.cyclesPerFrame = machine.clock.cyclesPerFrame
  /-- Frames are only completed. -/
  frames : machine.clock.frameCount ≤ later.clock.frameCount
  /-- Cycles are only spent. -/
  cycles : machine.clock.budgetedCycles + cycles ≤ later.clock.budgetedCycles

omit [Scalar τ] [Processor σ] in
/-- Onward and further onward is onward. -/
theorem Onward.trans {cycles more : ℤ} {machine middle later : Machine τ σ}
    (first : Onward cycles machine middle) (second : Onward more middle later) :
    Onward (cycles + more) machine later := by
  refine ⟨second.budget.trans first.budget, first.frames.trans second.frames, ?_⟩
  have := first.cycles
  have := second.cycles
  omega

omit [Scalar τ] [Processor σ] in
/-- What happens between two instructions leads onward. -/
theorem Between.onward {machine after : Machine τ σ} (passed : machine.Between after) :
    Onward 0 machine after := by
  have budget : after.clock.cyclesPerFrame = machine.clock.cyclesPerFrame :=
    congrArg Timebase.cyclesPerFrame passed.timebase
  refine ⟨budget, ?_, ?_⟩
  · obtain ⟨frames, -⟩ | ⟨-, frames, -⟩ := passed.counters <;> omega
  · unfold Clock.budgetedCycles
    rw [budget]
    obtain ⟨frames, cycles⟩ | ⟨-, frames, cycles⟩ := passed.counters
    · rw [frames]
      omega
    · rw [frames, cycles]
      push_cast
      linarith

omit [Scalar τ] [Processor σ] in
/-- By fewer cycles it is onward all the more. -/
theorem Onward.mono {cycles fewer : ℤ} {machine later : Machine τ σ}
    (onward : Onward cycles machine later) (less : fewer ≤ cycles) : Onward fewer machine later :=
  ⟨onward.budget, onward.frames, (Int.add_le_add_left less _).trans onward.cycles⟩

/-- An instruction leads onward by its cycles. -/
theorem onward_runInstruction (machine : Machine τ σ) :
    Onward machine.instructionCycles machine machine.runInstruction := by
  have clock := machine.clock_runInstruction
  refine ⟨by rw [clock]; rfl, by rw [clock]; rfl, ?_⟩
  rw [clock]
  unfold Clock.budgetedCycles Clock.addCycles
  dsimp only
  rw [Int.add_assoc]

/-- Every instruction of a course starts with what instants are reckoned with at the outset. -/
theorem Course.starts {machine after : Machine τ σ} {starts : List (Machine τ σ)}
    (course : Course machine starts after) (nonneg : 0 ≤ machine.clock.cycleCount) :
    ∀ start ∈ starts, start.Starts machine.timebase := by
  induction course with
  | done => exact List.forall_mem_nil _
  | between passed _ ih =>
    rw [← passed.timebase]
    refine ih ?_
    obtain ⟨-, cycles⟩ | ⟨spent, -, cycles⟩ := passed.counters
    · exact nonneg.trans cycles
    · rw [cycles]
      exact Int.sub_nonneg_of_le (Clock.budgetExhausted_iff.1 spent)
  | @instruction machine after starts unspent _ ih =>
    rw [← Bool.not_eq_true, Clock.budgetExhausted_iff, Int.not_le] at unspent
    refine List.forall_mem_cons.2 ⟨⟨rfl, nonneg, unspent⟩, ?_⟩
    rw [← timebase_runInstruction]
    refine ih ?_
    rw [clock_runInstruction]
    exact Int.add_nonneg nonneg (Int.natCast_nonneg _)

/-- The instructions of a course lead onward one after the other, each by its cycles. -/
theorem Course.onward {machine after : Machine τ σ} {starts : List (Machine τ σ)}
    (course : Course machine starts after) :
    (∀ start ∈ starts, Onward 0 machine start) ∧
    starts.Pairwise fun start later => Onward start.instructionCycles start later := by
  induction course with
  | done => exact ⟨List.forall_mem_nil _, .nil⟩
  | between passed _ ih => exact ⟨fun start run => passed.onward.trans (ih.1 start run), ih.2⟩
  | @instruction machine after starts _ _ ih =>
    have next (start : Machine τ σ) (run : start ∈ starts) :
        Onward machine.instructionCycles machine start := by
      have onward := (onward_runInstruction machine).trans (ih.1 start run)
      rwa [Int.add_zero] at onward
    refine ⟨List.forall_mem_cons.2 ⟨(Between.refl machine).onward, ?_⟩, .cons next ih.2⟩
    exact fun start run => (next start run).mono (Int.natCast_nonneg _)

section Slack

variable {base : Timebase τ} {machine later : Machine τ σ} {perFrame margin : ℚ}

omit [Scalar τ] [Processor σ] in
/-- Where an instruction starts, no cycle is owed and a cycle is left. -/
theorem Starts.bounds (starts : machine.Starts base) :
    (0 : ℚ) ≤ machine.clock.cycleCount ∧
      (machine.clock.cycleCount : ℚ) + 1 ≤ machine.clock.cyclesPerFrame :=
  ⟨by exact_mod_cast starts.nonneg, by exact_mod_cast Int.add_one_le_iff.2 starts.unspent⟩

/-- What is lost at the ends of frames, counted in budgets. -/
theorem Starts.loss_le (starts : machine.Starts base)
    (slack : machine.frameLoss perFrame + margin ≤ 1) :
    (machine.clock.cyclesPerFrame - perFrame) *
      (machine.clock.cyclesPerFrame + machine.extraCycles) ≤
        (1 - margin) * machine.clock.cyclesPerFrame := by
  obtain ⟨nonneg, unspent⟩ := starts.bounds
  have positive : (0 : ℚ) < machine.clock.cyclesPerFrame := by linarith
  have loss : machine.frameLoss perFrame ≤ 1 - margin := by linarith
  rwa [frameLoss, div_le_iff₀ positive] at loss

/-- If an instruction cannot lose a whole cycle at the ends of frames, a frame lasts no less than
what is left of the cycle. -/
theorem Starts.margin_le (starts : machine.Starts base) (most : margin ≤ 1)
    (slack : machine.frameLoss perFrame + margin ≤ 1) : margin ≤ perFrame := by
  have loss := starts.loss_le slack
  obtain ⟨nonneg, unspent⟩ := starts.bounds
  have budget : (1 : ℚ) ≤ machine.clock.cyclesPerFrame := by linarith
  have extra : (0 : ℚ) ≤ machine.extraCycles := Nat.cast_nonneg _
  obtain longer | shorter := le_or_gt (machine.clock.cyclesPerFrame : ℚ) perFrame
  · linarith
  · have difference : machine.clock.cyclesPerFrame - perFrame ≤ 1 - margin := by
      refine le_of_mul_le_mul_right (le_trans ?_ loss) (zero_lt_one.trans_le budget)
      exact mul_le_mul_of_nonneg_left (le_add_of_nonneg_right extra) (sub_nonneg.2 shorter.le)
    linarith

/-- An instruction that starts later starts when the cycles of an instruction are spent, counted in
budgets. -/
theorem Onward.spent (onward : Onward machine.instructionCycles machine later) :
    (machine.clock.frameCount : ℚ) * machine.clock.cyclesPerFrame + machine.clock.cycleCount +
      (machine.returnedCycles + machine.extraCycles) ≤
        later.clock.frameCount * machine.clock.cyclesPerFrame + later.clock.cycleCount := by
  have cycles := onward.cycles
  unfold Clock.budgetedCycles at cycles
  rw [onward.budget, instructionCycles_eq] at cycles
  exact_mod_cast cycles

/-- If an instruction that returns a cycle cannot lose it at the ends of frames, an instruction that
starts later starts with what is left of the cycle, or more, after all extra cycles of it. -/
theorem Starts.apart (starts : machine.Starts base) (starts' : later.Starts base)
    (onward : Onward machine.instructionCycles machine later)
    (costly : 1 ≤ machine.returnedCycles) (positive : 0 < margin) (most : margin ≤ 1)
    (slack : machine.frameLoss perFrame + margin ≤ 1) :
    machine.clock.emulatedCycles perFrame + machine.extraCycles + margin ≤
      later.clock.emulatedCycles perFrame := by
  have loss := starts.loss_le slack
  have least := starts.margin_le most slack
  have spent := onward.spent
  have frames : (machine.clock.frameCount : ℚ) ≤ later.clock.frameCount := by
    exact_mod_cast onward.frames
  have costly : (1 : ℚ) ≤ machine.returnedCycles := by exact_mod_cast costly
  obtain ⟨nonneg, early⟩ := starts.bounds
  obtain ⟨nonneg', -⟩ := starts'.bounds
  have extra : (0 : ℚ) ≤ machine.extraCycles := Nat.cast_nonneg _
  unfold Clock.emulatedCycles
  generalize (machine.clock.cyclesPerFrame : ℚ) = budget at *
  generalize (machine.clock.frameCount : ℚ) = first at *
  generalize (later.clock.frameCount : ℚ) = last at *
  generalize (machine.clock.cycleCount : ℚ) = count at *
  generalize (later.clock.cycleCount : ℚ) = count' at *
  generalize (machine.returnedCycles : ℚ) = returned at *
  generalize (machine.extraCycles : ℚ) = charged at *
  obtain longer | shorter := le_or_gt budget perFrame
  -- Completed frames count for no less than their budgets.
  · have gained := mul_le_mul_of_nonneg_left longer (sub_nonneg.2 frames)
    linarith
  -- Counted in budgets, each cycle spent is worth a part of a cycle, and the rest is lost.
  · have worth := mul_le_mul_of_nonneg_left spent (positive.le.trans least)
    have returns := mul_le_mul_of_nonneg_left costly (positive.le.trans least)
    have lost := mul_le_mul_of_nonneg_left (show count + 1 ≤ budget + count' by linarith)
      (sub_nonneg.2 shorter.le)
    refine le_of_mul_le_mul_left ?_ (show 0 < budget by linarith)
    linarith

end Slack

/-! ### Rounded instants -/

/-- Instants are reckoned with a frequency in cycles per millisecond and frames of a length. -/
structure Timebase.Reckons (base : Timebase Float) (frequency : ℕ) (time : ℚ) : Prop where
  /-- There are cycles. -/
  positive : 0 < frequency
  /-- Their number has 32 bits. -/
  short : frequency < 2 ^ 32
  /-- The clock reckons with the frequency. -/
  cyclesPerMs : base.cyclesPerMs = Scalar.ofNat frequency
  /-- The bus reckons with the frequency. -/
  busCyclesPerMs : base.busCyclesPerMs = Scalar.ofNat frequency
  /-- The length of a frame. -/
  frameTime : Numeric.value? base.frameTime = some time

section Rounded

variable {machine : Machine Float σ} {base : Timebase Float} {frequency : ℕ} {time margin : ℚ}

/-- The time of cycles that are not too many is off by one part. -/
theorem Timebase.Reckons.near_div (reckons : base.Reckons frequency time) {cycles : ℕ}
    (few : cycles ≤ 2 ^ 49) :
    Numeric.Near 1 81 (Scalar.ofNat cycles / Scalar.ofNat frequency) (cycles / frequency) := by
  have short := reckons.short
  have magnitude : Numeric.Within (49 + 32) ((cycles : ℚ) / frequency) :=
    .div (.natCast few) (.natCast short.le)
  exact .div (Numeric.value?_ofNat_of_short (by omega)) (Numeric.value?_ofNat_of_short (by omega))
    (Nat.cast_nonneg _) (Nat.cast_pos.2 reckons.positive) magnitude (by norm_num)

/-- The time of frames that last neither too little nor, together, too long is off by one part. -/
theorem Timebase.Reckons.near_mul (reckons : base.Reckons frequency time)
    (least : 1 ≤ frequency * time * 2 ^ 49) {frames : ℕ} (count : frames ≤ 2 ^ 49)
    (few : frames * (frequency * time) ≤ 2 ^ 49) :
    Numeric.Near 1 81 (Scalar.ofNat frames * base.frameTime) (frames * time) := by
  have frequencyOne : (1 : ℚ) ≤ frequency := by exact_mod_cast reckons.positive
  have short : (frequency : ℚ) ≤ 2 ^ 32 := by exact_mod_cast reckons.short.le
  have timePos : 0 < time := by
    rw [← mul_pos_iff_of_pos_left (zero_lt_one.trans_le frequencyOne)]
    linarith
  refine .mul (Numeric.value?_ofNat_of_short (by omega)) reckons.frameTime
    (Nat.cast_nonneg _) timePos.le ?_ (by norm_num)
  obtain rfl | positive := frames.eq_zero_or_pos
  · rw [Nat.cast_zero, zero_mul]
    exact .zero _
  · have one : (1 : ℚ) ≤ frames := by exact_mod_cast positive
    have longer : time ≤ frames * time := le_mul_of_one_le_left timePos.le one
    right
    constructor
    · calc (1 : ℚ) ≤ frequency * time * 2 ^ 49 := least
        _ ≤ 2 ^ 32 * (frames * time) * 2 ^ 49 := by
          refine mul_le_mul_of_nonneg_right ?_ (by norm_num)
          exact mul_le_mul short longer timePos.le (by norm_num)
        _ = frames * time * 2 ^ 81 := by ring
    · have := le_mul_of_one_le_left (timePos.le.trans longer) frequencyOne
      linarith

omit [Processor σ] in
/-- An instant is the sum of three times, each of them rounded. -/
theorem Starts.timeAfter_eq (reckons : base.Reckons frequency time) (starts : machine.Starts base)
    {cycles : ℕ} (count : machine.clock.cycleCount = cycles) (charged : ℕ) :
    (machine.bus.beginInstruction machine.clock.now).timeAfter charged =
      Scalar.ofNat machine.clock.frameCount * base.frameTime +
        Scalar.ofNat cycles / Scalar.ofNat frequency +
        Scalar.ofNat charged / Scalar.ofNat frequency := by
  have frameTime : machine.clock.frameTime = base.frameTime :=
    congrArg Timebase.frameTime starts.timebase
  have clockRate : machine.clock.cyclesPerMs = Scalar.ofNat frequency :=
    (congrArg Timebase.cyclesPerMs starts.timebase).trans reckons.cyclesPerMs
  have busRate : machine.bus.cyclesPerMs = Scalar.ofNat frequency :=
    (congrArg Timebase.busCyclesPerMs starts.timebase).trans reckons.busCyclesPerMs
  change Scalar.ofNat _ * machine.clock.frameTime +
    Scalar.ofInt machine.clock.cycleCount / machine.clock.cyclesPerMs +
      Scalar.ofNat charged / machine.bus.cyclesPerMs = _
  rw [frameTime, clockRate, busRate, count]
  rfl

/-- What lets the instants of an instruction be told apart: a margin of a cycle that it keeps, and
not too many cycles until its last access. -/
structure Distinct (margin perFrame : ℚ) (machine : Machine Float σ) : Prop where
  /-- The instruction returns a cycle. -/
  costly : 1 ≤ machine.returnedCycles
  /-- It cannot lose more than what leaves the margin. -/
  slack : machine.frameLoss perFrame + margin ≤ 1
  /-- Not too many cycles have passed until its last access. -/
  few : machine.clock.emulatedCycles perFrame + machine.extraCycles ≤ margin * 2 ^ 49

/-- Whether instants can be told apart does not depend on the picture. -/
theorem distinct_withPicture {perFrame : ℚ} (machine : Machine Float σ)
    (picture : Video.Picture) :
    (machine.withPicture picture).Distinct margin perFrame = machine.Distinct margin perFrame :=
  propext ⟨fun distinct => ⟨distinct.costly, distinct.slack, distinct.few⟩,
    fun distinct => ⟨distinct.costly, distinct.slack, distinct.few⟩⟩

/-- Where not too many cycles have passed, neither have too many frames, and no cycles of the
current one nor extra cycles are too many. -/
theorem Starts.few {perFrame : ℚ} (starts : machine.Starts base)
    (distinct : machine.Distinct margin perFrame) (positive : 0 < margin) (most : margin ≤ 1) :
    machine.clock.frameCount ≤ 2 ^ 49 ∧ machine.clock.frameCount * perFrame ≤ 2 ^ 49 ∧
      machine.clock.cycleCount ≤ 2 ^ 49 ∧ machine.extraCycles ≤ 2 ^ 49 := by
  have few := distinct.few
  have share := starts.margin_le most distinct.slack
  obtain ⟨cycles, -⟩ := starts.bounds
  have extra : (0 : ℚ) ≤ machine.extraCycles := Nat.cast_nonneg _
  have frames : (0 : ℚ) ≤ machine.clock.frameCount := Nat.cast_nonneg _
  have total : machine.clock.frameCount * margin ≤ machine.clock.frameCount * perFrame :=
    mul_le_mul_of_nonneg_left share frames
  have least : 0 ≤ machine.clock.frameCount * margin := mul_nonneg frames positive.le
  unfold Clock.emulatedCycles at few
  refine ⟨?_, by linarith, ?_, ?_⟩
  · have shares : (machine.clock.frameCount : ℚ) * margin ≤ 2 ^ 49 * margin := by linarith
    exact_mod_cast le_of_mul_le_mul_right shares positive
  · exact_mod_cast (by linarith : (machine.clock.cycleCount : ℚ) ≤ 2 ^ 49)
  · exact_mod_cast (by linarith : (machine.extraCycles : ℚ) ≤ 2 ^ 49)

/-- An instant of an instruction is off by three parts from the exact cycles until then. -/
theorem Starts.near_timeAfter (reckons : base.Reckons frequency time)
    (starts : machine.Starts base) (distinct : machine.Distinct margin (frequency * time))
    (least : 1 ≤ margin * 2 ^ 49) (most : margin ≤ 1) {charged : ℕ}
    (early : charged ≤ machine.extraCycles) :
    machine.clock.emulatedCycles (frequency * time) + charged ≤ margin * 2 ^ 49 ∧
    Numeric.Near 3 83 ((machine.bus.beginInstruction machine.clock.now).timeAfter charged)
      ((machine.clock.emulatedCycles (frequency * time) + charged) / frequency) := by
  have frequencyPos : (0 : ℚ) < frequency := Nat.cast_pos.2 reckons.positive
  have share := starts.margin_le most distinct.slack
  obtain ⟨fewFrames, total, fewCycles, fewExtra⟩ := starts.few distinct (by linarith) most
  obtain ⟨cycles, count⟩ := Int.eq_ofNat_of_zero_le starts.nonneg
  rw [count] at fewCycles
  have fewCycles : cycles ≤ 2 ^ 49 := by exact_mod_cast fewCycles
  have past := reckons.near_mul (by linarith) fewFrames total
  have now := past.add (reckons.near_div fewCycles) (by norm_num) (by norm_num)
  have extra := (reckons.near_div (early.trans fewExtra)).mono one_le_two (Nat.le_succ _)
  have whole : machine.clock.frameCount * time + cycles / frequency + charged / frequency =
      (machine.clock.emulatedCycles (frequency * time) + charged) / frequency := by
    rw [Clock.emulatedCycles, count, Int.cast_natCast]
    field_simp
  constructor
  · have few := distinct.few
    have early : (charged : ℚ) ≤ machine.extraCycles := by exact_mod_cast early
    linarith
  · rw [starts.timeAfter_eq reckons count, ← whole]
    exact now.add extra (by norm_num) (by norm_num)

/-- Instants with a margin between them are in order, as long as not too many cycles have passed. -/
theorem Timebase.Reckons.precedes (reckons : base.Reckons frequency time) {t t' : Float}
    {cycles cycles' : ℚ} (early : Numeric.Near 3 83 t (cycles / frequency))
    (late : Numeric.Near 3 83 t' (cycles' / frequency)) (positive : 0 < margin)
    (apart : cycles + margin ≤ cycles') (few : cycles' ≤ margin * 2 ^ 49) :
    Numeric.Precedes 84 t t' := by
  have frequencyPos : (0 : ℚ) < frequency := Nat.cast_pos.2 reckons.positive
  refine early.precedes late (by norm_num) ?_
  rw [← add_div, ← sub_div, ← mul_div_assoc, ← mul_div_assoc,
    div_le_div_iff_of_pos_right frequencyPos]
  push_cast
  linarith

/-- The instants of an instruction are in order. -/
theorem Starts.forward (reckons : base.Reckons frequency time) (starts : machine.Starts base)
    (distinct : machine.Distinct margin (frequency * time)) (least : 1 ≤ margin * 2 ^ 49)
    (most : margin ≤ 1) : machine.instructionInstants.Pairwise (Numeric.Precedes 84) := by
  obtain ⟨charges, same, sorted, bounds⟩ := machine.instructionInstants_eq
  rw [same, List.pairwise_map]
  refine sorted.imp_of_mem fun {charged later} charge charge' ordered => ?_
  have early := starts.near_timeAfter reckons distinct least most (bounds charged charge)
  have late := starts.near_timeAfter reckons distinct least most (bounds later charge')
  obtain rfl | apart := ordered.eq_or_lt
  · exact early.2.precedes_self (by norm_num)
  · have apart : (charged : ℚ) + 1 ≤ later := by exact_mod_cast apart
    exact reckons.precedes early.2 late.2 (by linarith) (by linarith) late.1

/-- The instants of an instruction come before those of an instruction that starts later. -/
theorem Starts.forward_later {later : Machine Float σ} (reckons : base.Reckons frequency time)
    (starts : machine.Starts base) (starts' : later.Starts base)
    (distinct : machine.Distinct margin (frequency * time))
    (distinct' : later.Distinct margin (frequency * time)) (least : 1 ≤ margin * 2 ^ 49)
    (most : margin ≤ 1) (onward : Onward machine.instructionCycles machine later) :
    ∀ t ∈ machine.instructionInstants, ∀ t' ∈ later.instructionInstants,
      Numeric.Precedes 84 t t' := by
  obtain ⟨charges, same, -, bounds⟩ := machine.instructionInstants_eq
  obtain ⟨charges', same', -, bounds'⟩ := later.instructionInstants_eq
  have positive : 0 < margin := by linarith
  have apart := starts.apart starts' onward distinct.costly positive most distinct.slack
  rw [same, same']
  refine List.forall_mem_map.2 fun charged charge => List.forall_mem_map.2 fun other charge' => ?_
  have early := starts.near_timeAfter reckons distinct least most (bounds charged charge)
  have late := starts'.near_timeAfter reckons distinct' least most (bounds' other charge')
  have ends : (charged : ℚ) ≤ machine.extraCycles := by exact_mod_cast bounds charged charge
  have extra : (0 : ℚ) ≤ other := Nat.cast_nonneg _
  exact reckons.precedes early.2 late.2 positive (by linarith) late.1

/-- The instants of a course are in order. -/
theorem Course.forward {after : Machine Float σ} {starts : List (Machine Float σ)}
    (course : Course machine starts after) (nonneg : 0 ≤ machine.clock.cycleCount)
    (reckons : machine.timebase.Reckons frequency time) (least : 1 ≤ margin * 2 ^ 49)
    (most : margin ≤ 1)
    (distinct : ∀ start ∈ starts, start.Distinct margin (frequency * time)) :
    (starts.flatMap instructionInstants).Pairwise (Numeric.Precedes 84) := by
  have started := course.starts nonneg
  rw [List.pairwise_flatMap]
  refine ⟨fun start run =>
    (started start run).forward reckons (distinct start run) least most, ?_⟩
  refine course.onward.2.imp_of_mem fun {start later} run run' onward => ?_
  exact (started start run).forward_later reckons (started later run') (distinct start run)
    (distinct later run') least most onward

omit [Processor σ] in
/-- A machine that was just built reckons with what its configuration tells, and has told its beeper
nothing. -/
theorem reckons_of_build {config : Config Float} {cpu : σ} (built : build config cpu = .ok machine)
    (fits : config.Fits) (finite : Numeric.value? config.frameTime = some time) :
    machine.timebase.Reckons config.cpuFrequency time ∧ machine.clock.cycleCount = 0 ∧
      machine.beeper = .ofConfig config := by
  have valid := (clock_of_build built).1
  unfold build at built
  split at built
  · cases built
  · cases built
    exact ⟨⟨valid.cpuFrequency_pos, fits.cpuFrequency, rfl, rfl, finite⟩, rfl, rfl⟩

end Rounded

/-- Emulated time never runs backwards where the beeper is told of it, and the beeper's queue
increases strictly and spans no more than the backlog at all times, if every instruction returns a
cycle and keeps a margin of it at the ends of the frames that it runs into. The smaller the margin,
the fewer cycles may pass until doubles cannot tell them apart. -/
theorem instants_forward (config : Config Float) (cpu : σ) {machine : Machine Float σ}
    (built : build config cpu = .ok machine) (fits : config.Fits) {time : ℚ}
    (finite : Numeric.value? config.frameTime = some time) (history : List (Operation Float))
    {margin : ℚ} (least : 1 ≤ margin * 2 ^ 49) (most : margin ≤ 1)
    (distinct : ∀ start ∈ machine.historyInstructions history,
      start.Distinct margin (config.cpuFrequency * time)) :
    (machine.historyInstants history).Pairwise (· ≤ ·) ∧
    (∀ start ∈ machine.historyInstructions history, ∀ told, told <+: start.instructionInstants →
      (told.foldl Beeper.notify start.beeper).Ordered) ∧
    ∀ replies after, machine.performAll history = some (replies, after) →
      after.beeper.Ordered := by
  obtain ⟨reckons, start, silent⟩ := reckons_of_build built fits finite
  obtain ⟨last, course, ends⟩ := machine.leads_performAll history
  have forward := course.forward start.ge reckons least most distinct
  obtain ⟨pace, paced, magnitude⟩ := fits.pace
  have ordered := course.ordered
    (by
      rw [silent]
      exact .of_isEmpty rfl)
    (forward.imp fun precedes => by
      rw [silent]
      exact precedes.nearest_mul_le paced magnitude (by norm_num))
    (by
      rw [silent]
      exact List.forall_mem_nil _)
  refine ⟨forward.imp Numeric.Precedes.le, ordered.1, fun replies after reached => ?_⟩
  rw [← ends after (by rw [reached]; rfl)]
  exact ordered.2

/-- Frames of a hundred cycles and a half, whose budget is 101 cycles. -/
def unevenFrames : Config Float :=
  { Config.standard with
    cpuFrequency := 1
    frameTime := 100.5
    contentionPenalty := 20
    sampleRate := 1000
    supersampleFactor := 1 }

/-- A processor that toggles the speaker, once after a contended access, and overruns a frame. -/
def overrunningToggles : Scripted :=
  .ofScript #[⟨60, [.read 0x4000, .output 0xFE 0x10]⟩, ⟨300, [.output 0xFE 0x00]⟩] true true

/-- The budget of a frame of a hundred cycles and a half takes half a cycle too much, but no
instruction is charged enough extra cycles to run into so many frames that time is set back. -/
theorem instants_forward_of_unevenFrames :
    ∃ (machine : Machine Float Scripted) (replies : List Reply) (after : Machine Float Scripted),
      build unevenFrames overrunningToggles = .ok machine ∧
      machine.performAll (List.replicate 9 .stepFrame) = some (replies, after) ∧
      (machine.historyInstants (List.replicate 9 .stepFrame)).length = 6 ∧
      (machine.historyInstants (List.replicate 9 .stepFrame)).Pairwise (· ≤ ·) ∧
      after.beeper.Ordered := by
  have time : Numeric.value? unevenFrames.frameTime = some (201 / 2) := by
    have parts : Numeric.parts unevenFrames.frameTime =
      .finite .positive 7072058789855232 (-46) (by decide) := rfl
    rw [Numeric.value?, parts]
    norm_num [Float.Model.UnpackedFloat.Sign.apply]
  have built := build_eq_new (show unevenFrames.Valid by decide +kernel) overrunningToggles
  have fits : unevenFrames.Fits := ⟨by decide, by decide, by decide⟩
  have computed : (unseenFrames 9 (new unevenFrames overrunningToggles)).any (fun run =>
      (run.1.flatMap instructionInstants).length == 6 &&
      run.1.all fun start => decide (1 ≤ start.returnedCycles) &&
        decide (start.frameLoss (unevenFrames.cpuFrequency * (201 / 2)) + 2 / 5 ≤ 1) &&
        decide (start.clock.emulatedCycles (unevenFrames.cpuFrequency * (201 / 2)) +
          start.extraCycles ≤ 2 / 5 * 2 ^ 49)) = true := by
    decide +kernel
  obtain ⟨⟨starts, after⟩, run, checked⟩ := (Option.any_eq_true _ _).1 computed
  rw [Bool.and_eq_true, beq_iff_eq, List.all_eq_true] at checked
  obtain ⟨replies, drawn, reached⟩ :=
    (performAll_of_unseenFrames instructionInstants (fun _ _ => rfl) run
      (new unevenFrames overrunningToggles).picture).2
  have distinct : ∀ start ∈ starts,
      start.Distinct (2 / 5) (unevenFrames.cpuFrequency * (201 / 2)) := by
    intro start ran
    have costs := checked.2 start ran
    simp only [Bool.and_eq_true, decide_eq_true_eq] at costs
    exact ⟨costs.1.1, costs.1.2, costs.2⟩
  obtain ⟨forward, -, ordered⟩ := instants_forward unevenFrames overrunningToggles built fits time
    (List.replicate 9 .stepFrame) (show 1 ≤ (2 / 5 : ℚ) * 2 ^ 49 by norm_num) (by norm_num)
    (forall_of_unseenFrames distinct_withPicture run distinct)
  refine ⟨_, replies, _, built, reached, ?_, forward, ordered _ _ reached⟩
  rw [historyInstants_of_unseenFrames run]
  exact checked.1

/-- Frames of half a cycle, whose budget is one cycle, and a backlog of one point. -/
def halfCycleFrames : Config Float :=
  { Config.standard with
    cpuFrequency := 1
    frameTime := 0.5
    contentionPenalty := 3
    sampleRate := 1000
    supersampleFactor := 1
    maxBacklog := 1 }

/-- A processor that toggles the speaker after a contended access, and then twice more. -/
def lateToggles : Scripted :=
  .ofScript #[⟨1, [.read 0x4000, .output 0xFE 0x10]⟩, ⟨1, [.output 0xFE 0x00]⟩,
    ⟨1, [.output 0xFE 0x10]⟩] false true

/-- Where the first instruction runs into four frames of half a cycle each, the budgets of these
frames set emulated time back by two cycles. The next toggle is told to lie before the first one,
and the queue neither increases nor keeps to the backlog. -/
theorem instants_of_halfCycleFrames :
    ∃ (machine : Machine Float Scripted) (replies : List Reply) (after : Machine Float Scripted),
      build halfCycleFrames lateToggles = .ok machine ∧
      (∀ start ∈ machine.historyInstructions (List.replicate 6 .stepFrame),
        1 ≤ start.returnedCycles) ∧
      machine.performAll (List.replicate 6 .stepFrame) = some (replies, after) ∧
      ¬ (machine.historyInstants (List.replicate 6 .stepFrame)).Pairwise (· ≤ ·) ∧
      halfCycleFrames.backlogSpan = 1 ∧
      after.beeper.pending.toList = [3, 2, 3] ∧ ¬ after.beeper.Ordered := by
  have built := build_eq_new (show halfCycleFrames.Valid by decide +kernel) lateToggles
  have computed : (unseenFrames 6 (new halfCycleFrames lateToggles)).any (fun run =>
      run.1.all (fun start => decide (1 ≤ start.returnedCycles)) &&
      decide (¬ (run.1.flatMap instructionInstants).Pairwise (· ≤ ·)) &&
      run.2.beeper.pending.toList == [3, 2, 3]) = true := by
    decide +kernel
  obtain ⟨⟨starts, after⟩, run, checked⟩ := (Option.any_eq_true _ _).1 computed
  rw [Bool.and_eq_true, Bool.and_eq_true, List.all_eq_true, decide_eq_true_iff, beq_iff_eq]
    at checked
  obtain ⟨⟨costly, backwards⟩, queued⟩ := checked
  obtain ⟨replies, drawn, reached⟩ :=
    (performAll_of_unseenFrames instructionInstants (fun _ _ => rfl) run
      (new halfCycleFrames lateToggles).picture).2
  refine ⟨_, replies, _, built, ?_, reached, ?_, by decide +kernel, queued, fun ordered => ?_⟩
  · exact forall_of_unseenFrames (fun _ _ => rfl) run fun start ran =>
      decide_eq_true_iff.1 (costly start ran)
  · rw [historyInstants_of_unseenFrames run]
    exact backwards
  · have increasing := ordered.increasing
    change after.beeper.pending.toList.Pairwise (· < ·) at increasing
    rw [queued] at increasing
    exact absurd increasing (by decide)

end Machine

end Spectrum48
