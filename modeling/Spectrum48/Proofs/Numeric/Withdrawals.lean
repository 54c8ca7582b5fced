import Spectrum48.Proofs.Numeric.Difference

/-!
# Taking away without end

A positive step is taken away from a double as often as no less than the step is left. The greater
the double, the further apart are its neighbours; once they are twice as far apart as the step, the
step is rounded away, and what is left is as much as before. That takes doubles of about `2 ^ 53`
times the step. Below them every step counts, so it is taken away only so many times.
-/

namespace Spectrum48.Numeric

/-- The least power of two that is at least twice as great as a step. -/
def spacing (step : ℚ) : ℚ := 2 ^ (Int.clog 2 step + 1)

/-- The least double from which a step can be taken away without end. From `2 ^ 52` spacings on,
doubles are a spacing apart. From the next one on, a step of less than half a spacing is rounded
away; half a spacing goes to the even neighbour, and so is rounded away from the one after that. -/
def stuckFrom (step : ℚ) : ℚ :=
  if 2 * step = spacing step then (2 ^ 52 + 2) * spacing step else (2 ^ 52 + 1) * spacing step

variable {step : ℚ}

/-- A spacing is positive. -/
theorem spacing_pos (step : ℚ) : 0 < spacing step := place_pos _

/-- A spacing is at least twice, and less than four times, the step. -/
theorem spacing_bounds (positive : 0 < step) :
    2 * step ≤ spacing step ∧ spacing step < 4 * step := by
  have above : step ≤ 2 ^ Int.clog 2 step := Int.self_le_zpow_clog one_lt_two step
  have below : (2 : ℚ) ^ (Int.clog 2 step - 1) < step :=
    Int.zpow_pred_clog_lt_self one_lt_two positive
  rw [zpow_sub_one₀ two_ne_zero] at below
  rw [spacing, zpow_add_one₀ two_ne_zero]
  constructor <;> linarith

/-- Where a step begins to be taken away without end, to within a factor of about two. -/
theorem stuckFrom_bounds (positive : 0 < step) :
    2 ^ 53 * step < stuckFrom step ∧ stuckFrom step < (2 ^ 54 + 8) * step := by
  obtain ⟨twice, four⟩ := spacing_bounds positive
  unfold stuckFrom
  split <;> constructor <;> linarith

/-- A step is below the amounts that are stuck. -/
theorem le_stuckFrom (positive : 0 < step) : step ≤ stuckFrom step := by
  linarith [(stuckFrom_bounds positive).1]

/-- A double of 53 bits before a place is a multiple of that place. -/
theorem exists_eq_mul_place {x : Float} {a : ℚ} {place : ℤ} (finite : value? x = some a)
    (many : 2 ^ 52 * 2 ^ place ≤ a) : ∃ count : ℕ, a = count * 2 ^ place := by
  have positive : 0 < a := (mul_pos (by norm_num) (place_pos place)).trans_le many
  obtain ⟨significand, exponent, nonzero, -, stored, rfl⟩ := parts_of_value_pos finite positive
  have high : place ≤ exponent := by
    have bits : (significand : ℚ) < 2 ^ (53 : ℤ) := by exact_mod_cast stored.high
    have less := many.trans_lt (mul_lt_mul_of_pos_right bits (place_pos exponent))
    rw [← zpow_natCast, ← zpow_add₀ two_ne_zero, ← zpow_add₀ two_ne_zero,
      zpow_lt_zpow_iff_right₀ one_lt_two] at less
    push_cast at less
    omega
  obtain ⟨shift, rfl⟩ := Int.exists_add_of_le high
  refine ⟨significand * 2 ^ shift, ?_⟩
  rw [zpow_add₀ two_ne_zero, zpow_natCast]
  push_cast
  ring

/-- A double between the doubles that are less than a spacing apart and those that are stuck: there
is one if the step is half a spacing, and otherwise none. -/
theorem eq_of_between {x : Float} {a : ℚ} (finite : value? x = some a)
    (above : 2 ^ 52 * spacing step < a) (below : a < stuckFrom step) :
    2 * step = spacing step ∧ a = (2 ^ 52 + 1) * spacing step := by
  have positive := spacing_pos step
  obtain ⟨count, rfl⟩ : ∃ count : ℕ, a = count * spacing step :=
    exists_eq_mul_place finite above.le
  have more : 2 ^ 52 < count := by exact_mod_cast lt_of_mul_lt_mul_right above positive.le
  unfold stuckFrom at below
  split at below
  · next half =>
    have less : count < 2 ^ 52 + 2 := by exact_mod_cast lt_of_mul_lt_mul_right below positive.le
    obtain rfl : count = 2 ^ 52 + 1 := by omega
    have same : ((2 ^ 52 + 1 : ℕ) : ℚ) = 2 ^ 52 + 1 := by norm_num
    rw [same]
    exact ⟨half, rfl⟩
  · have less : count < 2 ^ 52 + 1 := by exact_mod_cast lt_of_mul_lt_mul_right below positive.le
    omega

/-- Below the doubles that are stuck, taking away a step leaves less. -/
theorem rounded_sub_lt {x : Float} {a : ℚ} (finite : value? x = some a) (positive : 0 < step)
    (due : step ≤ a) (below : a < stuckFrom step) : rounded (a - step) < a := by
  obtain ⟨twice, four⟩ := spacing_bounds positive
  obtain small | large := lt_or_ge (a - step) (2 ^ 52 * spacing step)
  -- The last place of what is left is half a spacing at most, so rounding is off by less than a
  -- step.
  · obtain none | rest := (sub_nonneg.2 due).eq_or_lt
    · rw [← none, rounded_zero]
      linarith
    · have last : lastPlace (a - step) ≤ Int.clog 2 step := by
        rw [spacing, ← zpow_natCast, ← zpow_add₀ two_ne_zero] at small
        have power := (Int.lt_zpow_iff_log_lt one_lt_two rest).1 small
        unfold lastPlace
        push_cast at power
        omega
      have place : (2 : ℚ) ^ lastPlace (a - step) ≤ 2 ^ Int.clog 2 step :=
        zpow_le_zpow_right₀ one_le_two last
      have half : spacing step = 2 ^ Int.clog 2 step * 2 := zpow_add_one₀ two_ne_zero _
      have near := (abs_le.1 (abs_rounded_sub_le_half (a - step))).2
      linarith
  -- What is left lies half-way between two doubles, of which the lower one is even.
  · obtain ⟨half, rfl⟩ := eq_of_between finite (by linarith) below
    have same : ((2 ^ 52 : ℤ) : ℚ) = 2 ^ 52 := by norm_num
    have rest : (2 ^ 52 + 1) * spacing step - step =
        (((2 ^ 52 : ℤ) : ℚ) + 1 / 2) * spacing step := by
      rw [same, ← half]
      ring
    have down : rounded ((2 ^ 52 + 1) * spacing step - step) = 2 ^ 52 * spacing step := by
      rw [rest, spacing, rounded_mul_place (by norm_num) (by norm_num),
        nearestEven_add_half (by norm_num), same]
    rw [down]
    linarith

/-- Taking a step away from a double that is stuck leaves one that is stuck. -/
theorem stuckFrom_le_rounded_sub {a : ℚ} (positive : 0 < step) (stuck : stuckFrom step ≤ a) :
    stuckFrom step ≤ rounded (a - step) := by
  obtain ⟨twice, four⟩ := spacing_bounds positive
  have large := spacing_pos step
  have least : (2 ^ 52 + 1) * spacing step ≤ stuckFrom step := by
    unfold stuckFrom
    split <;> linarith
  refine le_trans ?_ (rounded_mono (by linarith) (sub_le_sub_right stuck step))
  unfold stuckFrom
  split
  · next half =>
    have same : ((2 ^ 52 + 2 : ℤ) : ℚ) = 2 ^ 52 + 2 := by norm_num
    have rest : (2 ^ 52 + 2) * spacing step - step =
        (((2 ^ 52 + 2 : ℤ) : ℚ) - 1 / 2) * spacing step := by
      rw [same, ← half]
      ring
    rw [rest, spacing, rounded_mul_place (by norm_num) (by norm_num),
      nearestEven_sub_half (by norm_num), same]
  · next whole =>
    have part : step / spacing step < 1 / 2 := by
      rw [div_lt_div_iff₀ large two_pos]
      linarith [twice.lt_of_ne whole]
    have nonneg : 0 < step / spacing step := div_pos positive large
    have rest : (2 ^ 52 + 1) * spacing step - step =
        (2 ^ 52 + 1 - step / spacing step) * spacing step := by
      rw [sub_mul, div_mul_cancel₀ _ large.ne']
    have up : (2 ^ 52 + 1 : ℤ) ≤ nearestEven (2 ^ 52 + 1 - step / spacing step) :=
      le_nearestEven_of_lt (by push_cast; linarith)
    rw [rest]
    nth_rewrite 3 [spacing]
    rw [rounded_mul_place (by linarith) (by linarith)]
    refine mul_le_mul_of_nonneg_right ?_ large.le
    exact_mod_cast up

/-- Less than a step and a double that is not stuck add up to one that is not stuck. -/
theorem rounded_add_lt {x : Float} {a b : ℚ} (nonneg : 0 ≤ a) (less : a < step)
    (finite : value? x = some b) (right : 0 ≤ b) (below : b < stuckFrom step) :
    rounded (a + b) < stuckFrom step := by
  have positive : 0 < step := nonneg.trans_lt less
  obtain ⟨twice, four⟩ := spacing_bounds positive
  have large := spacing_pos step
  obtain small | above := le_or_gt b (2 ^ 52 * spacing step)
  · have same : ((2 ^ 52 : ℤ) : ℚ) = 2 ^ 52 := by norm_num
    have least : 2 ^ 52 * spacing step < stuckFrom step := by
      unfold stuckFrom
      split <;> linarith
    have most : a + b ≤ (((2 ^ 52 : ℤ) : ℚ) + 1 / 2) * spacing step := by
      rw [same]
      linarith
    refine lt_of_le_of_lt ((rounded_mono (by linarith) most).trans_eq ?_) least
    rw [spacing, rounded_mul_place (by norm_num) (by norm_num),
      nearestEven_add_half (by norm_num), same]
  · obtain ⟨half, rfl⟩ := eq_of_between finite above below
    have part : a / spacing step < 1 / 2 := by
      rw [div_lt_div_iff₀ large two_pos]
      linarith
    have part' : 0 ≤ a / spacing step := div_nonneg nonneg large.le
    have total : a + (2 ^ 52 + 1) * spacing step =
        (a / spacing step + (2 ^ 52 + 1)) * spacing step := by
      rw [add_mul (a / spacing step), div_mul_cancel₀ _ large.ne']
    have down : nearestEven (a / spacing step + (2 ^ 52 + 1)) ≤ 2 ^ 52 + 1 :=
      nearestEven_le_of_lt (by push_cast; linarith)
    have down : ((nearestEven (a / spacing step + (2 ^ 52 + 1)) : ℤ) : ℚ) ≤ 2 ^ 52 + 1 := by
      exact_mod_cast down
    rw [total]
    nth_rewrite 2 [spacing]
    rw [rounded_mul_place (by linarith) (by linarith), stuckFrom, if_pos half]
    exact mul_lt_mul_of_pos_right (by linarith) large

/-! ### Amounts -/

/-- An amount that a step can be taken away from only so many times. -/
def Exhaustible (step : ℚ) (amount : Float) : Prop :=
  ∃ a, value? amount = some a ∧ 0 ≤ a ∧ a < stuckFrom step

/-- An amount that a step can be taken away from without end. -/
def Inexhaustible (step : ℚ) (amount : Float) : Prop :=
  parts amount = .infinity .positive ∨ ∃ a, value? amount = some a ∧ stuckFrom step ≤ a

section

variable {amount x : Float} (finite : value? x = some step) (positive : 0 < step)

include finite positive

/-- Taking a step away from an exhaustible amount leaves less, which is exhaustible. -/
theorem Exhaustible.sub (exhaustible : Exhaustible step amount) (due : x ≤ amount) :
    Exhaustible step (amount - x) ∧ amount - x < amount := by
  obtain ⟨a, value, nonneg, below⟩ := exhaustible
  have due := (le_iff_of_values finite value positive.le nonneg).1 due
  have rest := value?_sub value finite positive due
  have restNonneg := rounded_nonneg (sub_nonneg.2 due)
  have less := rounded_sub_lt value positive due below
  exact ⟨⟨_, rest, restNonneg, less.trans below⟩, lt_of_values rest value restNonneg less⟩

/-- Taking a step away from an inexhaustible amount leaves one. -/
theorem Inexhaustible.sub (inexhaustible : Inexhaustible step amount) :
    Inexhaustible step (amount - x) := by
  obtain infinite | ⟨a, value, stuck⟩ := inexhaustible
  · exact .inl (parts_sub_of_infinite infinite finite)
  · have due := (le_stuckFrom positive).trans stuck
    exact .inr ⟨_, value?_sub value finite positive due, stuckFrom_le_rounded_sub positive stuck⟩

/-- A step is no more than an inexhaustible amount. -/
theorem Inexhaustible.due (inexhaustible : Inexhaustible step amount) : x ≤ amount := by
  obtain infinite | ⟨a, value, stuck⟩ := inexhaustible
  · exact le_of_infinite finite infinite
  · exact le_of_values finite value positive.le ((le_stuckFrom positive).trans stuck)

/-- As long as taking a step away leaves less, the integer that the bits spell gets less. -/
theorem toBits_sub_lt (due : x ≤ amount) (less : amount - x < amount) (again : x ≤ amount - x) :
    (amount - x).toBits.toNat < amount.toBits.toNat := by
  obtain infinite | ⟨a, value, atLeast⟩ := value_of_le finite positive.le due
  · rw [lt_iff, infinite, parts_sub_of_infinite infinite finite] at less
    cases less
  · have rest := value?_sub value finite positive atLeast
    have restNonneg := rounded_nonneg (sub_nonneg.2 atLeast)
    have above := (le_iff_of_values finite rest positive.le restNonneg).1 again
    exact toBits_lt_of_values rest value (positive.trans_le above)
      ((lt_iff_of_values rest value restNonneg (positive.le.trans atLeast)).1 less)

end

/-- Less than a step and a finite amount that is exhaustible have an exhaustible sum, if there is a
finite sum even with the greatest such amount. -/
theorem Exhaustible.add {rest amount most : Float} {a b limit : ℚ}
    (left : value? rest = some a) (leftNonneg : 0 ≤ a) (less : a < step)
    (right : value? amount = some b) (rightNonneg : 0 ≤ b) (atMost : b ≤ limit)
    (greatest : value? most = some limit) (below : limit < stuckFrom step)
    (sum : (value? (rest + most)).isSome = true) : Exhaustible step (rest + amount) := by
  have totalNonneg := add_nonneg leftNonneg rightNonneg
  have small := (RoundsTo.add left greatest leftNonneg (rightNonneg.trans atMost)).lt_of_isSome sum
  have fewer := rounded_mono totalNonneg (add_le_add_right atMost a)
  exact ⟨_, (RoundsTo.add left right leftNonneg rightNonneg).finite (fewer.trans_lt small),
    rounded_nonneg totalNonneg,
    rounded_add_lt leftNonneg less right rightNonneg (atMost.trans_lt below)⟩

end Spectrum48.Numeric
