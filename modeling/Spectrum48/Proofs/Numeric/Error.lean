import Mathlib.Tactic.GCongr
import Spectrum48.Proofs.Numeric.Difference

/-!
# Errors of doubles

A result that goes through a few operations is off by a few parts in `2 ^ 52`, as long as nothing
gets so small or so great that doubles run out of exponents. Doubles that stand for fractions
further apart than that are ordered as these are.
-/

namespace Spectrum48.Numeric

/-! ### Magnitudes -/

/-- Zero, or a positive fraction with no more than `bits` binary digits before its point and as many
places after it until it starts. -/
def Within (bits : ℕ) (x : ℚ) : Prop := x = 0 ∨ 1 ≤ x * 2 ^ bits ∧ x ≤ 2 ^ bits

namespace Within

variable {bits more : ℕ} {x y : ℚ}

/-- Zero is of every magnitude. -/
theorem zero (bits : ℕ) : Within bits 0 := .inl rfl

/-- What is within a magnitude is not negative. -/
theorem nonneg (within : Within bits x) : 0 ≤ x := by
  obtain rfl | ⟨low, -⟩ := within
  · exact le_rfl
  · exact ((mul_pos_iff_of_pos_right (by positivity)).1 (zero_lt_one.trans_le low)).le

/-- What is within a magnitude is within a greater one. -/
theorem mono (within : Within bits x) (fewer : bits ≤ more) : Within more x := by
  have nonneg := within.nonneg
  obtain rfl | ⟨low, high⟩ := within
  · exact zero more
  · have step : (2 : ℚ) ^ bits ≤ 2 ^ more := pow_le_pow_right₀ one_le_two fewer
    exact .inr ⟨low.trans (mul_le_mul_of_nonneg_left step nonneg), high.trans step⟩

/-- What is within a moderate magnitude is zero or in the range of doubles with 53 bits. -/
theorem inRange (within : Within bits x) (few : bits ≤ 1022) : x = 0 ∨ InRange x := by
  obtain same | ⟨low, high⟩ := within.mono few
  · exact .inl same
  · refine .inr ⟨?_, ?_⟩
    · rw [zpow_neg, inv_le_iff_one_le_mul₀ (place_pos _)]
      exact_mod_cast low
    · have step : (2 : ℚ) ^ 1022 < 2 ^ (1023 : ℤ) := by
        rw [← zpow_natCast]
        exact zpow_lt_zpow_right₀ one_lt_two (by norm_num)
      exact high.trans_lt step

/-- What is at most twice or at least half as great is within the next magnitude. -/
theorem of_twice (within : Within bits x) (low : x ≤ 2 * y) (high : y ≤ 2 * x) :
    Within (bits + 1) y := by
  obtain rfl | ⟨least, most⟩ := within
  · exact .inl (by linarith)
  · right
    rw [pow_succ]
    have := mul_le_mul_of_nonneg_right low (show (0 : ℚ) ≤ 2 ^ bits by positivity)
    constructor <;> linarith

/-- Sums are within the next magnitude. -/
theorem add (left : Within bits x) (right : Within bits y) : Within (bits + 1) (x + y) := by
  have := left.nonneg
  have := right.nonneg
  obtain rfl | ⟨low, high⟩ := left
  · rw [zero_add]
    exact right.mono (Nat.le_succ bits)
  · obtain rfl | ⟨low', high'⟩ := right
    · rw [add_zero]
      exact mono (.inr ⟨low, high⟩) (Nat.le_succ bits)
    · right
      rw [pow_succ]
      have : 0 ≤ y * 2 ^ bits := by positivity
      constructor <;> linarith

/-- The magnitudes of products add up. -/
theorem mul (left : Within bits x) (right : Within more y) : Within (bits + more) (x * y) := by
  have nonneg := right.nonneg
  obtain rfl | ⟨low, high⟩ := left
  · rw [zero_mul]
    exact zero _
  · obtain rfl | ⟨low', high'⟩ := right
    · rw [mul_zero]
      exact zero _
    · right
      rw [pow_add]
      refine ⟨?_, mul_le_mul high high' nonneg (by positivity)⟩
      have product := one_le_mul_of_one_le_of_one_le low low'
      linarith

/-- A reciprocal is of the same magnitude. -/
theorem inv (within : Within bits x) : Within bits x⁻¹ := by
  obtain rfl | ⟨low, high⟩ := within
  · rw [inv_zero]
    exact zero _
  · have positive : 0 < x :=
      (mul_pos_iff_of_pos_right (by positivity)).1 (zero_lt_one.trans_le low)
    right
    constructor
    · rw [← div_eq_inv_mul, le_div_iff₀ positive, one_mul]
      exact high
    · rw [inv_le_iff_one_le_mul₀ positive, mul_comm]
      exact low

/-- The magnitudes of quotients add up. -/
theorem div (left : Within bits x) (right : Within more y) : Within (bits + more) (x / y) := by
  rw [div_eq_mul_inv]
  exact left.mul right.inv

/-- The magnitude of a natural number. -/
theorem natCast {n : ℕ} (small : n ≤ 2 ^ bits) : Within bits n := by
  obtain rfl | positive := n.eq_zero_or_pos
  · exact .inl Nat.cast_zero
  · right
    have least : (1 : ℚ) ≤ n := by exact_mod_cast positive
    exact ⟨one_le_mul_of_one_le_of_one_le least (one_le_pow₀ one_le_two), by exact_mod_cast small⟩

/-- Rounding leads to the next magnitude at most. -/
theorem rounded (within : Within bits x) : Within (bits + 1) (rounded x) := by
  have near := abs_le.1 (abs_rounded_sub_le within.nonneg)
  have part : x / 2 ^ 53 ≤ x / 2 := div_le_div_of_nonneg_left within.nonneg two_pos (by norm_num)
  exact within.of_twice (by linarith) (by linarith [within.nonneg])

end Within

/-! ### Nearness -/

/-- A double that stands for a fraction, off by no more than `errors` parts in `2 ^ 52`. -/
def Near (errors bits : ℕ) (x : Float) (a : ℚ) : Prop :=
  Within bits a ∧ ∃ value, value? x = some value ∧ |value - a| ≤ errors * a / 2 ^ 52

namespace Near

variable {errors more bits longer : ℕ} {x y : Float} {a b : ℚ}

/-- The bounds can be loosened. -/
theorem mono (near : Near errors bits x a) (fewer : errors ≤ more) (shorter : bits ≤ longer) :
    Near more longer x a := by
  obtain ⟨within, value, finite, error⟩ := near
  have nonneg := within.nonneg
  refine ⟨within.mono shorter, value, finite, error.trans ?_⟩
  gcongr

/-- A rounded fraction is off by one part. -/
theorem of_rounded (within : Within bits a) (finite : value? x = some (rounded a)) :
    Near 1 bits x a := by
  refine ⟨within, _, finite, (abs_rounded_sub_le within.nonneg).trans ?_⟩
  rw [Nat.cast_one, one_mul]
  exact div_le_div_of_nonneg_left within.nonneg (by norm_num) (by norm_num)

/-- A rounded product of exact factors. -/
theorem mul (left : value? x = some a) (right : value? y = some b) (leftNonneg : 0 ≤ a)
    (rightNonneg : 0 ≤ b) (within : Within bits (a * b)) (few : bits ≤ 1022) :
    Near 1 bits (x * y) (a * b) :=
  of_rounded within (value?_mul left right leftNonneg rightNonneg (within.inRange few))

/-- A rounded quotient of exact numbers. -/
theorem div (left : value? x = some a) (right : value? y = some b) (leftNonneg : 0 ≤ a)
    (rightPos : 0 < b) (within : Within bits (a / b)) (few : bits ≤ 1022) :
    Near 1 bits (x / y) (a / b) :=
  of_rounded within (value?_div left right leftNonneg rightPos (within.inRange few))

/-- The value of a double near a fraction is at most twice and at least half as great. -/
theorem twice {value : ℚ} (nonneg : 0 ≤ a) (few : errors ≤ 2 ^ 51)
    (error : |value - a| ≤ errors * a / 2 ^ 52) : a ≤ 2 * value ∧ value ≤ 2 * a := by
  have few : (errors : ℚ) ≤ 2 ^ 51 := by exact_mod_cast few
  have part : errors * a / 2 ^ 52 ≤ a / 2 := by
    rw [div_le_div_iff₀ (by norm_num) two_pos]
    have := mul_le_mul_of_nonneg_right few nonneg
    linarith
  have near := abs_le.1 error
  constructor <;> linarith

/-- A rounded sum of doubles that are off by as much is off by one part more. -/
theorem add (left : Near errors bits x a) (right : Near errors bits y b) (few : errors ≤ 2 ^ 51)
    (short : bits + 2 ≤ 1022) : Near (errors + 1) (bits + 1) (x + y) (a + b) := by
  obtain ⟨within, value, finite, error⟩ := left
  obtain ⟨within', value', finite', error'⟩ := right
  have total := within.add within'
  have close := twice within.nonneg few error
  have close' := twice within'.nonneg few error'
  have nonneg := within.nonneg
  have nonneg' := within'.nonneg
  have sum : Within (bits + 1 + 1) (value + value') := total.of_twice (by linarith) (by linarith)
  refine ⟨total, _, value?_add finite finite' (by linarith) (by linarith) (sum.inRange short), ?_⟩
  have rounding := abs_rounded_sub_le sum.nonneg
  have off : |value + value' - (a + b)| ≤ errors * (a + b) / 2 ^ 52 := by
    rw [add_sub_add_comm, mul_add, add_div]
    exact (abs_add_le _ _).trans (add_le_add error error')
  have part : (value + value') / 2 ^ 53 ≤ (a + b) / 2 ^ 52 := by
    rw [div_le_div_iff₀ (by norm_num) (by norm_num)]
    linarith
  calc |rounded (value + value') - (a + b)|
      ≤ |rounded (value + value') - (value + value')| + |value + value' - (a + b)| :=
        abs_sub_le _ _ _
    _ ≤ (a + b) / 2 ^ 52 + errors * (a + b) / 2 ^ 52 := add_le_add (rounding.trans part) off
    _ = (errors + 1 : ℕ) * (a + b) / 2 ^ 52 := by
        push_cast
        ring

end Near

/-! ### Order -/

/-- A double that is not above another one, both of them finite and of a magnitude. -/
def Precedes (bits : ℕ) (x y : Float) : Prop :=
  ∃ a b, value? x = some a ∧ value? y = some b ∧ Within bits a ∧ Within bits b ∧ a ≤ b

namespace Precedes

variable {bits more : ℕ} {x y scale : Float}

/-- Doubles are ordered as their values are. -/
theorem le (precedes : Precedes bits x y) : x ≤ y := by
  obtain ⟨a, b, left, right, within, -, ordered⟩ := precedes
  exact le_of_values left right within.nonneg ordered

/-- The nearest integers keep the order of products with a number that is not negative. -/
theorem nearest_mul_le (precedes : Precedes bits x y) {factor : ℚ}
    (finite : value? scale = some factor) (magnitude : Within more factor)
    (few : bits + more ≤ 1022) : nearestInt64 (x * scale) ≤ nearestInt64 (y * scale) := by
  obtain ⟨a, b, left, right, within, within', ordered⟩ := precedes
  have product := within.mul magnitude
  have product' := within'.mul magnitude
  have value := value?_mul left finite within.nonneg magnitude.nonneg (product.inRange few)
  have value' := value?_mul right finite within'.nonneg magnitude.nonneg (product'.inRange few)
  have scaled := mul_le_mul_of_nonneg_right ordered magnitude.nonneg
  exact nearestInt64_mono value value' (rounded_nonneg product.nonneg)
    (rounded_mono product.nonneg scaled)

end Precedes

/-- A double near a fraction is not above itself. -/
theorem Near.precedes_self {errors bits : ℕ} {x : Float} {a : ℚ} (near : Near errors bits x a)
    (few : errors ≤ 2 ^ 51) : Precedes (bits + 1) x x := by
  obtain ⟨within, value, finite, error⟩ := near
  obtain ⟨low, high⟩ := Near.twice within.nonneg few error
  have magnitude := within.of_twice low high
  exact ⟨value, value, finite, finite, magnitude, magnitude, le_rfl⟩

/-- Doubles near fractions that are further apart than their errors are ordered as these are. -/
theorem Near.precedes {errors bits : ℕ} {x y : Float} {a b : ℚ} (left : Near errors bits x a)
    (right : Near errors bits y b) (few : errors ≤ 2 ^ 51)
    (apart : errors * (a + b) ≤ 2 ^ 52 * (b - a)) : Precedes (bits + 1) x y := by
  obtain ⟨within, value, finite, error⟩ := left
  obtain ⟨within', value', finite', error'⟩ := right
  obtain ⟨low, high⟩ := Near.twice within.nonneg few error
  obtain ⟨low', high'⟩ := Near.twice within'.nonneg few error'
  refine ⟨value, value', finite, finite', within.of_twice low high, within'.of_twice low' high', ?_⟩
  have near := (abs_le.1 error).2
  have near' := (abs_le.1 error').1
  have gap : errors * a / 2 ^ 52 + errors * b / 2 ^ 52 ≤ b - a := by
    rw [← add_div, ← mul_add, div_le_iff₀ (by norm_num)]
    linarith
  linarith

end Spectrum48.Numeric
