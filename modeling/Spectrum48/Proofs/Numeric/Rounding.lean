import Mathlib.Data.Int.Log
import Mathlib.Data.Rat.Floor
import Mathlib.Tactic.Linarith
import Mathlib.Tactic.NormNum
import Mathlib.Tactic.Ring

/-!
# Rounding to doubles

A positive fraction is rounded to 53 significant bits: to the nearest multiple of its last place, a
half going to the even one. Rounding keeps the order, leaves alone what needs no more bits, and is
off by no more than a part in `2 ^ 53`.
-/

namespace Spectrum48.Numeric

/-! ### The nearest integer -/

/-- The integer nearest to a fraction, a half going to the even neighbour. -/
def nearestEven (x : ℚ) : ℤ :=
  if Int.fract x < 1 / 2 then ⌊x⌋
  else if 1 / 2 < Int.fract x then ⌊x⌋ + 1
  else ⌊x⌋ + ⌊x⌋ % 2

/-- The nearest integer is one of the two neighbours. -/
theorem nearestEven_bounds (x : ℚ) : ⌊x⌋ ≤ nearestEven x ∧ nearestEven x ≤ ⌊x⌋ + 1 := by
  unfold nearestEven
  split_ifs <;> omega

/-- The nearest integer is no more than a half away. -/
theorem abs_nearestEven_sub_le (x : ℚ) : |(nearestEven x : ℚ) - x| ≤ 1 / 2 := by
  have split := Int.floor_add_fract x
  have nonneg := Int.fract_nonneg x
  have below := Int.fract_lt_one x
  have parity : ⌊x⌋ % 2 = 0 ∨ ⌊x⌋ % 2 = 1 := by omega
  unfold nearestEven
  rw [abs_le]
  split_ifs with low high
  · constructor <;> linarith
  · push_cast
    constructor <;> linarith
  · obtain even | odd := parity
    · rw [even]
      push_cast
      constructor <;> linarith
    · rw [odd]
      push_cast
      constructor <;> linarith

/-- What is less than a half above an integer is not rounded above it. -/
theorem nearestEven_le_of_lt {x : ℚ} {n : ℤ} (below : x < n + 1 / 2) : nearestEven x ≤ n := by
  have near := (abs_le.1 (abs_nearestEven_sub_le x)).2
  have less : (nearestEven x : ℚ) < (n + 1 : ℤ) := by
    push_cast
    linarith
  exact Int.lt_add_one_iff.1 (Int.cast_lt.1 less)

/-- What is less than a half below an integer is not rounded below it. -/
theorem le_nearestEven_of_lt {x : ℚ} {n : ℤ} (above : n - 1 / 2 < x) : n ≤ nearestEven x := by
  have near := (abs_le.1 (abs_nearestEven_sub_le x)).1
  have less : ((n - 1 : ℤ) : ℚ) < nearestEven x := by
    push_cast
    linarith
  exact Int.sub_one_lt_iff.1 (Int.cast_lt.1 less)

/-- A half above an even integer goes down to it. -/
theorem nearestEven_add_half {n : ℤ} (even : n % 2 = 0) : nearestEven (n + 1 / 2) = n := by
  have floor : ⌊(n : ℚ) + 1 / 2⌋ = n := by
    rw [Int.floor_eq_iff]
    constructor <;> linarith
  rw [nearestEven, Int.fract, floor, add_sub_cancel_left, if_neg (lt_irrefl _),
    if_neg (lt_irrefl _), even, add_zero]

/-- A half below an even integer goes up to it. -/
theorem nearestEven_sub_half {n : ℤ} (even : n % 2 = 0) : nearestEven (n - 1 / 2) = n := by
  have floor : ⌊(n : ℚ) - 1 / 2⌋ = n - 1 := by
    rw [Int.floor_eq_iff]
    push_cast
    constructor <;> linarith
  have fract : (n : ℚ) - 1 / 2 - (n - 1 : ℤ) = 1 / 2 := by
    push_cast
    ring
  rw [nearestEven, Int.fract, floor, fract, if_neg (lt_irrefl _), if_neg (lt_irrefl _)]
  omega

/-- An integer is its own nearest integer. -/
theorem nearestEven_intCast (n : ℤ) : nearestEven n = n := by
  rw [nearestEven, Int.fract_intCast, Int.floor_intCast, if_pos (by norm_num)]

/-- The nearest integers are ordered as the fractions are. -/
theorem nearestEven_mono {x y : ℚ} (ordered : x ≤ y) : nearestEven x ≤ nearestEven y := by
  obtain apart | same := lt_or_eq_of_le (Int.floor_mono ordered)
  · exact (nearestEven_bounds x).2.trans
      ((Int.add_one_le_iff.2 apart).trans (nearestEven_bounds y).1)
  · have fract : Int.fract x ≤ Int.fract y := by
      rw [Int.fract, Int.fract, same]
      linarith
    unfold nearestEven
    rw [same]
    split_ifs <;> first | omega | linarith

/-! ### The last place -/

/-- The exponent of the last place of a fraction with 53 significant bits. -/
def lastPlace (x : ℚ) : ℤ := Int.log 2 x - 52

/-- A fraction rounded to 53 significant bits. -/
def rounded (x : ℚ) : ℚ := nearestEven (x / 2 ^ lastPlace x) * 2 ^ lastPlace x

/-- A last place is positive. -/
theorem place_pos (place : ℤ) : (0 : ℚ) < 2 ^ place := zpow_pos two_pos place

/-- A positive fraction counted in its last place has 53 bits. -/
theorem bounds_in_lastPlace {x : ℚ} (positive : 0 < x) :
    (2 : ℚ) ^ 52 ≤ x / 2 ^ lastPlace x ∧ x / 2 ^ lastPlace x < 2 ^ 53 := by
  have low : (2 : ℚ) ^ Int.log 2 x ≤ x := Int.zpow_log_le_self one_lt_two positive
  have high : x < (2 : ℚ) ^ (Int.log 2 x + 1) := Int.lt_zpow_succ_log_self one_lt_two x
  have least : ((52 : ℕ) : ℤ) + lastPlace x = Int.log 2 x := add_sub_cancel _ _
  have most : ((53 : ℕ) : ℤ) + lastPlace x = Int.log 2 x + 1 := by
    rw [← least]
    push_cast
    ring
  rw [le_div_iff₀ (place_pos _), div_lt_iff₀ (place_pos _), ← zpow_natCast, ← zpow_natCast,
    ← zpow_add₀ two_ne_zero, ← zpow_add₀ two_ne_zero, least, most]
  exact ⟨low, high⟩

/-- The last place of a fraction with 53 bits. -/
theorem lastPlace_eq {x : ℚ} {place : ℤ} (low : (2 : ℚ) ^ 52 * 2 ^ place ≤ x)
    (high : x < 2 ^ 53 * 2 ^ place) : lastPlace x = place := by
  have positive : 0 < x := lt_of_lt_of_le (mul_pos (by norm_num) (place_pos place)) low
  rw [← zpow_natCast, ← zpow_add₀ two_ne_zero] at low high
  have least := (Int.zpow_le_iff_le_log one_lt_two positive).1 low
  have most := (Int.lt_zpow_iff_log_lt one_lt_two positive).1 high
  unfold lastPlace
  push_cast at least most
  omega

/-- The significand of a positive fraction has 53 bits, or has just outgrown them. -/
theorem significand_bounds {x : ℚ} (positive : 0 < x) :
    2 ^ 52 ≤ nearestEven (x / 2 ^ lastPlace x) ∧
      nearestEven (x / 2 ^ lastPlace x) ≤ 2 ^ 53 := by
  obtain ⟨low, high⟩ := bounds_in_lastPlace positive
  rw [← nearestEven_intCast (2 ^ 52), ← nearestEven_intCast (2 ^ 53)]
  push_cast
  exact ⟨nearestEven_mono low, nearestEven_mono high.le⟩

/-- Nothing is rounded to nothing. -/
theorem rounded_zero : rounded 0 = 0 := by
  have none : nearestEven 0 = 0 := nearestEven_intCast 0
  rw [rounded, zero_div, none, Int.cast_zero, zero_mul]

/-- A multiple of its last place is left alone. -/
theorem rounded_of_whole {x : ℚ} {count : ℤ} (whole : x = count * 2 ^ lastPlace x) :
    rounded x = x := by
  have counted : x / 2 ^ lastPlace x = count := by
    rw [div_eq_iff (place_pos _).ne']
    exact whole
  rw [rounded, counted, nearestEven_intCast, ← whole]

/-- A fraction with 53 bits before its last place is rounded there. -/
theorem rounded_mul_place {x : ℚ} (low : 2 ^ 52 ≤ x) (high : x < 2 ^ 53) (place : ℤ) :
    rounded (x * 2 ^ place) = nearestEven x * 2 ^ place := by
  have last : lastPlace (x * 2 ^ place) = place :=
    lastPlace_eq (mul_le_mul_of_nonneg_right low (place_pos place).le)
      (mul_lt_mul_of_pos_right high (place_pos place))
  rw [rounded, last, mul_div_cancel_right₀ _ (place_pos place).ne']

/-- Rounding is off by no more than half of the last place. -/
theorem abs_rounded_sub_le_half (x : ℚ) : |rounded x - x| ≤ 2 ^ lastPlace x / 2 := by
  have place := place_pos (lastPlace x)
  have near := mul_le_mul_of_nonneg_right (abs_nearestEven_sub_le (x / 2 ^ lastPlace x)) place.le
  rw [← abs_of_pos place, ← abs_mul, sub_mul, abs_of_pos place, div_mul_cancel₀ _ place.ne']
    at near
  refine near.trans_eq ?_
  ring

/-- Rounding is off by no more than a part in `2 ^ 53`. -/
theorem abs_rounded_sub_le {x : ℚ} (nonneg : 0 ≤ x) : |rounded x - x| ≤ x / 2 ^ 53 := by
  obtain rfl | positive := nonneg.eq_or_lt
  · rw [rounded_zero, sub_zero, abs_zero, zero_div]
  · have low := (bounds_in_lastPlace positive).1
    rw [le_div_iff₀ (place_pos _)] at low
    refine (abs_rounded_sub_le_half x).trans ?_
    rw [div_le_div_iff₀ two_pos (by norm_num)]
    linarith

/-- Rounding leaves what is not negative so. -/
theorem rounded_nonneg {x : ℚ} (nonneg : 0 ≤ x) : 0 ≤ rounded x := by
  have near := abs_le.1 (abs_rounded_sub_le nonneg)
  have part : x / 2 ^ 53 ≤ x := div_le_self nonneg (by norm_num)
  linarith [near.1]

/-- Rounding keeps the order. -/
theorem rounded_mono {x y : ℚ} (nonneg : 0 ≤ x) (ordered : x ≤ y) : rounded x ≤ rounded y := by
  obtain rfl | positive := nonneg.eq_or_lt
  · rw [rounded_zero]
    exact rounded_nonneg ordered
  · have places : lastPlace x ≤ lastPlace y :=
      sub_le_sub_right (Int.log_mono_right positive ordered) 52
    obtain same | apart := places.eq_or_lt
    · unfold rounded
      rw [same]
      refine mul_le_mul_of_nonneg_right ?_ (place_pos _).le
      exact Int.cast_le.2 (nearestEven_mono (div_le_div_of_nonneg_right ordered (place_pos _).le))
    -- Between fractions of different lengths lies a power of two, which is left alone.
    · have short : (nearestEven (x / 2 ^ lastPlace x) : ℚ) ≤ 2 ^ 53 := by
        exact_mod_cast (significand_bounds positive).2
      have long : (2 : ℚ) ^ 52 ≤ nearestEven (y / 2 ^ lastPlace y) := by
        exact_mod_cast (significand_bounds (positive.trans_le ordered)).1
      have step : (2 : ℚ) ^ (lastPlace x + 1) ≤ 2 ^ lastPlace y :=
        zpow_le_zpow_right₀ one_le_two apart
      rw [zpow_add_one₀ two_ne_zero] at step
      calc rounded x ≤ 2 ^ 53 * 2 ^ lastPlace x :=
            mul_le_mul_of_nonneg_right short (place_pos _).le
        _ = 2 ^ 52 * (2 ^ lastPlace x * 2) := by ring
        _ ≤ 2 ^ 52 * 2 ^ lastPlace y := mul_le_mul_of_nonneg_left step (by norm_num)
        _ ≤ rounded y := mul_le_mul_of_nonneg_right long (place_pos _).le

/-- A number of 53 bits at any place needs no rounding. -/
theorem rounded_of_short {n : ℕ} (short : n < 2 ^ 53) (exponent : ℤ) :
    rounded (n * 2 ^ exponent) = n * 2 ^ exponent := by
  obtain rfl | positive := n.eq_zero_or_pos
  · rw [Nat.cast_zero, zero_mul, rounded_zero]
  · have value : (0 : ℚ) < n * 2 ^ exponent :=
      mul_pos (Nat.cast_pos.2 positive) (place_pos exponent)
    have below : (n : ℚ) * 2 ^ exponent < 2 ^ (53 + exponent) := by
      rw [zpow_add₀ two_ne_zero]
      exact mul_lt_mul_of_pos_right (by exact_mod_cast short) (place_pos exponent)
    have last := (Int.lt_zpow_iff_log_lt one_lt_two value).1 below
    obtain ⟨places, count⟩ : ∃ places : ℕ, exponent = places + lastPlace (n * 2 ^ exponent) :=
      ⟨(exponent - lastPlace (n * 2 ^ exponent)).toNat, by unfold lastPlace; omega⟩
    have whole : (n : ℚ) * 2 ^ exponent =
        ((n * 2 ^ places : ℕ) : ℤ) * 2 ^ lastPlace (n * 2 ^ exponent) := by
      nth_rewrite 1 [count]
      rw [zpow_add₀ two_ne_zero, zpow_natCast, ← mul_assoc]
      push_cast
      rfl
    exact rounded_of_whole whole

/-- A natural number of 53 bits needs no rounding. -/
theorem rounded_natCast {n : ℕ} (short : n < 2 ^ 53) : rounded n = n := by
  have same := rounded_of_short short 0
  rwa [zpow_zero, mul_one] at same

end Spectrum48.Numeric
