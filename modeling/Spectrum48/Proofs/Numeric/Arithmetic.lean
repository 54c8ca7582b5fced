import Mathlib.Tactic.FieldSimp
import Mathlib.Tactic.Positivity
import Spectrum48.Proofs.Numeric.Double
import Spectrum48.Proofs.Numeric.Rounding

/-!
# Arithmetic of doubles

A product or quotient of doubles is computed on their significands, with two residual bits for
what is cut off. The bits tell enough of the exact result to round it to the nearest double; so, as
long as nothing leaves the range of doubles with 53 bits, the value of a result is the exact result,
rounded. Comparing doubles and taking the nearest integer is exact.
-/

namespace Spectrum48.Numeric

open Float.Model
open Float.Model.UnpackedFloat (Accuracy ExtendedMantissa Sign accuracyOfFraction)

/-! ### Residual bits -/

/-- Residual bits leave the significand alone. -/
theorem mantissa_eq (significand : ℕ) (accuracy : Accuracy) :
    (ExtendedMantissa.ofMantissaAndAccuracy significand accuracy).mantissa = significand := by
  unfold ExtendedMantissa.ofMantissaAndAccuracy
  split <;> rfl

/-- The residual bits of a remainder compare it to half of the divisor. -/
theorem bits_accuracyOfFraction (significand remainder : ℕ) {divisor : ℕ} (positive : 0 < divisor) :
    ((ExtendedMantissa.ofMantissaAndAccuracy significand
      (accuracyOfFraction remainder divisor)).roundBit = true ↔ divisor ≤ 2 * remainder) ∧
    ((ExtendedMantissa.ofMantissaAndAccuracy significand
      (accuracyOfFraction remainder divisor)).stickyBit = true ↔
        remainder ≠ 0 ∧ 2 * remainder ≠ divisor) := by
  unfold accuracyOfFraction
  split_ifs with none
  · simp [ExtendedMantissa.ofMantissaAndAccuracy, none, positive.ne']
  · cases relation : compare (2 * remainder) divisor
    all_goals
      simp only [Nat.compare_eq_lt, Nat.compare_eq_eq, Nat.compare_eq_gt] at relation
      simp only [ExtendedMantissa.ofMantissaAndAccuracy]
      grind

/-- A significand and its residual bits tell of a fraction its whole part, and whether what is cut
off is nothing, less than a half, a half, or more than that. -/
structure Tells (extended : ExtendedMantissa) (x : ℚ) : Prop where
  /-- The whole part is not above the fraction. -/
  le : extended.mantissa ≤ x
  /-- Less than one is cut off. -/
  lt : x < extended.mantissa + 1
  /-- Whether a half is cut off. -/
  half : extended.roundBit = true ↔ 1 / 2 ≤ x - extended.mantissa
  /-- Whether more or less than that is cut off. -/
  rest : extended.stickyBit = true ↔
    x - extended.mantissa ≠ 0 ∧ x - extended.mantissa ≠ 1 / 2

namespace Tells

variable {extended : ExtendedMantissa} {x : ℚ}

/-- A significand of which nothing is cut off. -/
theorem exact (significand : ℕ) :
    Tells (.ofMantissaAndAccuracy significand .exact) significand := by
  have nothing : (significand : ℚ) - significand = 0 := sub_self _
  refine ⟨le_rfl, lt_add_one _, ?_, ?_⟩
  all_goals
    dsimp only [ExtendedMantissa.ofMantissaAndAccuracy]
    rw [nothing]
    norm_num

/-- A quotient, with its remainder compared to half of the divisor. -/
theorem quotient (dividend : ℕ) {divisor : ℕ} (positive : 0 < divisor) :
    Tells (.ofMantissaAndAccuracy (dividend / divisor)
      (accuracyOfFraction (dividend % divisor) divisor)) (dividend / divisor) := by
  have divisors : (0 : ℚ) < divisor := Nat.cast_pos.2 positive
  have whole : (dividend : ℚ) =
      (dividend / divisor : ℕ) * divisor + (dividend % divisor : ℕ) := by
    exact_mod_cast (Nat.div_add_mod' dividend divisor).symm
  have below : ((dividend % divisor : ℕ) : ℚ) < divisor := Nat.cast_lt.2 (Nat.mod_lt _ positive)
  generalize dividend / divisor = significand at whole ⊢
  generalize dividend % divisor = remainder at whole below ⊢
  have part : (dividend : ℚ) / divisor - significand = remainder / divisor := by
    rw [whole, add_div, mul_div_cancel_right₀ _ divisors.ne', add_sub_cancel_left]
  have half : 1 / 2 ≤ (remainder : ℚ) / divisor ↔ divisor ≤ 2 * remainder := by
    rw [div_le_div_iff₀ two_pos divisors, one_mul, mul_comm]
    exact_mod_cast Iff.rfl
  have nothing : (remainder : ℚ) / divisor ≠ 0 ↔ remainder ≠ 0 := by
    rw [ne_eq, div_eq_zero_iff, or_iff_left divisors.ne', Nat.cast_eq_zero]
  have exactly : (remainder : ℚ) / divisor ≠ 1 / 2 ↔ 2 * remainder ≠ divisor := by
    rw [ne_eq, div_eq_div_iff divisors.ne' two_ne_zero, one_mul, mul_comm]
    exact_mod_cast Iff.rfl
  constructor
  · rw [mantissa_eq, ← sub_nonneg, part]
    positivity
  · rw [mantissa_eq, ← sub_lt_iff_lt_add', part, div_lt_one divisors]
    exact below
  · rw [mantissa_eq, part, half]
    exact (bits_accuracyOfFraction significand remainder positive).1
  · rw [mantissa_eq, part, nothing, exactly]
    exact (bits_accuracyOfFraction significand remainder positive).2

/-- Something is cut off if either residual bit is set. -/
theorem inexact (tells : Tells extended x) :
    (extended.roundBit || extended.stickyBit) = true ↔ x - extended.mantissa ≠ 0 := by
  rw [Bool.or_eq_true, tells.half, tells.rest]
  constructor
  · rintro (half | ⟨rest, -⟩) nothing
    · linarith
    · exact rest nothing
  · intro something
    by_cases half : x - extended.mantissa = 1 / 2
    · exact .inl half.ge
    · exact .inr ⟨something, half⟩

/-- Half of a fraction is told by the bits shifted by one place. -/
theorem shiftRightOne (tells : Tells extended x) : Tells extended.shiftRightOne (x / 2) := by
  have le := tells.le
  have lt := tells.lt
  have inexact := tells.inexact
  obtain ⟨whole, low, small, split⟩ :
      ∃ whole low : ℕ, low < 2 ∧ extended.mantissa = 2 * whole + low :=
    ⟨extended.mantissa / 2, extended.mantissa % 2, Nat.mod_lt _ two_pos,
      (Nat.div_add_mod _ 2).symm⟩
  have shifted : extended.shiftRightOne =
      ⟨whole, low != 0, extended.roundBit || extended.stickyBit⟩ := by
    rw [ExtendedMantissa.shiftRightOne, split, Nat.mul_add_div two_pos, Nat.div_eq_of_lt small,
      Nat.mul_add_mod, Nat.mod_eq_of_lt small, add_zero]
  rw [split] at le lt inexact
  push_cast at le lt inexact
  rw [shifted]
  constructor <;> dsimp only
  · have : (0 : ℚ) ≤ low := Nat.cast_nonneg low
    linarith
  · have : (low : ℚ) ≤ 1 := by exact_mod_cast Nat.le_of_lt_succ small
    linarith
  · obtain rfl | rfl : low = 0 ∨ low = 1 := by omega
    · norm_num at lt ⊢
      linarith
    · norm_num at le ⊢
      linarith
  · rw [inexact]
    obtain rfl | rfl : low = 0 ∨ low = 1 := by omega
    · norm_num at lt ⊢
      refine ⟨fun something => ⟨fun same => something ?_, fun same => ?_⟩,
        fun ⟨something, _⟩ same => something ?_⟩ <;> linarith
    · norm_num at le ⊢
      refine ⟨fun something => ⟨fun same => ?_, fun same => something ?_⟩,
        fun ⟨_, something⟩ same => something ?_⟩ <;> linarith

/-- A fraction divided by a power of two is told by the bits shifted by as many places. -/
theorem shiftRight (tells : Tells extended x) (count : ℕ) :
    Tells (extended >>> count) (x / 2 ^ count) := by
  change Tells (count.repeat ExtendedMantissa.shiftRightOne extended) _
  induction count with
  | zero =>
    rw [pow_zero, div_one]
    exact tells
  | succ count ih =>
    rw [pow_succ, ← div_div]
    exact ih.shiftRightOne

/-- The rounded significand is the nearest integer. -/
theorem roundedMantissa_eq (tells : Tells extended x) :
    (extended.roundedMantissa : ℤ) = nearestEven x := by
  have floor : ⌊x⌋ = extended.mantissa := Int.floor_eq_iff.2 ⟨tells.le, tells.lt⟩
  have fract : Int.fract x = x - extended.mantissa := by
    rw [Int.fract, floor, Int.cast_natCast]
  have half := tells.half
  have rest := tells.rest
  rw [nearestEven, floor, fract]
  generalize x - extended.mantissa = part at half rest
  obtain ⟨significand, round, sticky⟩ := extended
  dsimp only at half rest ⊢
  cases round with
  | false =>
    have low : part < 1 / 2 := not_le.1 fun high => Bool.noConfusion (half.2 high)
    rw [if_pos low]
    cases sticky <;> rfl
  | true =>
    have high : 1 / 2 ≤ part := half.1 rfl
    rw [if_neg (not_lt.2 high)]
    cases sticky with
    | false =>
      have exactly : part = 1 / 2 := by
        by_contra other
        exact Bool.noConfusion (rest.2 ⟨(lt_of_lt_of_le one_half_pos high).ne', other⟩)
      rw [if_neg exactly.not_gt]
      rfl
    | true =>
      rw [if_pos (lt_of_le_of_ne high (rest.1 rfl).2.symm)]
      rfl

end Tells

/-! ### Rounding parts -/

/-- The least and the greatest fractions that a double keeps to 53 bits, whatever is done to its
last bit. -/
def InRange (x : ℚ) : Prop := (2 : ℚ) ^ (-1022 : ℤ) ≤ x ∧ x < 2 ^ (1023 : ℤ)

/-- The parts of a positive double with 53 bits. -/
structure Normal (significand : ℕ) (exponent : ℤ) : Prop where
  /-- There are no fewer bits. -/
  low : 2 ^ 52 ≤ significand
  /-- There are no more bits. -/
  high : significand < 2 ^ 53
  /-- The exponent is not too low. -/
  least : -1074 ≤ exponent
  /-- The exponent is not too high. -/
  most : exponent ≤ 971

/-- The parts of a positive number with 53 bits, which may be too great for a double. -/
structure Full (significand : ℕ) (exponent : ℤ) : Prop where
  /-- There are no fewer bits. -/
  low : 2 ^ 52 ≤ significand
  /-- There are no more bits. -/
  high : significand < 2 ^ 53
  /-- The exponent is not too low. -/
  least : -1074 ≤ exponent

/-- A number with 53 bits that is not too great is a double. -/
theorem Full.normal {significand : ℕ} {exponent : ℤ} (full : Full significand exponent)
    (below : (significand : ℚ) * 2 ^ exponent < 2 ^ (1024 : ℤ)) : Normal significand exponent := by
  have low : (2 : ℚ) ^ (52 : ℤ) ≤ significand := by exact_mod_cast full.low
  have power := (mul_le_mul_of_nonneg_right low (place_pos exponent).le).trans_lt below
  rw [← zpow_add₀ two_ne_zero, zpow_lt_zpow_iff_right₀ one_lt_two] at power
  exact ⟨full.low, full.high, full.least, by omega⟩

/-- What is in range is positive. -/
theorem InRange.pos {x : ℚ} (range : InRange x) : 0 < x := (place_pos _).trans_le range.1

/-- The last place of what is in range. -/
theorem InRange.lastPlace {x : ℚ} (range : InRange x) :
    -1074 ≤ lastPlace x ∧ lastPlace x ≤ 970 := by
  have least := (Int.zpow_le_iff_le_log one_lt_two range.pos).1 range.1
  have most := (Int.lt_zpow_iff_log_lt one_lt_two range.pos).1 range.2
  unfold Numeric.lastPlace
  omega

/-- What is not too great for a double, with room to spare, is not rounded beyond that. -/
theorem rounded_lt_of_lt {x : ℚ} (nonneg : 0 ≤ x) (small : x < 2 ^ (1023 : ℤ)) :
    rounded x < 2 ^ (1024 : ℤ) := by
  have near := (abs_le.1 (abs_rounded_sub_le nonneg)).2
  have part : x / 2 ^ 53 ≤ x := div_le_self nonneg (by norm_num)
  calc rounded x ≤ x * 2 := by linarith
    _ < 2 ^ (1023 : ℤ) * 2 := mul_lt_mul_of_pos_right small two_pos
    _ = 2 ^ (1024 : ℤ) := (zpow_add_one₀ two_ne_zero 1023).symm

/-- The exponent that a significand is shifted to. -/
theorem targetExponent_eq {significand : ℕ} {exponent place : ℤ}
    (same : (significand.log2 : ℤ) + exponent - 52 = place) (least : -1074 ≤ place) :
    Format.binary64.targetExponent (totalExponent significand exponent) = place := by
  change max ((significand.log2 : ℤ) + 1 + exponent - 53) (-1074) = place
  omega

/-- The last place of a fraction with enough bits. -/
theorem lastPlace_of_log2 {significand : ℕ} {x : ℚ} (positive : 0 < significand)
    (le : significand ≤ x) (lt : x < significand + 1) (exponent : ℤ) :
    lastPlace (x * 2 ^ exponent) = (significand.log2 : ℤ) + exponent - 52 := by
  have low : (2 : ℚ) ^ significand.log2 ≤ significand := by
    exact_mod_cast Nat.log2_self_le positive.ne'
  have high : (significand : ℚ) + 1 ≤ 2 ^ (significand.log2 + 1) := by
    exact_mod_cast Nat.lt_log2_self
  have place := place_pos exponent
  apply lastPlace_eq
  · have same : (2 : ℚ) ^ 52 * 2 ^ ((significand.log2 : ℤ) + exponent - 52) =
        2 ^ significand.log2 * 2 ^ exponent := by
      rw [← zpow_natCast, ← zpow_natCast, ← zpow_add₀ two_ne_zero, ← zpow_add₀ two_ne_zero]
      congr 1
      push_cast
      ring
    rw [same]
    exact mul_le_mul_of_nonneg_right (low.trans le) place.le
  · have same : (2 : ℚ) ^ 53 * 2 ^ ((significand.log2 : ℤ) + exponent - 52) =
        2 ^ (significand.log2 + 1) * 2 ^ exponent := by
      rw [← zpow_natCast, ← zpow_natCast, ← zpow_add₀ two_ne_zero, ← zpow_add₀ two_ne_zero]
      congr 1
      push_cast
      ring
    rw [same]
    exact mul_lt_mul_of_pos_right (lt.trans_le high) place

/-- A significand with enough bits is shifted to its last place. -/
theorem shiftToTargetExponent_eq {significand : ℕ} {exponent place : ℤ} {shift : ℕ}
    (same : (significand.log2 : ℤ) + exponent - 52 = place) (least : -1074 ≤ place)
    (shifted : exponent + shift = place) (accuracy : Accuracy) :
    UnpackedFloat.shiftToTargetExponent Format.binary64 significand exponent accuracy =
      (ExtendedMantissa.ofMantissaAndAccuracy significand accuracy >>> shift, place) := by
  unfold UnpackedFloat.shiftToTargetExponent UnpackedFloat.shiftToExponent
  have count : (place - exponent).toNat = shift := by omega
  rw [targetExponent_eq same least]
  dsimp only
  rw [count, shifted]

/-- A significand of 53 bits is not shifted again; but all bits can be set and one added, and then
it is shifted by one place. -/
theorem shiftToTargetExponent_nearest {nearest : ℕ} {place : ℤ} (low : 2 ^ 52 ≤ nearest)
    (high : nearest ≤ 2 ^ 53) (least : -1074 ≤ place) :
    ∃ shifted last,
      UnpackedFloat.shiftToTargetExponent Format.binary64 nearest place .exact = (shifted, last) ∧
      Full shifted.mantissa last ∧ (shifted.mantissa : ℚ) * 2 ^ last = nearest * 2 ^ place := by
  obtain short | rfl := high.lt_or_eq
  · have bits : nearest.log2 = 52 := (Nat.log2_eq_iff (by omega)).2 ⟨low, short⟩
    have same : (nearest.log2 : ℤ) + place - 52 = place := by omega
    refine ⟨_, _, shiftToTargetExponent_eq same least (add_zero place) .exact, ?_, rfl⟩
    exact ⟨low, short, least⟩
  · have bits : (2 ^ 53 : ℕ).log2 = 53 := Nat.log2_two_pow
    have same : ((2 ^ 53 : ℕ).log2 : ℤ) + place - 52 = place + 1 := by omega
    have halved :
        (ExtendedMantissa.ofMantissaAndAccuracy (2 ^ 53) .exact >>> 1).mantissa = 2 ^ 52 := rfl
    refine ⟨_, _, shiftToTargetExponent_eq same (by omega) rfl .exact, ?_, ?_⟩
    · rw [halved]
      exact ⟨le_rfl, by norm_num, by omega⟩
    · rw [halved, zpow_add_one₀ two_ne_zero]
      push_cast
      ring

/-- A significand with enough bits is shifted until it tells of its last place. -/
theorem Tells.shiftToLastPlace {significand : ℕ} {exponent : ℤ} {accuracy : Accuracy} {x : ℚ}
    (tells : Tells (.ofMantissaAndAccuracy significand accuracy) x)
    (full : 2 ^ 52 ≤ significand) (least : -1074 ≤ lastPlace (x * 2 ^ exponent)) :
    ∃ shifted,
      UnpackedFloat.shiftToTargetExponent Format.binary64 significand exponent accuracy =
        (shifted, lastPlace (x * 2 ^ exponent)) ∧
      Tells shifted (x * 2 ^ exponent / 2 ^ lastPlace (x * 2 ^ exponent)) := by
  have le := tells.le
  have lt := tells.lt
  rw [mantissa_eq] at le lt
  have bits : 52 ≤ significand.log2 := (Nat.le_log2 (by omega)).2 full
  have last := lastPlace_of_log2 (lt_of_lt_of_le (by norm_num) full) le lt exponent
  obtain ⟨shift, enough⟩ := Nat.exists_eq_add_of_le bits
  have place : exponent + shift = lastPlace (x * 2 ^ exponent) := by
    rw [last, enough]
    push_cast
    ring
  have scaled : x / 2 ^ shift = x * 2 ^ exponent / 2 ^ lastPlace (x * 2 ^ exponent) := by
    rw [← place, zpow_add₀ two_ne_zero, zpow_natCast,
      mul_comm x, mul_div_mul_left _ _ (place_pos exponent).ne']
  refine ⟨_, shiftToTargetExponent_eq last.symm least place accuracy, ?_⟩
  rw [← scaled]
  exact tells.shiftRight shift

/-- A significand with enough bits is rounded to the nearest one. -/
theorem roundWithAccuracy_eq {significand : ℕ} {exponent : ℤ} {accuracy : Accuracy} {x : ℚ}
    (tells : Tells (.ofMantissaAndAccuracy significand accuracy) x)
    (full : 2 ^ 52 ≤ significand) (least : -1074 ≤ lastPlace (x * 2 ^ exponent)) (sign : Sign) :
    ∃ nearest place positive,
      UnpackedFloat.roundWithAccuracy Format.binary64 sign significand exponent accuracy
        = .finite sign nearest place positive ∧
      Full nearest place ∧ (nearest : ℚ) * 2 ^ place = rounded (x * 2 ^ exponent) := by
  have bits := tells.le
  rw [mantissa_eq] at bits
  have nonzero : (0 : ℚ) < significand := Nat.cast_pos.2 (lt_of_lt_of_le (by norm_num) full)
  obtain ⟨first, shift, told⟩ := tells.shiftToLastPlace full least
  obtain ⟨low, high⟩ :=
    significand_bounds (mul_pos (nonzero.trans_le bits) (place_pos exponent))
  rw [← told.roundedMantissa_eq] at low high
  have low : 2 ^ 52 ≤ first.roundedMantissa := by exact_mod_cast low
  have high : first.roundedMantissa ≤ 2 ^ 53 := by exact_mod_cast high
  obtain ⟨second, place, again, normal, value⟩ :=
    shiftToTargetExponent_nearest low high least
  have positive : 0 < second.mantissa := lt_of_lt_of_le (by norm_num) normal.low
  refine ⟨second.mantissa, place, positive, ?_, normal, ?_⟩
  · rw [roundWithAccuracy_of_shifts shift again]
    exact dif_neg positive.ne'
  · rw [value, rounded, ← told.roundedMantissa_eq, Int.cast_natCast]

/-- A significand shifted to the left has its bits and as many more. -/
theorem two_pow_le_shiftLeft {significand : ℕ} (positive : 0 < significand) (shift : ℕ) :
    2 ^ (significand.log2 + shift) ≤ significand <<< shift := by
  rw [Nat.shiftLeft_eq, pow_add]
  exact Nat.mul_le_mul_right _ (Nat.log2_self_le positive.ne')

/-- A significand shifted to the left has its value at an exponent as much lower. -/
theorem value_shiftLeft (significand shift : ℕ) (exponent : ℤ) :
    ((significand <<< shift : ℕ) : ℚ) * 2 ^ (exponent - shift) = significand * 2 ^ exponent := by
  rw [Nat.shiftLeft_eq, Nat.cast_mul, Nat.cast_pow, Nat.cast_ofNat, mul_assoc, ← zpow_natCast,
    ← zpow_add₀ two_ne_zero, add_sub_cancel]

/-- Parts taken at a lower exponent keep their value. -/
theorem value_at_lower {exponent place : ℤ} (lower : place ≤ exponent) (significand : ℕ) :
    ((significand <<< (exponent - place).toNat : ℕ) : ℚ) * 2 ^ place =
      significand * 2 ^ exponent := by
  have shifted := value_shiftLeft significand (exponent - place).toNat exponent
  rwa [Int.toNat_of_nonneg (Int.sub_nonneg_of_le lower), sub_sub_cancel] at shifted

/-- A significand is given enough bits before it is rounded. -/
theorem round_eq {significand : ℕ} {exponent : ℤ} (positive : 0 < significand)
    (least : -1074 ≤ lastPlace (significand * 2 ^ exponent)) (sign : Sign) :
    ∃ (shifted : ℕ) (place : ℤ),
      UnpackedFloat.round Format.binary64 sign significand exponent =
        .roundWithAccuracy Format.binary64 sign shifted place .exact ∧
      2 ^ 52 ≤ shifted ∧ (shifted : ℚ) * 2 ^ place = significand * 2 ^ exponent := by
  have last := lastPlace_of_log2 positive le_rfl (lt_add_one _) exponent
  rw [last] at least
  unfold UnpackedFloat.round UnpackedFloat.decreaseExponent
  rw [targetExponent_eq rfl least]
  dsimp only
  generalize count : (exponent - ((significand.log2 : ℤ) + exponent - 52)).toNat = shift
  refine ⟨significand <<< shift, exponent - shift, rfl, ?_, value_shiftLeft ..⟩
  have enough : 52 ≤ significand.log2 + shift := by omega
  exact (Nat.pow_le_pow_right two_pos enough).trans (two_pow_le_shiftLeft positive shift)

/-- A natural number above zero is rounded with a positive sign. -/
theorem normalize_natCast {significand : ℕ} (positive : 0 < significand) (exponent : ℤ) :
    UnpackedFloat.normalize Format.binary64 significand exponent .positive =
      .round Format.binary64 .positive significand exponent := by
  have order : compare (significand : ℤ) 0 = .gt :=
    Int.compare_eq_gt.2 (Int.natCast_pos.2 positive)
  unfold UnpackedFloat.normalize
  rw [order]
  dsimp only
  rw [Int.toNat_natCast]

/-! ### The parts of a double -/

/-- The parts of a finite double. -/
structure Stored (significand : ℕ) (exponent : ℤ) : Prop where
  /-- There are at most 53 bits. -/
  high : significand < 2 ^ 53
  /-- The exponent is not too low. -/
  least : -1074 ≤ exponent
  /-- The exponent is not too high. -/
  most : exponent ≤ 971
  /-- Only at the lowest exponent there are less than 53 bits. -/
  full : 2 ^ 52 ≤ significand ∨ exponent = -1074

/-- A significand field and the leading bit before it. -/
theorem toNat_leading_append (field : BitVec 52) :
    (1#1 ++ field).toNat = 2 ^ 52 + field.toNat := by
  rw [BitVec.toNat_append, ← Nat.shiftLeft_add_eq_or_of_lt field.isLt]
  rfl

/-- Fields are unpacked to the parts of a finite double, if to any. -/
theorem Unpacks.stored {sign sign' : Sign} {biased : BitVec 11} {field : BitVec 52}
    {significand : ℕ} {exponent : ℤ} {positive : 0 < significand}
    (unpacked : Unpacks sign biased field (.finite sign' significand exponent positive)) :
    Stored significand exponent := by
  have bound := field.isLt
  cases unpacked with
  | subnormal => exact ⟨by omega, le_rfl, by decide, .inr rfl⟩
  | normal notTop notBottom =>
    have whole := toNat_leading_append field
    have atMost := biased.isLt
    have notLast : biased.toNat ≠ 2047 := fun last => notTop (BitVec.eq_of_toNat_eq last)
    have notFirst : biased.toNat ≠ 0 := fun first => notBottom (BitVec.eq_of_toNat_eq first)
    exact ⟨by omega, by omega, by omega, .inl (by omega)⟩

/-- A finite double has the parts of one. -/
theorem stored_of_parts {x : Float} {sign : Sign} {significand : ℕ} {exponent : ℤ}
    {positive : 0 < significand} (same : parts x = .finite sign significand exponent positive) :
    Stored significand exponent := by
  have unpacked : Unpacks _ _ _ (parts x) := unpacks x.toBits.toBitVec
  rw [same] at unpacked
  exact unpacked.stored

/-- Parts with 53 bits are packed without loss. -/
theorem parts_ofParts {significand : ℕ} {exponent : ℤ} (normal : Normal significand exponent)
    (sign : Sign) (positive : 0 < significand) :
    parts (ofParts (.finite sign significand exponent positive)) =
      .finite sign significand exponent positive := by
  have low := normal.low
  have high := normal.high
  have least := normal.least
  have most := normal.most
  obtain ⟨field, rfl⟩ : ∃ field : BitVec 52, (1#1 ++ field).toNat = significand := by
    refine ⟨BitVec.ofNat 52 significand, ?_⟩
    rw [toNat_leading_append, BitVec.toNat_ofNat]
    omega
  obtain ⟨biased, rfl⟩ : ∃ biased : BitVec 11, (biased.toNat : ℤ) - 1075 = exponent := by
    refine ⟨BitVec.ofNat 11 (exponent + 1075).toNat, ?_⟩
    rw [BitVec.toNat_ofNat]
    omega
  have notTop : biased ≠ -1#11 := by
    rintro rfl
    norm_num at most
  have notBottom : biased ≠ 0#11 := by
    rintro rfl
    norm_num at least
  have packed := pack_normal sign biased field notTop positive
  exact (congrArg (UnpackedFloat.unpack Format.binary64) packed).trans
    ((unpacks_packComponents sign biased field).eq_normal notTop notBottom positive)

/-! ### The values of results -/

/-- The value of packed parts with 53 bits. -/
theorem value?_ofParts {significand : ℕ} {exponent : ℤ} (normal : Normal significand exponent)
    (positive : 0 < significand) :
    value? (ofParts (.finite .positive significand exponent positive)) =
      some ((significand : ℚ) * 2 ^ exponent) := by
  rw [value?, parts_ofParts normal]
  rfl

/-- A significand with enough bits, rounded to a double, has the value that it tells of, rounded. -/
theorem value?_roundWithAccuracy {significand : ℕ} {exponent : ℤ} {accuracy : Accuracy} {x : ℚ}
    (tells : Tells (.ofMantissaAndAccuracy significand accuracy) x)
    (full : 2 ^ 52 ≤ significand) (range : InRange (x * 2 ^ exponent)) :
    value? (ofParts (.roundWithAccuracy Format.binary64 .positive significand exponent accuracy)) =
      some (rounded (x * 2 ^ exponent)) := by
  obtain ⟨nearest, place, positive, rounds, whole, value⟩ :=
    roundWithAccuracy_eq tells full range.lastPlace.1 .positive
  have below := rounded_lt_of_lt range.pos.le range.2
  rw [← value] at below ⊢
  rw [rounds, value?_ofParts (whole.normal below)]

/-- Parts rounded to a double have their value, rounded. -/
theorem value?_round {significand : ℕ} {exponent : ℤ}
    (range : InRange (significand * 2 ^ exponent)) :
    value? (ofParts (.round Format.binary64 .positive significand exponent)) =
      some (rounded (significand * 2 ^ exponent)) := by
  have positive : 0 < significand := by
    by_contra none
    rw [Nat.eq_zero_of_not_pos none, Nat.cast_zero, zero_mul] at range
    exact range.pos.false
  obtain ⟨shifted, place, same, full, value⟩ := round_eq positive range.lastPlace.1 .positive
  rw [← value] at range ⊢
  rw [same]
  exact value?_roundWithAccuracy (.exact shifted) full range

/-- A double with a value is a zero or finite. -/
theorem parts_of_value {x : Float} {value : ℚ} (finite : value? x = some value) :
    (∃ sign, parts x = .zero sign ∧ value = 0) ∨
      ∃ sign significand exponent nonzero,
        parts x = .finite sign significand exponent nonzero ∧
        value = sign.apply significand * 2 ^ exponent := by
  rw [value?] at finite
  cases same : parts x with
  | notANumber | infinity _ =>
    rw [same] at finite
    cases finite
  | zero sign =>
    rw [same] at finite
    cases finite
    exact .inl ⟨sign, rfl, rfl⟩
  | finite sign significand exponent nonzero =>
    rw [same] at finite
    cases finite
    exact .inr ⟨sign, significand, exponent, nonzero, rfl, rfl⟩

/-- A double with a positive value is finite and has a positive sign. -/
theorem parts_of_value_pos {x : Float} {value : ℚ} (finite : value? x = some value)
    (positive : 0 < value) :
    ∃ significand exponent nonzero,
      parts x = .finite .positive significand exponent nonzero ∧
      Stored significand exponent ∧ (significand : ℚ) * 2 ^ exponent = value := by
  obtain ⟨_, -, rfl⟩ | ⟨sign, significand, exponent, nonzero, same, rfl⟩ := parts_of_value finite
  · exact absurd positive (lt_irrefl 0)
  · have above : (0 : ℚ) < significand * 2 ^ exponent :=
      mul_pos (Nat.cast_pos.2 nonzero) (place_pos exponent)
    cases sign with
    | positive => exact ⟨significand, exponent, nonzero, same, stored_of_parts same, rfl⟩
    | negative =>
      simp only [Sign.apply, Int.cast_neg, Int.cast_natCast, neg_mul] at positive
      linarith

/-- A double of value zero is a zero. -/
theorem parts_of_value_zero {x : Float} (finite : value? x = some 0) :
    ∃ sign, parts x = .zero sign := by
  obtain ⟨sign, same, -⟩ | ⟨sign, significand, exponent, nonzero, -, none⟩ := parts_of_value finite
  · exact ⟨sign, same⟩
  · have above : (0 : ℚ) < significand * 2 ^ exponent :=
      mul_pos (Nat.cast_pos.2 nonzero) (place_pos exponent)
    cases sign with
    | positive =>
      simp only [Sign.apply, Int.cast_natCast] at none
      linarith
    | negative =>
      simp only [Sign.apply, Int.cast_neg, Int.cast_natCast, neg_mul] at none
      linarith

/-- The value of a packed zero. -/
theorem value?_zero (sign : Sign) : value? (ofParts (.zero sign)) = some 0 := by
  cases sign <;> rfl

/-- A value that a double has is left alone by rounding. -/
theorem rounded_of_value {x : Float} {value : ℚ} (finite : value? x = some value)
    (nonneg : 0 ≤ value) : rounded value = value := by
  obtain rfl | positive := nonneg.eq_or_lt
  · exact rounded_zero
  · obtain ⟨significand, exponent, -, -, stored, rfl⟩ := parts_of_value_pos finite positive
    exact rounded_of_short stored.high exponent

/-- A product in range of finite doubles has 53 bits. -/
theorem Stored.full_mul {significand significand' : ℕ} {exponent exponent' : ℤ}
    (left : Stored significand exponent) (right : Stored significand' exponent')
    (nonzero : 0 < significand) (nonzero' : 0 < significand')
    (range : InRange ((significand * significand' : ℕ) * 2 ^ (exponent + exponent'))) :
    2 ^ 52 ≤ significand * significand' := by
  obtain low | rfl := left.full
  · exact low.trans (Nat.le_mul_of_pos_right _ nonzero')
  · obtain low | rfl := right.full
    · exact low.trans (Nat.le_mul_of_pos_left _ nonzero)
    -- The product of two doubles without 53 bits is too small.
    · have few : ((significand * significand' : ℕ) : ℚ) < 2 ^ (106 : ℤ) := by
        have few := Nat.mul_lt_mul'' left.high right.high
        rw [← pow_add] at few
        exact_mod_cast few
      have small := mul_lt_mul_of_pos_right few (place_pos (-1074 + -1074))
      rw [← zpow_add₀ two_ne_zero] at small
      have step : (2 : ℚ) ^ (106 + (-1074 + -1074) : ℤ) ≤ 2 ^ (-1022 : ℤ) :=
        zpow_le_zpow_right₀ one_le_two (by norm_num)
      exact absurd range.1 (not_le.2 (small.trans_le step))

/-- The product of doubles that are not negative is the product of their values, rounded. -/
theorem value?_mul {x y : Float} {a b : ℚ} (left : value? x = some a) (right : value? y = some b)
    (leftNonneg : 0 ≤ a) (rightNonneg : 0 ≤ b) (range : a * b = 0 ∨ InRange (a * b)) :
    value? (x * y) = some (rounded (a * b)) := by
  change value? (ofParts (.mul Format.binary64 (parts x) (parts y))) = _
  obtain rfl | leftPos := leftNonneg.eq_or_lt
  · obtain ⟨sign, same⟩ := parts_of_value_zero left
    rw [same, zero_mul, rounded_zero]
    obtain rfl | rightPos := rightNonneg.eq_or_lt
    · obtain ⟨other, same⟩ := parts_of_value_zero right
      rw [same]
      exact value?_zero _
    · obtain ⟨_, _, _, same, -, -⟩ := parts_of_value_pos right rightPos
      rw [same]
      exact value?_zero _
  · obtain ⟨significand, exponent, nonzero, same, stored, rfl⟩ := parts_of_value_pos left leftPos
    rw [same]
    obtain rfl | rightPos := rightNonneg.eq_or_lt
    · obtain ⟨sign, same⟩ := parts_of_value_zero right
      rw [same, mul_zero, rounded_zero]
      exact value?_zero _
    · obtain ⟨significand', exponent', nonzero', same', stored', rfl⟩ :=
        parts_of_value_pos right rightPos
      rw [same']
      have product : (significand : ℚ) * 2 ^ exponent * (significand' * 2 ^ exponent') =
          (significand * significand' : ℕ) * 2 ^ (exponent + exponent') := by
        rw [zpow_add₀ two_ne_zero]
        push_cast
        ring
      rw [product] at range ⊢
      have range := range.resolve_left (by
        rw [← product]
        positivity)
      have full : 2 ^ 52 ≤ significand * significand' :=
        stored.full_mul stored' nonzero nonzero' range
      exact value?_roundWithAccuracy (.exact _) full range

/-- A quotient in range has 53 bits, if its dividend has enough bits or the quotient is taken at the
lowest exponent. -/
theorem full_quotient {significand significand' shift : ℕ} {place : ℤ} (nonzero : 0 < significand)
    (nonzero' : 0 < significand')
    (enough : place ≤ -1074 ∨ 52 + significand'.log2 + 1 ≤ significand.log2 + shift)
    (range : InRange (((significand <<< shift : ℕ) : ℚ) / significand' * 2 ^ place)) :
    2 ^ 52 ≤ (significand <<< shift) / significand' := by
  rw [Nat.le_div_iff_mul_le nonzero']
  obtain lowest | enough := enough
  · have full : (2 : ℚ) ^ 52 ≤ ((significand <<< shift : ℕ) : ℚ) / significand' := by
      rw [← mul_le_mul_iff_left₀ (place_pos place)]
      refine le_trans ?_ range.1
      rw [← zpow_natCast, ← zpow_add₀ two_ne_zero]
      exact zpow_le_zpow_right₀ one_le_two (by push_cast; omega)
    rw [le_div_iff₀ (Nat.cast_pos.2 nonzero')] at full
    exact_mod_cast full
  · have high : significand' ≤ 2 ^ (significand'.log2 + 1) := Nat.lt_log2_self.le
    calc 2 ^ 52 * significand' ≤ 2 ^ 52 * 2 ^ (significand'.log2 + 1) := Nat.mul_le_mul_left _ high
      _ = 2 ^ (52 + significand'.log2 + 1) := by rw [← pow_add, add_assoc]
      _ ≤ 2 ^ (significand.log2 + shift) := Nat.pow_le_pow_right two_pos enough
      _ ≤ significand <<< shift := two_pow_le_shiftLeft nonzero shift

/-- A dividend is given enough bits for its quotient. -/
theorem divCore_eq {significand significand' : ℕ} (nonzero : 0 < significand)
    (nonzero' : 0 < significand') {exponent exponent' : ℤ}
    (range : InRange ((significand : ℚ) * 2 ^ exponent / (significand' * 2 ^ exponent'))) :
    ∃ (dividend : ℕ) (place : ℤ),
      UnpackedFloat.divCore Format.binary64 significand exponent significand' exponent' =
        (dividend / significand', place,
          accuracyOfFraction (dividend % significand') significand') ∧
      2 ^ 52 ≤ dividend / significand' ∧
      (dividend : ℚ) / significand' * 2 ^ place =
        (significand : ℚ) * 2 ^ exponent / (significand' * 2 ^ exponent') := by
  unfold UnpackedFloat.divCore
  dsimp only
  generalize chosen : min (exponent - exponent') (Format.binary64.targetExponent
    (totalExponent significand exponent - totalExponent significand' exponent')) = place
  change min (exponent - exponent') (max ((significand.log2 : ℤ) + 1 + exponent -
    ((significand'.log2 : ℤ) + 1 + exponent') - 53) (-1074)) = place at chosen
  obtain ⟨shift, count⟩ : ∃ shift : ℕ, (shift : ℤ) = exponent - exponent' - place :=
    ⟨(exponent - exponent' - place).toNat, by omega⟩
  have value : ((significand <<< shift : ℕ) : ℚ) / significand' * 2 ^ place =
      (significand : ℚ) * 2 ^ exponent / (significand' * 2 ^ exponent') := by
    have same : exponent = shift + place + exponent' := by omega
    rw [Nat.shiftLeft_eq, same, zpow_add₀ two_ne_zero, zpow_add₀ two_ne_zero, zpow_natCast]
    have divisors : (significand' : ℚ) ≠ 0 := Nat.cast_ne_zero.2 nonzero'.ne'
    have := (place_pos exponent').ne'
    push_cast
    field_simp
  rw [← value] at range
  refine ⟨significand <<< shift, place, ?_, full_quotient nonzero nonzero' (by omega) range, value⟩
  rw [← count, Int.toNat_natCast]

/-- The quotient of a double that is not negative by one above zero is the quotient of their
values, rounded. -/
theorem value?_div {x y : Float} {a b : ℚ} (left : value? x = some a) (right : value? y = some b)
    (leftNonneg : 0 ≤ a) (rightPos : 0 < b) (range : a / b = 0 ∨ InRange (a / b)) :
    value? (x / y) = some (rounded (a / b)) := by
  change value? (ofParts (.div Format.binary64 (parts x) (parts y))) = _
  obtain ⟨significand', exponent', nonzero', same', stored', rfl⟩ :=
    parts_of_value_pos right rightPos
  rw [same']
  obtain rfl | leftPos := leftNonneg.eq_or_lt
  · obtain ⟨sign, same⟩ := parts_of_value_zero left
    rw [same, zero_div, rounded_zero]
    exact value?_zero _
  · obtain ⟨significand, exponent, nonzero, same, stored, rfl⟩ := parts_of_value_pos left leftPos
    rw [same]
    have range := range.resolve_left (div_pos leftPos rightPos).ne'
    obtain ⟨dividend, place, core, full, value⟩ := divCore_eq nonzero nonzero' range
    rw [← value] at range ⊢
    change value? (ofParts (match UnpackedFloat.divCore Format.binary64 significand exponent
      significand' exponent' with
      | (m, e, acc) => .roundWithAccuracy Format.binary64 .positive m e acc)) = _
    rw [core]
    exact value?_roundWithAccuracy (.quotient dividend nonzero') full range

/-! ### Natural numbers -/

/-- Natural numbers of 64 bits are in range. -/
theorem inRange_natCast {n : ℕ} (positive : 0 < n) (short : n < 2 ^ 64) : InRange n := by
  have least : (1 : ℚ) ≤ n := by exact_mod_cast positive
  have most : (n : ℚ) < 2 ^ (64 : ℤ) := by exact_mod_cast short
  exact ⟨le_trans (zpow_le_one_of_nonpos₀ one_le_two (by norm_num)) least,
    most.trans_le (zpow_le_zpow_right₀ one_le_two (by norm_num))⟩

/-- A natural number of 64 bits, converted to a double, has its value, rounded. -/
theorem value?_toFloat {n : ℕ} (positive : 0 < n) (short : n < 2 ^ 64) :
    value? n.toUInt64.toFloat = some (rounded n) := by
  have fits : n.toUInt64.toNat = n := Nat.mod_eq_of_lt short
  have range : InRange (n * 2 ^ (0 : ℤ)) := by
    rw [zpow_zero, mul_one]
    exact inRange_natCast positive short
  change value? (ofParts (.normalize Format.binary64 n.toUInt64.toNat 0 .positive)) = _
  rw [fits, normalize_natCast positive, value?_round range, zpow_zero, mul_one]

/-- The double that stands for a natural number of 64 bits has its value, rounded. -/
theorem value?_ofNat {n : ℕ} (short : n < 2 ^ 64) :
    value? (Scalar.ofNat n : Float) = some (rounded n) := by
  obtain rfl | nonzero := n.eq_zero_or_pos
  · rw [Nat.cast_zero, rounded_zero]
    rfl
  have range := inRange_natCast nonzero short
  change value? (Float.ofScientific n false 0) = _
  unfold Float.ofScientific
  split
  -- Up to 53 bits, the number is converted and multiplied by a power of ten, which is one here.
  · next exact =>
    have whole := value?_toFloat nonzero short
    have one : value? Float.exactlyRepresentablePowersOfTen[0] = some 1 := by
      have same : parts Float.exactlyRepresentablePowersOfTen[0] =
        .finite .positive (2 ^ 52) (-52) (by decide) := rfl
      rw [value?, same]
      norm_num [Sign.apply]
    rw [rounded_natCast exact.1] at whole ⊢
    have product := value?_mul whole one (Nat.cast_nonneg n) zero_le_one (.inr (by rwa [mul_one]))
    rw [mul_one, rounded_natCast exact.1] at product
    exact product
  · have value : ((n <<< 53 * 1 : ℕ) : ℚ) * 2 ^ (-53 + 0 : ℤ) = n := by
      rw [mul_one, Nat.shiftLeft_eq, add_zero, zpow_neg, ← div_eq_mul_inv,
        div_eq_iff (place_pos 53).ne']
      norm_cast
    have full : 2 ^ 52 ≤ n <<< 53 * 1 := by
      rw [Nat.shiftLeft_eq]
      omega
    rw [← value] at range ⊢
    change value? (ofParts (.ofScientific Format.binary64 n 0)) = _
    rw [ofScientific_eq nonzero]
    exact value?_roundWithAccuracy (.exact _) full range

/-- The double that stands for a natural number of 53 bits has its value. -/
theorem value?_ofNat_of_short {n : ℕ} (short : n < 2 ^ 53) :
    value? (Scalar.ofNat n : Float) = some (n : ℚ) := by
  rw [value?_ofNat (short.trans (by norm_num)), rounded_natCast short]

/-! ### Comparing and converting -/

/-- Parts with more of a value have the higher exponent, or the greater significand with it. -/
theorem Stored.lex {significand significand' : ℕ} {exponent exponent' : ℤ}
    (left : Stored significand exponent) (right : Stored significand' exponent')
    (ordered : (significand : ℚ) * 2 ^ exponent ≤ significand' * 2 ^ exponent') :
    exponent < exponent' ∨ exponent = exponent' ∧ significand ≤ significand' := by
  obtain lower | rfl | higher := lt_trichotomy exponent exponent'
  · exact .inl lower
  · refine .inr ⟨rfl, ?_⟩
    exact_mod_cast le_of_mul_le_mul_right ordered (place_pos exponent)
  -- Above the lowest exponent there are 53 bits, which are more than those below can make up for.
  · have full : 2 ^ 52 ≤ significand := left.full.resolve_right (by have := right.least; omega)
    have low : (2 : ℚ) ^ 52 ≤ significand := by exact_mod_cast full
    have high : (significand' : ℚ) < 2 ^ 53 := by exact_mod_cast right.high
    have step : (2 : ℚ) ^ (exponent' + 1) ≤ 2 ^ exponent := zpow_le_zpow_right₀ one_le_two higher
    rw [zpow_add_one₀ two_ne_zero] at step
    have above : (significand' : ℚ) * 2 ^ exponent' < significand * 2 ^ exponent :=
      calc (significand' : ℚ) * 2 ^ exponent' < 2 ^ 53 * 2 ^ exponent' :=
            mul_lt_mul_of_pos_right high (place_pos exponent')
        _ = 2 ^ 52 * (2 ^ exponent' * 2) := by ring
        _ ≤ 2 ^ 52 * 2 ^ exponent := mul_le_mul_of_nonneg_left step (by norm_num)
        _ ≤ significand * 2 ^ exponent := mul_le_mul_of_nonneg_right low (place_pos exponent).le
    exact absurd ordered (not_le.2 above)

/-- Doubles that are not negative are ordered as their values are. -/
theorem le_of_values {x y : Float} {a b : ℚ} (left : value? x = some a) (right : value? y = some b)
    (nonneg : 0 ≤ a) (ordered : a ≤ b) : x ≤ y := by
  rw [le_iff]
  obtain rfl | leftPos := nonneg.eq_or_lt
  · obtain ⟨sign, same⟩ := parts_of_value_zero left
    rw [same]
    obtain rfl | rightPos := ordered.eq_or_lt
    · obtain ⟨other, same'⟩ := parts_of_value_zero right
      rw [same']
      rfl
    · obtain ⟨_, _, _, same', -, -⟩ := parts_of_value_pos right rightPos
      rw [same']
      rfl
  · obtain ⟨significand, exponent, nonzero, same, stored, rfl⟩ := parts_of_value_pos left leftPos
    obtain ⟨significand', exponent', nonzero', same', stored', rfl⟩ :=
      parts_of_value_pos right (leftPos.trans_le ordered)
    rw [same, same']
    change ((compare exponent exponent').then (compare significand significand')).isLE = true
    obtain lower | ⟨rfl, fewer⟩ := stored.lex stored' ordered
    · rw [Int.compare_eq_lt.2 lower]
      rfl
    · rw [Int.compare_eq_eq.2 rfl, Ordering.eq_then, Nat.isLE_compare]
      exact fewer

/-- The integer nearest to parts is their value and a half, cut off. -/
theorem nearestNat_eq (significand : ℕ) (exponent : ℤ) :
    (nearestNat significand exponent : ℤ) = ⌊(significand : ℚ) * 2 ^ exponent + 1 / 2⌋ := by
  cases exponent with
  | ofNat shift =>
    have whole : (significand : ℚ) * 2 ^ Int.ofNat shift = (significand * 2 ^ shift : ℕ) := by
      rw [Int.ofNat_eq_natCast, zpow_natCast]
      push_cast
      rfl
    have half : ⌊(1 / 2 : ℚ)⌋ = 0 := by norm_num
    rw [whole, Int.floor_natCast_add, half, add_zero]
    rfl
  | negSucc shift =>
    have fraction : (significand : ℚ) * 2 ^ Int.negSucc shift + 1 / 2 =
        (significand + 2 ^ shift : ℕ) / (2 ^ (shift + 1) : ℕ) := by
      rw [zpow_negSucc]
      push_cast
      field_simp
      ring
    rw [fraction, Rat.floor_natCast_div_natCast]
    rfl

/-- The integer nearest to a double that is not negative is its value and a half, cut off, unless
that takes more than 64 bits. -/
theorem nearestInt64_eq {x : Float} {a : ℚ} (finite : value? x = some a) (nonneg : 0 ≤ a) :
    nearestInt64 x = min greatestInt64 ⌊a + 1 / 2⌋ := by
  unfold nearestInt64
  obtain rfl | positive := nonneg.eq_or_lt
  · obtain ⟨sign, same⟩ := parts_of_value_zero finite
    rw [same]
    change 0 = min greatestInt64 ⌊(0 : ℚ) + 1 / 2⌋
    norm_num [greatestInt64]
  · obtain ⟨significand, exponent, nonzero, same, -, rfl⟩ := parts_of_value_pos finite positive
    rw [same, ← nearestNat_eq]
    change max leastInt64 (min greatestInt64 (nearestNat significand exponent : ℤ)) = _
    unfold leastInt64 greatestInt64
    omega

/-- The integers nearest to doubles that are not negative are ordered as their values are. -/
theorem nearestInt64_mono {x y : Float} {a b : ℚ} (left : value? x = some a)
    (right : value? y = some b) (nonneg : 0 ≤ a) (ordered : a ≤ b) :
    nearestInt64 x ≤ nearestInt64 y := by
  rw [nearestInt64_eq left nonneg, nearestInt64_eq right (nonneg.trans ordered)]
  exact min_le_min_left _ (Int.floor_mono (add_le_add_left ordered _))

end Spectrum48.Numeric
