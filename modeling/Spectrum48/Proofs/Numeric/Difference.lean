import Spectrum48.Proofs.Numeric.Arithmetic

/-!
# Sums and differences of doubles

All finite doubles are multiples of the least positive one, and so are their sums and differences. A
sum or difference too small for 53 bits is therefore exact, and one too great for a double is
infinite; every other one is rounded to 53 bits. So these operations are right over the whole range
of doubles.

Positive doubles are ordered as their values are, and so are the integers that their bits spell.
-/

namespace Spectrum48.Numeric

open Float.Model
open Float.Model.UnpackedFloat (ExtendedMantissa Sign packComponents unpackExponent unpackMantissa
  unpackSign)

/-! ### Packing the least and the greatest -/

/-- Parts with less than 53 bits are packed without loss at the lowest exponent. -/
theorem parts_ofParts_of_few {significand : ℕ} (few : significand < 2 ^ 52) (sign : Sign)
    (positive : 0 < significand) :
    parts (ofParts (.finite sign significand (-1074) positive)) =
      .finite sign significand (-1074) positive := by
  obtain ⟨field, rfl⟩ : ∃ field : BitVec 52, field.toNat = significand :=
    ⟨BitVec.ofNat 52 significand, by rw [BitVec.toNat_ofNat, Nat.mod_eq_of_lt few]⟩
  have packed := pack_subnormal sign field positive
  exact (congrArg (UnpackedFloat.unpack Format.binary64) packed).trans
    ((unpacks_packComponents sign 0#11 field).eq_subnormal rfl positive)

/-- What is infinite is packed without loss. -/
theorem parts_ofParts_infinity (sign : Sign) :
    parts (ofParts (.infinity sign)) = .infinity sign := by
  change UnpackedFloat.unpack Format.binary64 (UnpackedFloat.packedInfinity Format.binary64 sign) =
    .infinity sign
  cases sign <;> rfl

/-- Parts that are too great for a double are packed as infinite. -/
theorem parts_ofParts_of_great {significand : ℕ} {exponent : ℤ} (great : 972 ≤ exponent)
    (sign : Sign) (positive : 0 < significand) :
    parts (ofParts (.finite sign significand exponent positive)) = .infinity sign := by
  have biased : 2 ^ 11 ≤ (exponent + 1023 + 52).toNat + 1 := by omega
  have packed : UnpackedFloat.pack Format.binary64 (.finite sign significand exponent positive) =
      UnpackedFloat.packedInfinity Format.binary64 sign := if_pos biased
  exact (congrArg (UnpackedFloat.unpack Format.binary64) packed).trans (parts_ofParts_infinity sign)

/-! ### Rounding over the whole range -/

/-- A significand with less than 53 bits stays at the lowest exponent. -/
theorem shiftToTargetExponent_of_few {significand : ℕ} (few : significand < 2 ^ 52) :
    UnpackedFloat.shiftToTargetExponent Format.binary64 significand (-1074) .exact =
      (.ofMantissaAndAccuracy significand .exact, -1074) := by
  have length : significand.log2 < 52 := by
    obtain rfl | positive := significand.eq_zero_or_pos
    · decide
    · exact (Nat.log2_lt positive.ne').2 few
  have target : Format.binary64.targetExponent (totalExponent significand (-1074)) = -1074 := by
    change max ((significand.log2 : ℤ) + 1 + -1074 - 53) (-1074) = -1074
    omega
  unfold UnpackedFloat.shiftToTargetExponent
  rw [target]
  rfl

/-- What ends before the last place of the doubles with 53 bits is not rounded. -/
theorem round_of_few {significand : ℕ} {exponent : ℤ} (positive : 0 < significand)
    (least : -1074 ≤ exponent) (few : (significand : ℚ) * 2 ^ exponent < 2 ^ (-1022 : ℤ))
    (sign : Sign) :
    ∃ shifted positive',
      UnpackedFloat.round Format.binary64 sign significand exponent =
        .finite sign shifted (-1074) positive' ∧
      shifted < 2 ^ 52 ∧ (shifted : ℚ) * 2 ^ (-1074 : ℤ) = significand * 2 ^ exponent := by
  obtain ⟨shift, rfl⟩ : ∃ shift : ℕ, exponent = shift - 1074 :=
    ⟨(exponent + 1074).toNat, by omega⟩
  have value := value_shiftLeft significand shift (shift - 1074)
  rw [sub_sub_cancel_left] at value
  have small : significand <<< shift < 2 ^ 52 := by
    have power : (2 : ℚ) ^ (-1022 : ℤ) = (2 ^ 52 : ℕ) * 2 ^ (-1074 : ℤ) := by
      rw [Nat.cast_pow, Nat.cast_ofNat, ← zpow_natCast, ← zpow_add₀ two_ne_zero]
      rfl
    rw [← value, power] at few
    exact Nat.cast_lt.1 (lt_of_mul_lt_mul_right few (place_pos (-1074)).le)
  have nonzero : 0 < significand <<< shift := Nat.shiftLeft_pos_iff.2 positive
  have target : Format.binary64.targetExponent (totalExponent significand (shift - 1074)) =
      -1074 := by
    have short := two_pow_le_shiftLeft positive shift
    have length : significand.log2 + shift < 52 :=
      (Nat.pow_lt_pow_iff_right one_lt_two).1 (short.trans_lt small)
    change max ((significand.log2 : ℤ) + 1 + (shift - 1074) - 53) (-1074) = -1074
    omega
  have count : ((shift : ℤ) - 1074 - -1074).toNat = shift := by omega
  have again := shiftToTargetExponent_of_few small
  refine ⟨significand <<< shift, nonzero, ?_, small, value⟩
  calc UnpackedFloat.round Format.binary64 sign significand (shift - 1074)
      = .roundWithAccuracy Format.binary64 sign (significand <<< shift) (-1074) .exact := by
        unfold UnpackedFloat.round UnpackedFloat.decreaseExponent
        rw [target]
        dsimp only
        rw [count, sub_sub_cancel_left]
    _ = .finite sign (significand <<< shift) (-1074) nonzero := by
        rw [roundWithAccuracy_of_shifts again again]
        exact dif_neg nonzero.ne'

/-- A double that a fraction is rounded to: a finite one, or an infinite one if there is no double
as great as that. -/
structure RoundsTo (x : Float) (a : ℚ) : Prop where
  /-- What is not too great is rounded. -/
  finite : rounded a < 2 ^ (1024 : ℤ) → value? x = some (rounded a)
  /-- What is too great is infinite. -/
  infinite : 2 ^ (1024 : ℤ) ≤ rounded a → parts x = .infinity .positive

/-- The values of doubles are below the first power of two that is too great. -/
theorem value_lt {x : Float} {a : ℚ} (finite : value? x = some a) (nonneg : 0 ≤ a) :
    a < 2 ^ (1024 : ℤ) := by
  obtain rfl | positive := nonneg.eq_or_lt
  · exact place_pos 1024
  · obtain ⟨significand, exponent, -, -, stored, rfl⟩ := parts_of_value_pos finite positive
    calc (significand : ℚ) * 2 ^ exponent < 2 ^ (53 : ℤ) * 2 ^ exponent :=
          mul_lt_mul_of_pos_right (by exact_mod_cast stored.high) (place_pos exponent)
      _ ≤ 2 ^ (53 : ℤ) * 2 ^ (971 : ℤ) := mul_le_mul_of_nonneg_left
          (zpow_le_zpow_right₀ one_le_two stored.most) (place_pos 53).le
      _ = 2 ^ (1024 : ℤ) := (zpow_add₀ two_ne_zero 53 971).symm

/-- The sum of parts with positive signs is taken at the lower exponent. -/
theorem add_eq (significand significand' : ℕ) (exponent exponent' : ℤ)
    (nonzero : 0 < significand) (nonzero' : 0 < significand') :
    ∃ total : ℕ,
      UnpackedFloat.add Format.binary64 (.finite .positive significand exponent nonzero)
          (.finite .positive significand' exponent' nonzero') =
        .round Format.binary64 .positive total (min exponent exponent') ∧
      (total : ℚ) * 2 ^ min exponent exponent' =
        (significand : ℚ) * 2 ^ exponent + (significand' : ℚ) * 2 ^ exponent' := by
  refine ⟨significand <<< (exponent - min exponent exponent').toNat +
    significand' <<< (exponent' - min exponent exponent').toNat, ?_, ?_⟩
  · rw [← normalize_natCast (Nat.add_pos_left (Nat.shiftLeft_pos_iff.2 nonzero) _), Nat.cast_add]
    rfl
  · rw [Nat.cast_add, add_mul, value_at_lower (min_le_left ..), value_at_lower (min_le_right ..)]

namespace RoundsTo

/-- A double is what its value is rounded to. -/
theorem of_value {x : Float} {a : ℚ} (finite : value? x = some a) (nonneg : 0 ≤ a) :
    RoundsTo x a := by
  have small := value_lt finite nonneg
  rw [← rounded_of_value finite nonneg] at small
  refine ⟨fun _ => ?_, fun great => absurd small great.not_gt⟩
  rw [rounded_of_value finite nonneg]
  exact finite

/-- What is rounded to a finite double is not too great. -/
theorem lt_of_isSome {x : Float} {a : ℚ} (rounds : RoundsTo x a)
    (finite : (value? x).isSome = true) : rounded a < 2 ^ (1024 : ℤ) := by
  by_contra great
  rw [value?, rounds.infinite (not_lt.1 great)] at finite
  cases finite

/-- What is rounded to no finite double is rounded to an infinite one. -/
theorem infinite_of_none {x : Float} {a : ℚ} (rounds : RoundsTo x a) (none : value? x = none) :
    parts x = .infinity .positive := by
  refine rounds.infinite (not_lt.1 fun small => ?_)
  rw [rounds.finite small] at none
  cases none

/-- Parts at no lower exponent than a double can have are rounded right. -/
theorem round {significand : ℕ} {exponent : ℤ} (positive : 0 < significand)
    (least : -1074 ≤ exponent) :
    RoundsTo (ofParts (.round Format.binary64 .positive significand exponent))
      (significand * 2 ^ exponent) := by
  have above : (0 : ℚ) < significand * 2 ^ exponent :=
    mul_pos (Nat.cast_pos.2 positive) (place_pos exponent)
  obtain few | many := lt_or_ge ((significand : ℚ) * 2 ^ exponent) (2 ^ (-1022 : ℤ))
  · obtain ⟨shifted, nonzero, rounds, small, value⟩ :=
      round_of_few positive least few .positive
    refine .of_value ?_ above.le
    rw [rounds, value?, parts_ofParts_of_few small, ← value]
    rfl
  · have last : -1074 ≤ lastPlace ((significand : ℚ) * 2 ^ exponent) := by
      have power := (Int.zpow_le_iff_le_log one_lt_two above).1 many
      unfold lastPlace
      omega
    obtain ⟨shifted, place, same, bits, value⟩ := round_eq positive last .positive
    rw [← value] at last ⊢
    rw [same]
    obtain ⟨nearest, place', nonzero, rounds, full, nearby⟩ :=
      roundWithAccuracy_eq (.exact shifted) bits last .positive
    rw [rounds]
    constructor
    · intro small
      rw [← nearby] at small ⊢
      exact value?_ofParts (full.normal small) nonzero
    · intro great
      refine parts_ofParts_of_great ?_ .positive nonzero
      by_contra low
      have high : (nearest : ℚ) < 2 ^ (53 : ℤ) := by exact_mod_cast full.high
      have below : (nearest : ℚ) * 2 ^ place' < 2 ^ (1024 : ℤ) :=
        calc (nearest : ℚ) * 2 ^ place' < 2 ^ (53 : ℤ) * 2 ^ place' :=
              mul_lt_mul_of_pos_right high (place_pos place')
          _ ≤ 2 ^ (53 : ℤ) * 2 ^ (971 : ℤ) := mul_le_mul_of_nonneg_left
              (zpow_le_zpow_right₀ one_le_two (by omega)) (place_pos 53).le
          _ = 2 ^ (1024 : ℤ) := (zpow_add₀ two_ne_zero 53 971).symm
      rw [nearby] at below
      exact great.not_gt below

/-- Sums of doubles that are not negative are rounded right. -/
theorem add {x y : Float} {a b : ℚ} (left : value? x = some a) (right : value? y = some b)
    (leftNonneg : 0 ≤ a) (rightNonneg : 0 ≤ b) : RoundsTo (x + y) (a + b) := by
  change RoundsTo (ofParts (.add Format.binary64 (parts x) (parts y))) _
  obtain rfl | leftPos := leftNonneg.eq_or_lt
  · obtain ⟨sign, same⟩ := parts_of_value_zero left
    rw [zero_add]
    obtain rfl | rightPos := rightNonneg.eq_or_lt
    · obtain ⟨other, same'⟩ := parts_of_value_zero right
      refine .of_value ?_ le_rfl
      rw [same, same']
      cases sign <;> cases other <;> exact value?_zero _
    · obtain ⟨_, _, _, same', -, -⟩ := parts_of_value_pos right rightPos
      have alone : UnpackedFloat.add Format.binary64 (parts x) (parts y) = parts y := by
        rw [same, same']
        rfl
      rw [alone, ofParts_parts]
      exact .of_value right rightNonneg
  · obtain ⟨significand, exponent, nonzero, same, stored, rfl⟩ := parts_of_value_pos left leftPos
    obtain rfl | rightPos := rightNonneg.eq_or_lt
    · obtain ⟨sign, same'⟩ := parts_of_value_zero right
      have alone : UnpackedFloat.add Format.binary64 (parts x) (parts y) = parts x := by
        rw [same, same']
        rfl
      rw [add_zero, alone, ofParts_parts]
      exact .of_value left leftNonneg
    · obtain ⟨significand', exponent', nonzero', same', stored', rfl⟩ :=
        parts_of_value_pos right rightPos
      obtain ⟨total, sum, value⟩ :=
        add_eq significand significand' exponent exponent' nonzero nonzero'
      have positive : 0 < total := by
        have above := add_pos leftPos rightPos
        rw [← value] at above
        exact Nat.cast_pos.1 ((mul_pos_iff_of_pos_right (place_pos _)).1 above)
      rw [same, same', sum, ← value]
      exact .round positive (le_min stored.least stored'.least)

end RoundsTo

/-- The sum of doubles that are not negative is the sum of their values, rounded. -/
theorem value?_add {x y : Float} {a b : ℚ} (left : value? x = some a) (right : value? y = some b)
    (leftNonneg : 0 ≤ a) (rightNonneg : 0 ≤ b) (range : a + b = 0 ∨ InRange (a + b)) :
    value? (x + y) = some (rounded (a + b)) := by
  refine (RoundsTo.add left right leftNonneg rightNonneg).finite ?_
  obtain none | range := range
  · rw [none, rounded_zero]
    exact place_pos 1024
  · exact rounded_lt_of_lt range.pos.le range.2

/-! ### Order -/

/-- The value of the number zero. -/
theorem value?_scalar_zero : value? Scalar.zero = some 0 := by
  rw [value?, parts_zero]

/-- Positive doubles of one value are the same. -/
theorem eq_of_values {x y : Float} {a : ℚ} (left : value? x = some a) (right : value? y = some a)
    (positive : 0 < a) : x = y := by
  obtain ⟨significand, exponent, nonzero, same, stored, rfl⟩ := parts_of_value_pos left positive
  obtain ⟨significand', exponent', nonzero', same', stored', equal⟩ :=
    parts_of_value_pos right positive
  have below := stored.lex stored' equal.ge
  have above := stored'.lex stored equal.le
  obtain ⟨rfl, rfl⟩ : exponent = exponent' ∧ significand = significand' := by omega
  rw [← ofParts_parts x, ← ofParts_parts y, same, same']

/-- Doubles that are not negative are strictly ordered as their values are. -/
theorem lt_of_values {x y : Float} {a b : ℚ} (left : value? x = some a) (right : value? y = some b)
    (nonneg : 0 ≤ a) (ordered : a < b) : x < y := by
  rw [lt_iff]
  obtain ⟨significand', exponent', nonzero', same', stored', rfl⟩ :=
    parts_of_value_pos right (nonneg.trans_lt ordered)
  obtain rfl | leftPos := nonneg.eq_or_lt
  · obtain ⟨sign, same⟩ := parts_of_value_zero left
    rw [same, same']
    rfl
  · obtain ⟨significand, exponent, nonzero, same, stored, rfl⟩ := parts_of_value_pos left leftPos
    rw [same, same']
    change (some ((compare exponent exponent').then (compare significand significand')) ==
      some .lt) = true
    obtain lower | ⟨rfl, fewer⟩ := stored.lex stored' ordered.le
    · rw [Int.compare_eq_lt.2 lower]
      rfl
    · have less : significand < significand' :=
        fewer.lt_of_ne fun same => ordered.ne (by rw [same])
      rw [Int.compare_eq_eq.2 rfl, Ordering.eq_then, Nat.compare_eq_lt.2 less]
      rfl

section

variable {x y : Float} {a b : ℚ} (left : value? x = some a) (right : value? y = some b)
  (leftNonneg : 0 ≤ a) (rightNonneg : 0 ≤ b)

include left right leftNonneg rightNonneg

/-- Comparing doubles that are not negative compares their values. -/
theorem le_iff_of_values : x ≤ y ↔ a ≤ b := by
  refine ⟨fun ordered => ?_, le_of_values left right leftNonneg⟩
  by_contra above
  exact not_lt_of_le ordered (lt_of_values right left rightNonneg (not_le.1 above))

/-- Comparing doubles that are not negative strictly compares their values. -/
theorem lt_iff_of_values : x < y ↔ a < b := by
  refine ⟨fun ordered => ?_, lt_of_values left right leftNonneg⟩
  by_contra above
  exact not_lt_of_le (le_of_values right left rightNonneg (not_lt.1 above)) ordered

end

/-- A finite double compared to the infinite one. -/
theorem compare_of_infinite {x y : Float} {a : ℚ} (left : value? x = some a)
    (right : parts y = .infinity .positive) : (parts x).compare (parts y) = some .lt := by
  obtain ⟨_, same, -⟩ | ⟨sign, _, _, _, same, -⟩ := parts_of_value left
  · rw [same, right]
    rfl
  · rw [same, right]
    cases sign <;> rfl

/-- A finite double is below the infinite one. -/
theorem lt_of_infinite {x y : Float} {a : ℚ} (left : value? x = some a)
    (right : parts y = .infinity .positive) : x < y := by
  rw [lt_iff, UnpackedFloat.lt, compare_of_infinite left right]
  rfl

/-- A finite double is not above the infinite one. -/
theorem le_of_infinite {x y : Float} {a : ℚ} (left : value? x = some a)
    (right : parts y = .infinity .positive) : x ≤ y := by
  rw [le_iff, UnpackedFloat.le, compare_of_infinite left right]
  rfl

/-- What is not below a finite double that is not negative is infinite or has a value as great. -/
theorem value_of_le {x y : Float} {a : ℚ} (left : value? x = some a) (nonneg : 0 ≤ a)
    (ordered : x ≤ y) :
    parts y = .infinity .positive ∨ ∃ b, value? y = some b ∧ a ≤ b := by
  have related := (le_iff x y).1 ordered
  have finite : (∃ b, value? y = some b ∧ 0 ≤ b) → ∃ b, value? y = some b ∧ a ≤ b :=
    fun ⟨b, right, rightNonneg⟩ =>
      ⟨b, right, (le_iff_of_values left right nonneg rightNonneg).1 ordered⟩
  obtain ⟨sign, same⟩ | ⟨significand, exponent, nonzero, same⟩ : (∃ sign, parts x = .zero sign) ∨
      ∃ significand exponent nonzero,
        parts x = .finite .positive significand exponent nonzero := by
    obtain rfl | positive := nonneg.eq_or_lt
    · exact .inl (parts_of_value_zero left)
    · obtain ⟨significand, exponent, nonzero, same, -, -⟩ := parts_of_value_pos left positive
      exact .inr ⟨significand, exponent, nonzero, same⟩
  all_goals
    rw [same] at related
    cases same' : parts y with
    | notANumber =>
      rw [same'] at related
      cases related
    | zero => exact .inr (finite ⟨0, by rw [value?, same'], le_rfl⟩)
    | infinity sign' =>
      cases sign' with
      | positive => exact .inl rfl
      | negative =>
        rw [same'] at related
        cases related
    | finite sign' significand' exponent' nonzero' =>
      cases sign' with
      | positive =>
        refine .inr (finite ⟨_, by rw [value?, same'], ?_⟩)
        exact (mul_pos (Nat.cast_pos.2 nonzero') (place_pos exponent')).le
      | negative =>
        rw [same'] at related
        cases related

/-! ### Differences -/

/-- The difference of parts with positive signs is taken at the lower exponent. -/
theorem sub_eq {significand significand' : ℕ} {exponent exponent' : ℤ}
    (nonzero : 0 < significand) (nonzero' : 0 < significand')
    (ordered : (significand' : ℚ) * 2 ^ exponent' < significand * 2 ^ exponent) :
    ∃ rest : ℕ,
      UnpackedFloat.sub Format.binary64 (.finite .positive significand exponent nonzero)
          (.finite .positive significand' exponent' nonzero') =
        .round Format.binary64 .positive rest (min exponent exponent') ∧
      (rest : ℚ) * 2 ^ min exponent exponent' =
        (significand : ℚ) * 2 ^ exponent - (significand' : ℚ) * 2 ^ exponent' := by
  have value := value_at_lower (min_le_left exponent exponent') significand
  have value' := value_at_lower (min_le_right exponent exponent') significand'
  rw [← value, ← value'] at ordered ⊢
  have fewer := Nat.cast_lt.1 (lt_of_mul_lt_mul_right ordered (place_pos _).le)
  refine ⟨significand <<< (exponent - min exponent exponent').toNat -
    significand' <<< (exponent' - min exponent exponent').toNat, ?_, ?_⟩
  · rw [← normalize_natCast (Nat.sub_pos_of_lt fewer), Nat.cast_sub fewer.le]
    rfl
  · rw [Nat.cast_sub fewer.le, sub_mul]

/-- The difference of positive doubles that is not negative is the difference of their values,
rounded. -/
theorem value?_sub {x y : Float} {a b : ℚ} (left : value? x = some a) (right : value? y = some b)
    (positive : 0 < b) (ordered : b ≤ a) : value? (x - y) = some (rounded (a - b)) := by
  have leftPos := positive.trans_le ordered
  obtain rfl | apart := ordered.eq_or_lt
  · obtain rfl := eq_of_values left right positive
    have above : Scalar.zero < x := lt_of_values value?_scalar_zero left le_rfl positive
    rw [sub_self_of_finite above left, sub_self, rounded_zero]
    exact value?_scalar_zero
  · change value? (ofParts (.sub Format.binary64 (parts x) (parts y))) = _
    obtain ⟨significand, exponent, nonzero, same, stored, rfl⟩ := parts_of_value_pos left leftPos
    obtain ⟨significand', exponent', nonzero', same', stored', rfl⟩ :=
      parts_of_value_pos right positive
    obtain ⟨rest, difference, value⟩ := sub_eq nonzero nonzero' apart
    have above : 0 < rest := by
      have above := sub_pos.2 apart
      rw [← value] at above
      exact Nat.cast_pos.1 ((mul_pos_iff_of_pos_right (place_pos _)).1 above)
    have least := le_min stored.least stored'.least
    have small : rounded ((significand : ℚ) * 2 ^ exponent - significand' * 2 ^ exponent') <
        2 ^ (1024 : ℤ) := by
      refine lt_of_le_of_lt ?_ (value_lt left leftPos.le)
      nth_rewrite 2 [← rounded_of_value left leftPos.le]
      exact rounded_mono (sub_nonneg.2 ordered) (sub_le_self _ positive.le)
    rw [← value] at small ⊢
    rw [same, same', difference]
    exact (RoundsTo.round above least).finite small

/-- A finite double taken from an infinite one leaves an infinite one. -/
theorem parts_sub_of_infinite {x y : Float} {b : ℚ} (left : parts x = .infinity .positive)
    (right : value? y = some b) : parts (x - y) = .infinity .positive := by
  change parts (ofParts (.sub Format.binary64 (parts x) (parts y))) = _
  obtain ⟨_, same, -⟩ | ⟨_, _, _, _, same, -⟩ := parts_of_value right
  · rw [left, same]
    exact parts_ofParts_infinity .positive
  · rw [left, same]
    exact parts_ofParts_infinity .positive

/-! ### The integers that bits spell -/

/-- The integer that packed fields spell. -/
theorem toNat_packComponents (exponent : BitVec 11) (field : BitVec 52) :
    (packComponents Format.binary64 .positive exponent field).toNat =
      exponent.toNat * 2 ^ 52 + field.toNat := by
  change ((0#1 ++ exponent) ++ field).toNat = _
  rw [BitVec.toNat_append, ← Nat.shiftLeft_add_eq_or_of_lt field.isLt, Nat.shiftLeft_eq,
    BitVec.toNat_append]
  simp

/-- The integer that the fields of a positive double spell. -/
theorem Unpacks.toNat_fields {sign : Sign} {biased : BitVec 11} {field : BitVec 52}
    {significand : ℕ} {exponent : ℤ} {positive : 0 < significand}
    (unpacked : Unpacks sign biased field (.finite .positive significand exponent positive)) :
    ((packComponents Format.binary64 sign biased field).toNat : ℤ) =
      (exponent + 1074) * 2 ^ 52 + significand := by
  cases unpacked with
  | subnormal bottom =>
    rw [toNat_packComponents, bottom]
    simp
  | normal =>
    rw [toNat_packComponents, toNat_leading_append]
    push_cast
    ring

/-- The integer that the bits of a positive double spell. -/
theorem toNat_toBits {x : Float} {significand : ℕ} {exponent : ℤ} {positive : 0 < significand}
    (same : parts x = .finite .positive significand exponent positive) :
    (x.toBits.toNat : ℤ) = (exponent + 1074) * 2 ^ 52 + significand := by
  have unpacked : Unpacks _ _ _ (parts x) := unpacks x.toBits.toBitVec
  rw [same] at unpacked
  have spelt := unpacked.toNat_fields
  rw [packComponents_fields] at spelt
  exact spelt

/-- The bits of a greater double spell a greater integer. -/
theorem toBits_lt_of_values {x y : Float} {a b : ℚ} (left : value? x = some a)
    (right : value? y = some b) (positive : 0 < a) (ordered : a < b) :
    x.toBits.toNat < y.toBits.toNat := by
  obtain ⟨significand, exponent, nonzero, same, stored, rfl⟩ := parts_of_value_pos left positive
  obtain ⟨significand', exponent', nonzero', same', stored', rfl⟩ :=
    parts_of_value_pos right (positive.trans ordered)
  have spelt := toNat_toBits same
  have spelt' := toNat_toBits same'
  have high := stored.high
  obtain lower | ⟨rfl, fewer⟩ := stored.lex stored' ordered.le
  -- A higher exponent makes up for the bits below the leading one.
  · have full : 2 ^ 52 ≤ significand' :=
      stored'.full.resolve_right (by have := stored.least; omega)
    omega
  · have less : significand < significand' :=
      fewer.lt_of_ne fun same => ordered.ne (by rw [same])
    omega

end Spectrum48.Numeric
