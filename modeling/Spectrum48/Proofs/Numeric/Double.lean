import Mathlib.Algebra.Field.Rat
import Spectrum48.Numeric.Scalar

/-!
# Laws of doubles

An operation on doubles takes them apart, computes on the parts, and packs the rounded result. Bits
are taken apart in one of five ways, as their fields tell. A double is what its parts are packed
into, so an operation that gives back the parts of a double gives back the double. Signs pass
through packing and rounding, so a product of what is not negative is not negative. Nothing here
says how far a rounded result lies from the exact one.
-/

namespace Spectrum48.Numeric

open Float.Model
open Float.Model.UnpackedFloat (Accuracy ExtendedMantissa Sign packComponents unpackExponent
  unpackMantissa unpackSign)

/-- The bits of a double are its sign, its exponent field and its significand field. -/
theorem packComponents_fields (bits : BitVec Format.binary64.numBits) :
    packComponents Format.binary64 (.ofBitVec (unpackSign bits)) (unpackExponent bits)
      (unpackMantissa bits) = bits := by
  have sign (bit : BitVec 1) : (Sign.ofBitVec bit).toBitVec = bit := by
    revert bit
    decide
  rw [packComponents, sign]
  unfold unpackSign unpackExponent unpackMantissa
  ext i inside
  simp only [BitVec.getElem_cast, BitVec.extractLsb, BitVec.getElem_extractLsb',
    BitVec.getElem_append]
  rw [← BitVec.getLsbD_eq_getElem inside]
  split
  · rw [Nat.zero_add]
  · split
    · exact congrArg bits.getLsbD (by omega)
    · exact congrArg bits.getLsbD (by omega)

/-- The sign of packed fields is the sign that was packed. -/
theorem sign_packComponents (sign : Sign) (exponent : BitVec 11) (significand : BitVec 52) :
    Sign.ofBitVec (unpackSign (packComponents Format.binary64 sign exponent significand))
      = sign := by
  have bit : unpackSign (packComponents Format.binary64 sign exponent significand)
      = sign.toBitVec := by
    unfold unpackSign packComponents
    ext i inside
    simp only [BitVec.getElem_cast, BitVec.extractLsb, BitVec.getElem_extractLsb']
    obtain rfl : i = 0 := by omega
    rw [BitVec.getLsbD_append, if_neg (by decide), BitVec.getLsbD_append, if_neg (by decide)]
    rfl
  rw [bit]
  cases sign <;> rfl

/-- A subnormal number is packed with the lowest exponent field. -/
theorem pack_subnormal (sign : Sign) (significand : BitVec 52)
    (positive : 0 < significand.toNat) :
    UnpackedFloat.pack Format.binary64 (.finite sign significand.toNat (-1074) positive)
      = packComponents Format.binary64 sign 0#11 significand := by
  have small : significand.toNat.log2 < 52 := (Nat.log2_lt positive.ne').2 significand.isLt
  have short : ¬ significand.toNat.log2 + 1 = Format.binary64.mantissaBits := by
    change ¬ significand.toNat.log2 + 1 = 53
    omega
  unfold UnpackedFloat.pack
  rw [if_neg (by decide), if_neg short, BitVec.ofNat_toNat, BitVec.setWidth_eq]

/-- A normal number is packed without its leading bit. -/
theorem pack_normal (sign : Sign) (exponent : BitVec 11) (significand : BitVec 52)
    (notTop : exponent ≠ -1#11) (positive : 0 < (1#1 ++ significand).toNat) :
    UnpackedFloat.pack Format.binary64
        (.finite sign (1#1 ++ significand).toNat ((exponent.toNat : Int) - 1075) positive)
      = packComponents Format.binary64 sign exponent significand := by
  have bound := significand.isLt
  have whole : (1#1 ++ significand).toNat = 2 ^ 52 + significand.toNat := by
    rw [BitVec.toNat_append, ← Nat.shiftLeft_add_eq_or_of_lt bound]
    rfl
  have length : (2 ^ 52 + significand.toNat).log2 = 52 := by
    rw [Nat.log2_eq_iff (by omega)]
    omega
  have below : exponent.toNat + 1 < 2 ^ 11 := by
    have atMost := exponent.isLt
    have notLast : exponent.toNat ≠ 2047 := fun same => notTop (BitVec.eq_of_toNat_eq same)
    omega
  have biased : ((exponent.toNat : Int) - 1075 + Format.binary64.exponentBias
      + Format.binary64.mantissaBitsWithoutImplicit).toNat = exponent.toNat := by
    change ((exponent.toNat : Int) - 1075 + 1023 + 52).toNat = _
    omega
  unfold UnpackedFloat.pack
  dsimp only
  rw [whole, biased, length, if_neg (by omega), if_pos (by decide), BitVec.ofNat_toNat,
    BitVec.setWidth_eq]
  congr 1
  apply BitVec.eq_of_toNat_eq
  rw [BitVec.toNat_ofNat]
  omega

/-- What the fields of a double are unpacked to. -/
inductive Unpacks (sign : Sign) (exponent : BitVec 11) (field : BitVec 52) : UnpackedFloat → Prop
  /-- The highest exponent field, with nothing else, is infinite. -/
  | infinity (top : exponent = -1#11) (none : field = 0#52) :
    Unpacks sign exponent field (.infinity sign)
  /-- The highest exponent field, with anything else, is no number. -/
  | notANumber (top : exponent = -1#11) (some : field ≠ 0#52) :
    Unpacks sign exponent field .notANumber
  /-- The lowest exponent field, with nothing else, is a zero. -/
  | zero (bottom : exponent = 0#11) (none : field = 0#52) : Unpacks sign exponent field (.zero sign)
  /-- The lowest exponent field leaves a significand as it is. -/
  | subnormal (bottom : exponent = 0#11) (positive : 0 < field.toNat) :
    Unpacks sign exponent field (.finite sign field.toNat (-1074) positive)
  /-- Any other exponent field adds a leading bit to a significand. -/
  | normal (notTop : exponent ≠ -1#11) (notBottom : exponent ≠ 0#11)
    (positive : 0 < (1#1 ++ field).toNat) :
    Unpacks sign exponent field
      (.finite sign (1#1 ++ field).toNat ((exponent.toNat : Int) - 1075) positive)

/-- Bits are unpacked as their fields tell. -/
theorem unpacks (bits : BitVec Format.binary64.numBits) :
    Unpacks (.ofBitVec (unpackSign bits)) (unpackExponent bits) (unpackMantissa bits)
      (.unpack Format.binary64 bits) := by
  unfold UnpackedFloat.unpack
  dsimp only
  by_cases top : unpackExponent bits = -1#11
  · rw [if_pos top]
    by_cases none : unpackMantissa bits = 0#52
    · rw [if_pos none]
      exact .infinity top none
    · rw [if_neg none]
      exact .notANumber top none
  · rw [if_neg top]
    by_cases bottom : unpackExponent bits = 0#11
    · rw [if_pos bottom]
      by_cases none : unpackMantissa bits = 0#52
      · rw [dif_pos none]
        exact .zero bottom none
      · rw [dif_neg none, bottom]
        exact .subnormal rfl _
    · rw [if_neg bottom]
      exact .normal top bottom _

/-- Packed fields are unpacked as they tell. -/
theorem unpacks_packComponents (sign : Sign) (exponent : BitVec 11) (field : BitVec 52) :
    Unpacks sign exponent field
      (.unpack Format.binary64 (packComponents Format.binary64 sign exponent field)) := by
  have unpacked := unpacks (packComponents Format.binary64 sign exponent field)
  rwa [UnpackedFloat.unpackExponent_packComponents, UnpackedFloat.unpackMantissa_packComponents,
    sign_packComponents] at unpacked

namespace Unpacks

variable {sign : Sign} {exponent : BitVec 11} {field : BitVec 52} {x : UnpackedFloat}

/-- Fields with the lowest exponent, but not of a zero, are unpacked without a leading bit. -/
theorem eq_subnormal (unpacked : Unpacks sign exponent field x) (bottom : exponent = 0#11)
    (positive : 0 < field.toNat) : x = .finite sign field.toNat (-1074) positive := by
  subst bottom
  cases unpacked with
  | infinity top | notANumber top => exact absurd top (by decide)
  | zero _ none =>
    subst none
    exact absurd positive (by decide)
  | subnormal => rfl
  | normal _ notBottom => exact absurd rfl notBottom

/-- Fields with an exponent between the lowest and the highest are unpacked with a leading bit. -/
theorem eq_normal (unpacked : Unpacks sign exponent field x) (notTop : exponent ≠ -1#11)
    (notBottom : exponent ≠ 0#11) (positive : 0 < (1#1 ++ field).toNat) :
    x = .finite sign (1#1 ++ field).toNat ((exponent.toNat : Int) - 1075) positive := by
  cases unpacked with
  | infinity top | notANumber top => exact absurd top notTop
  | zero bottom | subnormal bottom => exact absurd bottom notBottom
  | normal => rfl

end Unpacks

/-- Valid bits are what their parts are packed into. -/
theorem pack_unpack {bits : BitVec Format.binary64.numBits}
    (valid : Format.binary64.Valid bits) :
    UnpackedFloat.pack Format.binary64 (.unpack Format.binary64 bits) = bits := by
  have fields := packComponents_fields bits
  have unpacked := unpacks bits
  generalize UnpackedFloat.unpack Format.binary64 bits = x at unpacked ⊢
  cases unpacked with
  | infinity top none =>
    rw [top, none] at fields
    exact fields
  | notANumber top some => exact (valid.eq_packedNaN top some).symm
  | zero bottom none =>
    rw [bottom, none] at fields
    exact fields
  | subnormal bottom positive =>
    rw [bottom] at fields
    exact (pack_subnormal _ _ positive).trans fields
  | normal notTop _ positive => exact (pack_normal _ _ _ notTop positive).trans fields

/-- The double that parts are packed into. -/
def ofParts (x : UnpackedFloat) : Float := .ofModel (.pack x)

/-- A double is what its parts are packed into. -/
theorem ofParts_parts (x : Float) : ofParts (parts x) = x := by
  obtain ⟨⟨bits, valid⟩⟩ := x
  have same : UnpackedFloat.pack Format.binary64 (.unpack Format.binary64 bits.toBitVec)
      = bits.toBitVec := pack_unpack valid
  exact congrArg Float.ofModel ((Float.Model.mk.injEq ..).mpr (UInt64.toBitVec_inj.1 same))

/-- The number zero has the parts of a positive zero. -/
theorem parts_zero : parts Scalar.zero = .zero .positive := rfl

/-- The sign of a number. What is no number counts as positive. -/
def signOf : UnpackedFloat → Sign
  | .notANumber => .positive
  | .infinity sign | .zero sign | .finite sign .. => sign

/-- What is packed with a positive sign is positive. -/
theorem signOf_ofParts {x : UnpackedFloat} (positive : signOf x = .positive) :
    signOf (parts (ofParts x)) = .positive := by
  have packed : Sign.ofBitVec (unpackSign (UnpackedFloat.pack Format.binary64 x)) = .positive := by
    rw [← positive]
    cases x with
    | notANumber | infinity sign | zero sign => exact sign_packComponents _ _ _
    | finite sign significand exponent nonzero =>
      change _ = sign
      unfold UnpackedFloat.pack
      dsimp only
      split
      · exact sign_packComponents _ _ _
      · split <;> exact sign_packComponents _ _ _
  have unpacked := unpacks (UnpackedFloat.pack Format.binary64 x)
  rw [packed] at unpacked
  change signOf (.unpack Format.binary64 (UnpackedFloat.pack Format.binary64 x)) = _
  generalize UnpackedFloat.unpack Format.binary64 _ = y at unpacked ⊢
  cases unpacked <;> rfl

/-- A significand is shifted and rounded, and what that leaves is shifted once more. -/
theorem roundWithAccuracy_of_shifts {significand : Nat} {exponent place place' : Int}
    {accuracy : Accuracy} {first second : ExtendedMantissa}
    (shift : UnpackedFloat.shiftToTargetExponent Format.binary64 significand exponent accuracy =
      (first, place))
    (again : UnpackedFloat.shiftToTargetExponent Format.binary64 first.roundedMantissa place
      .exact = (second, place')) (sign : Sign) :
    UnpackedFloat.roundWithAccuracy Format.binary64 sign significand exponent accuracy =
      if none : second.mantissa = 0 then .zero sign
      else .finite sign second.mantissa place' (Nat.pos_of_ne_zero none) := by
  rw [UnpackedFloat.roundWithAccuracy.eq_def, shift]
  dsimp only
  rw [again]

/-- Rounding keeps the sign. -/
theorem signOf_roundWithAccuracy (sign : Sign) (significand : Nat) (exponent : Int)
    (accuracy : Accuracy) :
    signOf (.roundWithAccuracy Format.binary64 sign significand exponent accuracy) = sign := by
  rw [roundWithAccuracy_of_shifts rfl rfl, apply_dite signOf]
  exact dite_eq_iff'.2 ⟨fun _ => rfl, fun _ => rfl⟩

/-- What is not below zero is rounded to a positive number. -/
theorem signOf_normalize {significand : Int} (nonneg : 0 ≤ significand) (exponent : Int) :
    signOf (.normalize Format.binary64 significand exponent .positive) = .positive := by
  unfold UnpackedFloat.normalize
  split
  · next below =>
    have := Int.compare_eq_lt.1 below
    omega
  · rfl
  · exact signOf_roundWithAccuracy _ _ _ _

/-- A product of positive numbers is positive. -/
theorem signOf_mul {x y : UnpackedFloat} (left : signOf x = .positive)
    (right : signOf y = .positive) : signOf (.mul Format.binary64 x y) = .positive := by
  cases x with
  | notANumber => cases y <;> rfl
  | infinity _ | zero _ =>
    cases left
    cases y with
    | notANumber => rfl
    | infinity _ | zero _ | finite _ _ _ _ =>
      cases right
      rfl
  | finite _ _ _ _ =>
    cases left
    cases y with
    | notANumber => rfl
    | infinity _ | zero _ =>
      cases right
      rfl
    | finite _ _ _ _ =>
      cases right
      exact signOf_roundWithAccuracy _ _ _ _

/-- A natural number is taken times a power of ten, which is one here. -/
theorem ofScientific_eq {n : Nat} (positive : 0 < n) :
    UnpackedFloat.ofScientific Format.binary64 n 0 =
      .roundWithAccuracy Format.binary64 .positive (n <<< 53 * 1) (-53 + 0) .exact := by
  have below : ¬ (0 : Int) < -(2 ^ Format.binary64.exponentBits + n.log2) := by
    change ¬ (0 : Int) < -(2 ^ 11 + n.log2)
    omega
  rw [UnpackedFloat.ofScientific.eq_def, dif_neg positive.ne', if_neg (by decide), if_neg below,
    if_pos le_rfl]
  rfl

/-- A natural number is a positive double. -/
theorem signOf_ofNat (n : Nat) : signOf (parts (Scalar.ofNat n)) = .positive := by
  obtain rfl | positive := n.eq_zero_or_pos
  · rfl
  change signOf (parts (Float.ofScientific n false 0)) = _
  unfold Float.ofScientific
  dsimp only
  split
  · apply signOf_ofParts
    apply signOf_mul
    · exact signOf_ofParts (signOf_normalize (Int.natCast_nonneg _) _)
    · change signOf (parts Float.exactlyRepresentablePowersOfTen[0]) = _
      rfl
  · apply signOf_ofParts
    change signOf (.ofScientific Format.binary64 n 0) = _
    rw [ofScientific_eq positive]
    exact signOf_roundWithAccuracy _ _ _ _

/-- A positive number is converted to an integer that is not negative. -/
theorem toRange_nonneg {magnitude : Nat → Int → Nat} {least greatest : Int}
    (high : 0 ≤ greatest) {x : UnpackedFloat} (positive : signOf x = .positive) :
    0 ≤ toRange magnitude least greatest x := by
  cases x with
  | notANumber | zero _ => exact le_rfl
  | infinity _ =>
    cases positive
    exact high
  | finite _ significand exponent _ =>
    cases positive
    change 0 ≤ max least (min greatest (magnitude significand exponent : Int))
    omega

/-- Doubles are ordered as their parts are. -/
theorem le_iff (x y : Float) : x ≤ y ↔ UnpackedFloat.le (parts x) (parts y) = true :=
  decide_eq_true_iff

/-- Doubles are strictly ordered as their parts are. -/
theorem lt_iff (x y : Float) : x < y ↔ UnpackedFloat.lt (parts x) (parts y) = true :=
  decide_eq_true_iff

/-- Comparing two numbers the other way round gives the opposite. -/
theorem compare_swap (x y : UnpackedFloat) : y.compare x = (x.compare y).map Ordering.swap := by
  cases x with
  | notANumber => cases y <;> rfl
  | zero _ =>
    cases y with
    | notANumber | zero _ => rfl
    | infinity sign | finite sign _ _ _ => cases sign <;> rfl
  | infinity left =>
    cases y with
    | notANumber | zero _ => cases left <;> rfl
    | infinity right | finite right _ _ _ => cases left <;> cases right <;> rfl
  | finite left significand exponent _ =>
    cases y with
    | notANumber | zero _ => cases left <;> rfl
    | infinity right => cases left <;> cases right <;> rfl
    | finite right significand' exponent' _ =>
      have swapped : ((compare exponent exponent').then (compare significand significand')).swap =
          (compare exponent' exponent).then (compare significand' significand) := by
        rw [Ordering.swap_then, Int.compare_swap, Nat.compare_swap]
      cases left with
      | negative =>
        cases right with
        | negative => exact congrArg (some ·.swap) swapped.symm
        | positive => rfl
      | positive =>
        cases right with
        | negative => rfl
        | positive => exact congrArg some swapped.symm

/-- A double that is not above another one is not above it strictly. -/
theorem not_lt_of_le {x y : Float} (ordered : x ≤ y) : ¬ y < x := by
  rw [le_iff, UnpackedFloat.le] at ordered
  rw [lt_iff, UnpackedFloat.lt, compare_swap (parts x)]
  intro above
  cases relation : (parts x).compare (parts y) with
  | none => simp [relation] at above
  | some order =>
    rw [relation] at ordered above
    cases order with
    | lt | eq => cases above
    | gt => cases ordered

/-- A double above zero is infinite or finite, with a positive sign. -/
theorem parts_of_pos {x : Float} (positive : Scalar.zero < x) :
    parts x = .infinity .positive ∨ ∃ significand exponent nonzero,
      parts x = .finite .positive significand exponent nonzero := by
  rw [lt_iff, parts_zero] at positive
  cases same : parts x with
  | notANumber | zero _ =>
    rw [same] at positive
    cases positive
  | infinity sign =>
    rw [same] at positive
    cases sign with
    | negative => cases positive
    | positive => exact .inl rfl
  | finite sign significand exponent nonzero =>
    rw [same] at positive
    cases sign with
    | negative => cases positive
    | positive => exact .inr ⟨significand, exponent, nonzero, rfl⟩

/-- A double above zero is positive. -/
theorem signOf_of_pos {x : Float} (positive : Scalar.zero < x) :
    signOf (parts x) = .positive := by
  obtain same | ⟨significand, exponent, nonzero, same⟩ := parts_of_pos positive
  · rw [same]
    rfl
  · rw [same]
    rfl

/-- A double above zero is not above itself. -/
theorem le_self_of_pos {x : Float} (positive : Scalar.zero < x) : x ≤ x := by
  rw [le_iff]
  obtain same | ⟨significand, exponent, nonzero, same⟩ := parts_of_pos positive
  · rw [same]
    rfl
  · rw [same]
    have exponents : compare exponent exponent = .eq := Std.ReflCmp.compare_self
    have significands : compare significand significand = .eq := Std.ReflCmp.compare_self
    change ((compare exponent exponent).then (compare significand significand)).isLE = true
    rw [exponents, significands]
    rfl

/-- Zero is not above a double above zero. -/
theorem zero_le_of_pos {x : Float} (positive : Scalar.zero < x) : Scalar.zero ≤ x := by
  rw [le_iff, parts_zero]
  obtain same | ⟨significand, exponent, nonzero, same⟩ := parts_of_pos positive
  · rw [same]
    rfl
  · rw [same]
    rfl

/-- Zero added to a double above zero leaves it alone. -/
theorem zero_add_of_pos {x : Float} (positive : Scalar.zero < x) : Scalar.zero + x = x := by
  change ofParts (.add Format.binary64 (parts Scalar.zero) (parts x)) = x
  rw [parts_zero]
  obtain same | ⟨significand, exponent, nonzero, same⟩ := parts_of_pos positive
  · rw [same, ← ofParts_parts x, same]
    rfl
  · rw [same, ← ofParts_parts x, same]
    rfl

/-- The fraction that a double stands for, if it is finite. -/
def value? (x : Float) : Option ℚ :=
  match parts x with
  | .finite sign significand exponent _ => some (sign.apply significand * 2 ^ exponent)
  | .zero _ => some 0
  | .infinity _ | .notANumber => none

/-- A finite double above zero taken from itself leaves zero. -/
theorem sub_self_of_finite {x : Float} (positive : Scalar.zero < x) {value : ℚ}
    (finite : value? x = some value) : x - x = Scalar.zero := by
  change ofParts (.sub Format.binary64 (parts x) (parts x)) = _
  rw [← ofParts_parts Scalar.zero, parts_zero]
  obtain same | ⟨significand, exponent, nonzero, same⟩ := parts_of_pos positive
  · rw [value?, same] at finite
    cases finite
  · rw [same]
    change ofParts (.normalize _ (Sign.apply _ _ - Sign.apply _ _) _ _) = _
    rw [Int.sub_self]
    rfl

end Spectrum48.Numeric
