/-!
# Binary floating point as integers

A binary floating-point number is taken apart into sign, significand and exponent, and the
conversions to integers and to single precision are computed on these exactly.

Integer conversions never fail: what is not a number converts to zero, and what lies outside the
range of the result converts to the nearer end of that range.
-/

namespace Spectrum48.Numeric

open Float.Model (UnpackedFloat Format)

/-- The parts of a double. -/
def parts (x : Float) : UnpackedFloat := .unpack Format.binary64 x.toBits.toBitVec

/-- The parts of a single. -/
def singleParts (x : Float32) : UnpackedFloat := .unpack Format.binary32 x.toBits.toBitVec

/-- The integer nearest to `significand * 2 ^ exponent`; a half counts upwards. -/
def nearestNat (significand : Nat) : (exponent : Int) → Nat
  | .ofNat shift => significand * Nat.pow 2 shift
  | .negSucc shift => (significand + Nat.pow 2 shift) / Nat.pow 2 (shift + 1)

/-- The whole part of `significand * 2 ^ exponent`. -/
def wholeNat (significand : Nat) : (exponent : Int) → Nat
  | .ofNat shift => significand * Nat.pow 2 shift
  | .negSucc shift => significand / Nat.pow 2 (shift + 1)

/-- A value moved into a range by the least possible distance. -/
def clamp (least greatest value : Int) : Int := max least (min greatest value)

/-- Conversion to an integer range, with `magnitude` deciding how a fraction is given up. -/
def toRange (magnitude : Nat → Int → Nat) (least greatest : Int) : UnpackedFloat → Int
  | .notANumber | .zero _ => 0
  | .infinity .negative => least
  | .infinity .positive => greatest
  | .finite sign significand exponent _ =>
    clamp least greatest (sign.apply (magnitude significand exponent))

/-- The least 64-bit integer. -/
def leastInt64 : Int := -0x8000000000000000

/-- The greatest 64-bit integer. -/
def greatestInt64 : Int := 0x7FFFFFFFFFFFFFFF

/-- The 64-bit integer nearest to a double, halves away from zero. -/
def nearestInt64 (x : Float) : Int := toRange nearestNat leastInt64 greatestInt64 (parts x)

/-- The unsigned 32-bit integer that is left when the fraction of a double is cut off. -/
def wholeUInt32 (x : Float) : Nat := (toRange wholeNat 0 0xFFFFFFFF (parts x)).toNat

/-- The single nearest to a double, ties to the even significand. -/
def toSingle (x : Float) : Float32 :=
  let single := match parts x with
    | .finite sign significand exponent _ =>
      UnpackedFloat.round Format.binary32 sign significand exponent
    | special => special
  .ofBits (.ofBitVec (single.pack Format.binary32))

/-- Clamping stays inside a non-empty range. -/
theorem clamp_mem {least greatest : Int} (ordered : least ≤ greatest) (value : Int) :
    least ≤ clamp least greatest value ∧ clamp least greatest value ≤ greatest := by
  unfold clamp
  omega

/-- Clamping leaves a value in the range alone. -/
theorem clamp_of_mem {least greatest value : Int} (above : least ≤ value)
    (below : value ≤ greatest) : clamp least greatest value = value := by
  unfold clamp
  omega

/-- A conversion ends in its range. -/
theorem toRange_mem (magnitude : Nat → Int → Nat) {least greatest : Int} (low : least ≤ 0)
    (high : 0 ≤ greatest) (x : UnpackedFloat) :
    least ≤ toRange magnitude least greatest x ∧ toRange magnitude least greatest x ≤ greatest := by
  unfold toRange
  split
  all_goals first | omega | exact clamp_mem (by omega) _

end Spectrum48.Numeric
