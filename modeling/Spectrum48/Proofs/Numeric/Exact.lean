import Mathlib.Data.Rat.Floor
import Spectrum48.Clock

/-!
# Milliseconds without rounding

Fractions, with what a double has besides them: the two infinities and what is no number at all. The
operations are those of doubles, except that nothing is rounded and that there is one zero only, so
that a clock which reckons in these numbers accepts whatever a host hands it and loses nothing.

Host time then counts as a fraction: a stall as one frame, time that runs backwards and what is no
number as nothing, and everything else as it is.
-/

namespace Spectrum48

/-- A number of milliseconds without rounding. -/
inductive Exact where
  /-- A fraction. -/
  | number (value : ℚ)
  /-- What lies beyond all fractions, above them or below them. -/
  | infinite (negative : Bool)
  /-- The result of an operation that has none. -/
  | undefined
  deriving DecidableEq

namespace Exact

/-- The opposite number. -/
def neg : Exact → Exact
  | number x => number (-x)
  | infinite negative => infinite (!negative)
  | undefined => undefined

/-- The sum; opposite infinities have none. -/
def add : Exact → Exact → Exact
  | number x, number y => number (x + y)
  | infinite left, infinite right => if left = right then infinite left else undefined
  | infinite negative, number _ | number _, infinite negative => infinite negative
  | undefined, _ | _, undefined => undefined

/-- The difference. -/
def sub (x y : Exact) : Exact := add x (neg y)

/-- The product; zero and an infinity have none. -/
def mul : Exact → Exact → Exact
  | number x, number y => number (x * y)
  | infinite left, infinite right => infinite (left ^^ right)
  | infinite negative, number x | number x, infinite negative =>
    if x = 0 then undefined else infinite (negative ^^ decide (x < 0))
  | undefined, _ | _, undefined => undefined

/-- The quotient; zeros have none, and neither have infinities. -/
def div : Exact → Exact → Exact
  | number x, number y =>
    if y ≠ 0 then number (x / y)
    else if x ≠ 0 then infinite (decide (x < 0))
    else undefined
  | number _, infinite _ => number 0
  | infinite negative, number y => infinite (negative ^^ decide (y < 0))
  | infinite _, infinite _ => undefined
  | undefined, _ | _, undefined => undefined

/-- Whether one number is below another one; what is no number is below nothing. -/
def below : Exact → Exact → Bool
  | number x, number y => x < y
  | infinite left, infinite right => left && !right
  | infinite negative, number _ => negative
  | number _, infinite negative => !negative
  | undefined, _ | _, undefined => false

/-- Whether one number is another one or below it. -/
def atMost : Exact → Exact → Bool
  | number x, number y => x ≤ y
  | infinite left, infinite right => left || !right
  | infinite negative, number _ => negative
  | number _, infinite negative => !negative
  | undefined, _ | _, undefined => false

/-- The nearest 64-bit integer. -/
def nearest : Exact → Int
  | number x => Numeric.clamp Numeric.leastInt64 Numeric.greatestInt64 (Scalar.nearest x)
  | infinite negative => if negative then Numeric.leastInt64 else Numeric.greatestInt64
  | undefined => 0

/-- The whole part as an unsigned 32-bit integer. -/
def whole : Exact → Nat
  | number x => min x.floor.toNat 0xFFFFFFFF
  | infinite negative => if negative then 0 else 0xFFFFFFFF
  | undefined => 0

/-- A count that exceeds the withdrawals of a step from an amount; an infinity can be withdrawn from
itself once. -/
def withdrawals : (amount step : Exact) → Nat
  | number amount, number step => Scalar.withdrawals amount step
  | _, _ => 1

/-- A number as messages give it. -/
def text : Exact → String
  | number x => Scalar.text x
  | infinite negative => if negative then "-inf" else "inf"
  | undefined => "NaN"

/-- Milliseconds without rounding. -/
instance : Scalar Exact where
  add := add
  sub := sub
  mul := mul
  div := div
  lt x y := below x y = true
  le x y := atMost x y = true
  decideLT x y := inferInstanceAs (Decidable (below x y = true))
  decideLE x y := inferInstanceAs (Decidable (atMost x y = true))
  ofInt n := number n
  nearest := nearest
  whole := whole
  withdrawals := withdrawals
  text := text

/-- Zero is a fraction. -/
theorem zero_eq : (Scalar.zero : Exact) = number 0 := rfl

/-- Fractions are added as such. -/
theorem number_add (x y : ℚ) : number x + number y = number (x + y) := rfl

/-- Fractions are subtracted as such. -/
theorem number_sub (x y : ℚ) : number x - number y = number (x - y) :=
  congrArg number (sub_eq_add_neg x y).symm

/-- Fractions are strictly ordered as such. -/
theorem number_lt {x y : ℚ} : number x < number y ↔ x < y := decide_eq_true_iff

/-- Fractions are ordered as such. -/
theorem number_le {x y : ℚ} : number x ≤ number y ↔ x ≤ y := decide_eq_true_iff

/-- A step can be withdrawn from an amount no more often than it fits. -/
theorem floor_lt_withdrawals (amount step : ℚ) :
    ⌊amount / step⌋₊ < Scalar.withdrawals (number amount) (number step) := Nat.lt_succ_self _

/-- What elapsed host time counts for, with the milliseconds of a frame and of a stall. -/
def counted (frame stall : ℚ) : Exact → ℚ
  | number delta => if stall < delta then frame else if delta < 0 then 0 else delta
  | infinite negative => if negative then 0 else frame
  | undefined => 0

/-- Elapsed host time never counts for less than nothing. -/
theorem counted_nonneg {frame : ℚ} (nonneg : 0 ≤ frame) (stall : ℚ) (delta : Exact) :
    0 ≤ counted frame stall delta := by
  cases delta with
  | number delta =>
    rw [counted]
    split_ifs with stalled backwards
    · exact nonneg
    · exact le_rfl
    · exact not_lt.1 backwards
  | infinite negative =>
    cases negative with
    | false => exact nonneg
    | true => exact le_rfl
  | undefined => exact le_rfl

/-- Elapsed host time never counts for more than what is not yet a stall. -/
theorem counted_le {frame stall : ℚ} (nonneg : 0 ≤ frame) (ordered : frame ≤ stall)
    (delta : Exact) : counted frame stall delta ≤ stall := by
  cases delta with
  | number delta =>
    rw [counted]
    split_ifs with stalled backwards
    · exact ordered
    · exact nonneg.trans ordered
    · exact not_lt.1 stalled
  | infinite negative =>
    cases negative with
    | false => exact ordered
    | true => exact nonneg.trans ordered
  | undefined => exact nonneg.trans ordered

/-- Elapsed host time that is neither a stall nor runs backwards counts as it is. -/
theorem counted_number {frame stall delta : ℚ} (nonneg : 0 ≤ delta) (atMost : delta ≤ stall) :
    counted frame stall (number delta) = delta := by
  rw [counted, if_neg (not_lt.2 atMost), if_neg (not_lt.2 nonneg)]

/-- A clock that reckons in fractions credits what host time counts for. -/
theorem credited_eq {clock : Clock Exact} {frame stall : ℚ}
    (frameTime : clock.frameTime = number frame)
    (maxFrameDelta : clock.maxFrameDelta = number stall) (delta : Exact) :
    clock.credited delta = number (counted frame stall delta) := by
  unfold Clock.credited Scalar.positivePart
  rw [frameTime, maxFrameDelta, zero_eq]
  cases delta with
  | number delta =>
    simp only [counted, number_lt, number_le]
    split_ifs with stalled forwards backwards backwards
    · rfl
    · exact absurd forwards (not_le.2 backwards)
    · rfl
    · rfl
    · exact absurd (not_lt.1 backwards) forwards
  | infinite negative => cases negative <;> rfl
  | undefined => rfl

end Exact

end Spectrum48
