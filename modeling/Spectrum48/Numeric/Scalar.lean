import Spectrum48.Decimal.Notation

/-!
# Arithmetic of time

Durations and instants are reckoned in milliseconds. The machine needs only a few operations on
them, gathered here, so that the same machine can be run with doubles and reasoned about with
exact fractions.
-/

namespace Spectrum48

/-- The numbers in which milliseconds are reckoned. -/
class Scalar (τ : Type) extends Add τ, Sub τ, Mul τ, Div τ, LT τ, LE τ where
  /-- The strict order is decided by computation. -/
  decideLT : DecidableLT τ
  /-- The order is decided by computation. -/
  decideLE : DecidableLE τ
  /-- The number that stands for an integer. -/
  ofInt : Int → τ
  /-- The nearest integer, halves away from zero. -/
  nearest : τ → Int
  /-- The whole part, zero for what is negative. -/
  whole : τ → Nat
  /-- A count that exceeds the number of times in a row that `step` can be taken away from
  `amount`, each time leaving less than before, until less than `step` is left. -/
  withdrawals : (amount step : τ) → Nat
  /-- A number as messages give it. -/
  text : τ → String

namespace Scalar

/-- The strict order of a scalar is decidable. -/
instance {τ : Type} [Scalar τ] : DecidableLT τ := decideLT

/-- The order of a scalar is decidable. -/
instance {τ : Type} [Scalar τ] : DecidableLE τ := decideLE

/-- The number that stands for a natural number. -/
def ofNat {τ : Type} [Scalar τ] (n : Nat) : τ := ofInt n

/-- The number zero. -/
def zero {τ : Type} [Scalar τ] : τ := ofNat 0

/-- A number with what is negative, or no number at all, replaced by zero. -/
def positivePart {τ : Type} [Scalar τ] (x : τ) : τ := if zero ≤ x then x else zero

end Scalar

/-- Milliseconds as doubles. Integers are clamped to 64 bits, whole parts to 32 bits. Taking away
lowers a positive double, and with it the integer that its bits spell, so those bits bound the
withdrawals. -/
instance : Scalar Float where
  decideLT := Float.decLt
  decideLE := Float.decLe
  ofInt := Float.ofInt
  nearest := Numeric.nearestInt64
  whole := Numeric.wholeUInt32
  withdrawals amount _ := amount.toBits.toNat + 1
  text := Decimal.plain.double

/-- Milliseconds as exact fractions. -/
instance : Scalar Rat where
  decideLT := inferInstance
  decideLE := inferInstance
  ofInt n := n
  nearest x := if 0 ≤ x then (x + 1 / 2).floor else -(-x + 1 / 2).floor
  whole x := x.floor.toNat
  withdrawals amount step := (amount / step).floor.toNat + 1
  text := toString

end Spectrum48
