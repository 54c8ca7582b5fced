/-!
# Shortest decimals

The shortest decimal that reads back as a given binary floating-point number.

A finite positive number is `significand * 2 ^ exponent`. The reals that round to it form an
interval around it, which reaches half way to its two neighbours and contains its ends exactly if
the significand is even. A decimal with `digits` digits is a multiple of a power of ten; the two
multiples next to the number are the only candidates worth testing, because an interval around the
number that contains some multiple contains one of these two. The first digit count with a
candidate in the interval wins, and of two candidates the nearer one.

All is computed in natural numbers: lengths are counted in quarters of the binary unit, or in the
decimal unit, by multiplying both sides with the same powers.
-/

namespace Spectrum48.Decimal

/-- A decimal numeral, which stands for `digits * 10 ^ exponent`. -/
structure Numeral where
  /-- The digits, read as one natural number. -/
  digits : Nat
  /-- The power of ten. -/
  exponent : Int
  deriving DecidableEq, Repr

/-- What to do with a number half way between two candidates. -/
inductive Tie where
  /-- Take the greater candidate. -/
  | up
  /-- Take the candidate with the even last digit. -/
  | even
  deriving DecidableEq, Repr

/-- A finite positive binary number with the interval of reals that round to it. The numbers are
counts of the unit `2 ^ unit`. -/
structure Interval where
  /-- The lower end. -/
  low : Nat
  /-- The number itself. -/
  value : Nat
  /-- The upper end. -/
  high : Nat
  /-- Whether the ends belong to the interval. -/
  closed : Bool
  /-- The power of two that is counted. -/
  unit : Int
  deriving DecidableEq, Repr

/-- The interval of `significand * 2 ^ exponent`. Below a power of two the neighbours are half as
far away, except at the least exponent. -/
def Interval.of (significand : Nat) (exponent : Int) (normalBits : Nat) (leastExponent : Int) :
    Interval where
  low := 4 * significand - if significand = Nat.pow 2 normalBits ∧ leastExponent < exponent then 1 else 2
  value := 4 * significand
  high := 4 * significand + 2
  closed := significand % 2 == 0
  unit := exponent - 2

/-- A positive fraction equal to `2 ^ unit / 10 ^ place`. -/
def ratio (unit place : Int) : Nat × Nat :=
  (Nat.pow 2 unit.toNat * Nat.pow 10 (-place).toNat,
   Nat.pow 2 (-unit).toNat * Nat.pow 10 place.toNat)

/-- Whether the decimal `candidate * 10 ^ place` lies in an interval. -/
def Interval.contains (interval : Interval) (place : Int) (candidate : Nat) : Bool :=
  let (numerator, denominator) := ratio interval.unit place
  let scaled := candidate * denominator
  if interval.closed then
    interval.low * numerator ≤ scaled && scaled ≤ interval.high * numerator
  else
    interval.low * numerator < scaled && scaled < interval.high * numerator

/-- The better of the two multiples of `10 ^ place` next to the number, if one of them lies in the
interval. -/
def Interval.candidate? (interval : Interval) (tie : Tie) (place : Int) : Option Nat :=
  let (numerator, denominator) := ratio interval.unit place
  let below := interval.value * numerator / denominator
  let rest := interval.value * numerator % denominator
  let above := below + 1
  match decide (0 < below) && interval.contains place below, interval.contains place above with
  | true, false => some below
  | false, true => some above
  | false, false => none
  | true, true =>
    match compare (2 * rest) denominator with
    | .lt => some below
    | .gt => some above
    | .eq => match tie with
      | .up => some above
      | .even => if below % 2 = 0 then some below else some above

/-- The least power of ten above `value * 2 ^ unit`, found by counting the digits of the whole
part, or the zeros after the point. -/
def Interval.magnitude (interval : Interval) : Int :=
  let (numerator, denominator) := ratio interval.unit 0
  let scaled := interval.value * numerator
  if denominator ≤ scaled then
    (Nat.toDigits 10 (scaled / denominator)).length
  else
    1 - (Nat.toDigits 10 ((denominator - 1) / scaled)).length

/-- The first candidate when the digit count grows from one; `count` digit counts are tried. -/
def Interval.search (interval : Interval) (tie : Tie) (place : Int) : (count : Nat) → Numeral
  | 0 => ⟨0, 0⟩
  | count + 1 =>
    match interval.candidate? tie place with
    | some digits => ⟨digits, place⟩
    | none => interval.search tie (place - 1) count

/-- Digit counts that are tried; seventeen digits tell any two doubles apart. -/
def digitLimit : Nat := 20

/-- The shortest decimal that reads back as the number of an interval. -/
def Interval.shortest (interval : Interval) (tie : Tie) : Numeral :=
  interval.search tie interval.magnitude digitLimit

end Spectrum48.Decimal
