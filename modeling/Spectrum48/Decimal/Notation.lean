import Spectrum48.Decimal.Shortest
import Spectrum48.Numeric.Binary

/-!
# Decimal notation

How a floating-point number is written: its shortest decimal, placed either positionally or with
an exponent, under the conventions of a `Notation`.
-/

namespace Spectrum48.Decimal

open Float.Model (UnpackedFloat)

/-- The conventions for writing numbers. -/
structure Notation where
  /-- Which of two equally near candidates is written. -/
  tie : Tie
  /-- Where the decimal point of a positional number may stand, counted from the first digit; any
  other number is written with an exponent. -/
  positional : Int → Bool
  /-- What follows a positional whole number. -/
  wholeTail : String
  /-- What precedes the digits of an exponent that is not negative. -/
  plusSign : String
  /-- The text of what is not a number. -/
  notANumber : String
  /-- The text of a positive infinity. -/
  infinity : String
  /-- The text of a negative infinity. -/
  negativeInfinity : String

/-- Digits with the decimal point after the first `point` of them; digits that are missing on
either side of the point are zeros. -/
def placePoint (conventions : Notation) (digits : List Char) (point : Int) : String :=
  match point with
  | .negSucc zeros => "0." ++ String.ofList (List.replicate (zeros + 1) '0' ++ digits)
  | .ofNat 0 => "0." ++ String.ofList digits
  | .ofNat (count + 1) =>
    if digits.length ≤ count + 1 then
      String.ofList (digits ++ List.replicate (count + 1 - digits.length) '0')
        ++ conventions.wholeTail
    else
      String.ofList (digits.take (count + 1)) ++ "." ++ String.ofList (digits.drop (count + 1))

/-- An exponent with its sign. -/
def exponentText (conventions : Notation) : (exponent : Int) → String
  | .ofNat magnitude => conventions.plusSign ++ toString magnitude
  | .negSucc magnitude => "-" ++ toString (magnitude + 1)

/-- Digits with the decimal point after the first of them and an exponent. -/
def placeExponent (conventions : Notation) (digits : List Char) (point : Int) : String :=
  let fraction := digits.drop 1
  let significand := String.ofList (digits.take 1) ++
    if fraction.isEmpty then "" else "." ++ String.ofList fraction
  significand ++ "e" ++ exponentText conventions (point - 1)

/-- A positive numeral in its notation. -/
def Numeral.text (conventions : Notation) (numeral : Numeral) : String :=
  let digits := (toString numeral.digits).toList
  let point := numeral.exponent + digits.length
  if conventions.positional point then
    placePoint conventions digits point
  else
    placeExponent conventions digits point

/-- The sign of a number as it is written. -/
def signText : UnpackedFloat.Sign → String
  | .negative => "-"
  | .positive => ""

/-- A number in its notation, given the digits of a normal significand after the first one and the
least exponent of its format. -/
def Notation.write (conventions : Notation) (normalBits : Nat) (leastExponent : Int) :
    UnpackedFloat → String
  | .notANumber => conventions.notANumber
  | .infinity .positive => conventions.infinity
  | .infinity .negative => conventions.negativeInfinity
  | .zero sign => signText sign ++ "0" ++ conventions.wholeTail
  | .finite sign significand exponent _ =>
    let interval := Interval.of significand exponent normalBits leastExponent
    signText sign ++ (interval.shortest conventions.tie).text conventions

/-- A double in its notation. -/
def Notation.double (conventions : Notation) (x : Float) : String :=
  conventions.write 52 (-1074) (Numeric.parts x)

/-- A single in its notation. -/
def Notation.single (conventions : Notation) (x : Float32) : String :=
  conventions.write 23 (-149) (Numeric.singleParts x)

/-- Plain numbers in messages: always positional, whole numbers without a point. -/
def plain : Notation where
  tie := .up
  positional _ := true
  wholeTail := ""
  plusSign := ""
  notANumber := "NaN"
  infinity := "inf"
  negativeInfinity := "-inf"

end Spectrum48.Decimal
