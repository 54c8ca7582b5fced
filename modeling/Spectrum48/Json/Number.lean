import Spectrum48.Json.Text
import Spectrum48.Numeric.Binary

/-!
# Numbers

A number without fraction and exponent is an integer if it fits into 64 bits. Any other number is
a double: as many leading digits as fit into 64 bits make a significand, which is converted to a
double once and then multiplied with, or divided by, powers of ten. The result can be a unit in the
last place away from the nearest double.
-/

namespace Spectrum48.Json

/-- The value of a number. -/
inductive Number where
  /-- A natural number below `2 ^ 64`. -/
  | natural (value : Nat)
  /-- The negative of a positive number up to `2 ^ 63`. -/
  | negative (magnitude : Nat)
  /-- Any other number. -/
  | double (value : Float)

/-- Integers from here on are doubles. -/
def naturalLimit : Nat := 0x10000000000000000

/-- Add digits to a significand as long as it fits into 64 bits; the digits that do not fit are
returned. -/
def absorb (significand : Nat) : List Nat → Nat × List Nat
  | [] => (significand, [])
  | digit :: digits =>
    let longer := 10 * significand + digit
    if longer < naturalLimit then absorb longer digits else (significand, digit :: digits)

/-- The greatest power of ten that is used in one step. -/
def greatestPower : Nat := 308

/-- A power of ten as a double. -/
def powerOfTen (exponent : Nat) : Float := Float.ofScientific 1 false exponent

/-- A double times a power of ten, in steps of at most `10 ^ 308`; nothing when the result is too
large. -/
def scale (x : Float) (exponent : Int) : Option Float :=
  if exponent.natAbs ≤ greatestPower then
    if 0 ≤ exponent then
      let product := x * powerOfTen exponent.natAbs
      if product.isInf then none else some product
    else
      some (x / powerOfTen exponent.natAbs)
  else if x == 0 then some x
  else if 0 ≤ exponent then none
  else scale (x / powerOfTen greatestPower) (exponent + greatestPower)
  termination_by (-exponent).toNat
  decreasing_by simp only [greatestPower] at *; omega

/-- A significand times a power of ten as a number. -/
def scaled (isNegative : Bool) (significand : Nat) (exponent : Int) : Except Problem Number :=
  match scale (Float.ofNat significand) exponent with
  | none => .error .malformed
  | some x => .ok (.double (if isNegative then -x else x))

/-- A number without fraction and exponent. Zero keeps its sign as a double. -/
def integer (isNegative : Bool) (value : Nat) : Number :=
  if !isNegative then .natural value
  else if 0 < value ∧ value ≤ 0x8000000000000000 then .negative value
  else .double (-Float.ofNat value)

/-- The sign of an exponent, which may be missing. -/
def exponentSign : (text : List Char) → Bool × Rest text
  | '+' :: _ => (false, .tail)
  | '-' :: _ => (true, .tail)
  | text => (false, .all text)

/-- Read an exponent from behind its letter. -/
def exponent (text : List Char) : Except Problem (Int × Rest text) :=
  let (isNegative, ⟨text', signed⟩) := exponentSign text
  match takeDigits text' with
  | ([], rest) => .error (unexpected rest.val)
  | (digits, rest) =>
    let magnitude : Int := (digits.foldl (fun value digit => 10 * value + digit) 0 : Nat)
    .ok (if isNegative then -magnitude else magnitude, rest.within signed)

/-- Read an exponent, if there is one, and finish the number. -/
def finish (isNegative : Bool) (significand : Nat) (shift : Int) (text : List Char) :
    Except Problem (Number × Rest text) :=
  match text with
  | 'e' :: text | 'E' :: text => do
    let (power, rest) ← exponent text
    let number ← scaled isNegative significand (shift + power)
    return (number, rest.behind)
  | text => do
    let number ← scaled isNegative significand shift
    return (number, .all text)

/-- Whether an exponent follows. -/
def hasExponent : List Char → Bool
  | 'e' :: _ | 'E' :: _ => true
  | _ => false

/-- Read a number without its sign. -/
def unsigned (isNegative : Bool) (text : List Char) : Except Problem (Number × Rest text) :=
  match takeDigits text with
  | ([], rest) => .error (unexpected rest.val)
  | (0 :: _ :: _, _) => .error .malformed
  | (digits, rest) =>
    let (significand, beyond) := absorb 0 digits
    match rest with
    | ⟨'.' :: fraction, left⟩ =>
      match takeDigits fraction with
      | ([], rest) => .error (unexpected rest.val)
      | (places, ⟨rest, right⟩) =>
        let (significand, unread) := absorb significand places
        let shift : Int := beyond.length - (places.length - unread.length : Nat)
        (finish isNegative significand shift rest).map fun (number, rest) =>
          (number, rest.within (by simp only [List.length_cons] at left; omega))
    | ⟨rest, left⟩ =>
      if beyond.isEmpty && !hasExponent rest then
        .ok (integer isNegative significand, ⟨rest, left⟩)
      else
        (finish isNegative significand beyond.length rest).map fun (number, rest) =>
          (number, rest.within left)

/-- Read a number. -/
def number : (text : List Char) → Except Problem (Number × Rest text)
  | '-' :: text =>
    (unsigned true text).map fun (number, rest) => (number, rest.behind)
  | text => unsigned false text

/-- Pass over at least one digit. -/
def skipDigits (text : List Char) : Except Problem (Rest text) :=
  match takeDigits text with
  | ([], _) => .error .malformed
  | (_, rest) => .ok rest

/-- Pass over an exponent, if there is one. -/
def skipExponent (text : List Char) : Except Problem (Rest text) :=
  match text with
  | 'e' :: text | 'E' :: text =>
    let (_, ⟨text, signed⟩) := exponentSign text
    (skipDigits text).map fun rest => rest.within (Nat.le_succ_of_le signed)
  | text => .ok (.all text)

/-- Pass over a fraction, if there is one. -/
def skipFraction (text : List Char) : Except Problem (Rest text) :=
  match text with
  | '.' :: text => (skipDigits text).map Rest.behind
  | text => .ok (.all text)

/-- Pass over a number from behind its first digit. The size of the number does not matter. -/
def skipNumberAfter (first : Char) (text : List Char) : Except Problem (Rest text) :=
  let (digits, whole) := takeDigits text
  if first == '0' && !digits.isEmpty then .error .malformed
  else do
    let fraction ← skipFraction whole.val
    let power ← skipExponent fraction.val
    return whole.andThen (fraction.andThen power)

/-- Pass over a number from behind its minus sign. A number that is cut off is malformed. -/
def skipNegative : (text : List Char) → Except Problem (Rest text)
  | [] => .error .malformed
  | first :: text =>
    if first.isDigit then
      (skipNumberAfter first text).map Rest.behind
    else .error .malformed

end Spectrum48.Json
