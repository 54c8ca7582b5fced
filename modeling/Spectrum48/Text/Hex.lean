/-!
# Hexadecimal digits

Numbers written with a fixed count of hexadecimal digits, most significant digit first. A number
that needs more digits than the width is written modulo `16 ^ width`; the callers pass bytes with
width two and words with width four, which always fit.
-/

namespace Spectrum48.Text.Hex

/-- The hexadecimal digit for a value below sixteen, with letters in lower case. -/
def lowerDigit (value : Nat) : Char := Nat.digitChar value

/-- The hexadecimal digit for a value below sixteen, with letters in upper case. -/
def upperDigit (value : Nat) : Char := (Nat.digitChar value).toUpper

/-- The last `width` base-sixteen digits of `value`, the most significant one first. -/
def nibbles (width value : Nat) : List Nat :=
  (List.range width).reverse.map fun place => value / Nat.pow 16 place % 16

/-- A value in exactly `width` lower-case digits. -/
def lower (width value : Nat) : List Char := (nibbles width value).map lowerDigit

/-- A value in exactly `width` upper-case digits. -/
def upper (width value : Nat) : List Char := (nibbles width value).map upperDigit

/-- A value has exactly as many digits as asked for. -/
theorem length_nibbles (width value : Nat) : (nibbles width value).length = width := by
  simp [nibbles]

/-- Lower-case text has exactly the width asked for. -/
theorem length_lower (width value : Nat) : (lower width value).length = width := by
  simp [lower, length_nibbles]

/-- Upper-case text has exactly the width asked for. -/
theorem length_upper (width value : Nat) : (upper width value).length = width := by
  simp [upper, length_nibbles]

/-- Two digits determine a byte: the high nibble comes first. -/
theorem nibbles_two (value : Nat) : nibbles 2 value = [value / 16 % 16, value % 16] := by
  simp [nibbles, List.range_succ]

end Spectrum48.Text.Hex
