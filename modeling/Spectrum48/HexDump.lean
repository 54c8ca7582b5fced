import Spectrum48.Text.Hex

/-!
# Memory dumps

A dump shows an inclusive range of addresses, sixteen bytes to a line. Each line holds the address
of its first byte in four digits, the bytes in two digits each, blanks up to column 54, and from
column 55 the same bytes as characters. The range is clipped to the bytes that exist.
-/

namespace Spectrum48.HexDump

/-- Bytes shown on a full line. -/
def bytesPerLine : Nat := 16

/-- Columns kept for the address and the digits of a line. -/
def digitColumns : Nat := 54

/-- Printable ASCII characters, the blank included, show as themselves; any other byte shows as a
full stop. -/
def glyph (byte : UInt8) : Char :=
  if 0x20 ≤ byte ∧ byte ≤ 0x7E then Char.ofNat byte.toNat else '.'

/-- Address and digits of a line, before padding. -/
def digits (address : Nat) (bytes : List UInt8) : List Char :=
  Text.Hex.lower 4 address ++ [':', ' '] ++
    bytes.flatMap fun byte => Text.Hex.lower 2 byte.toNat ++ [' ']

/-- Text extended with blanks on the right to at least `width` characters. -/
def padRight (width : Nat) (text : List Char) : List Char :=
  text ++ List.replicate (width - text.length) ' '

/-- One line of a dump, with its line end. -/
def line (address : Nat) (bytes : List UInt8) : List Char :=
  padRight digitColumns (digits address bytes) ++ [' '] ++ bytes.map glyph ++ ['\n']

/-- The first index past a range that ends at `last`, clipped to `size` bytes. -/
def stop (size : Nat) (last : UInt16) : Nat := min (last.toNat + 1) size

/-- The lines of the dump of the bytes from `first` to `last`, both included. -/
def lines (bytes : Array UInt8) (first last : UInt16) : List (List Char) :=
  let start := first.toNat
  let stop := stop bytes.size last
  (List.range ((stop - start + (bytesPerLine - 1)) / bytesPerLine)).map fun index =>
    let address := start + bytesPerLine * index
    line address (bytes.extract address (min (address + bytesPerLine) stop)).toList

/-- The dump of the bytes from `first` to `last`, both included; empty when no byte lies there. -/
def text (bytes : Array UInt8) (first last : UInt16) : String :=
  String.ofList (lines bytes first last).flatten

/-- Padding never cuts text off and reaches the width asked for. -/
theorem length_padRight (width : Nat) (text : List Char) :
    (padRight width text).length = max width text.length := by
  simp only [padRight, List.length_append, List.length_replicate]
  omega

/-- The digits of a line take three columns a byte after the six of the address. -/
theorem length_digits (address : Nat) (bytes : List UInt8) :
    (digits address bytes).length = 6 + 3 * bytes.length := by
  simp only [digits, List.length_append, List.length_flatMap, Text.Hex.length_lower,
    List.length_cons, List.length_nil]
  induction bytes with
  | nil => rfl
  | cons byte rest ih => simp only [List.map_cons, List.sum_cons, List.length_cons]; omega

end Spectrum48.HexDump
