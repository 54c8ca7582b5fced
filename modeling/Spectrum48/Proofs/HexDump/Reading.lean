import Mathlib.Algebra.Order.Floor.Div
import Mathlib.Tactic.Ring
import Spectrum48.HexDump

/-!
# Reading memory dumps

The lines of a dump are told apart by their ends, and everything on a line has its own columns, on a
short last line too. So the bytes are read back from the columns of their digits alone, and there
are just those that the dump was made of.
-/

namespace Spectrum48

/-! ### Digits -/

namespace Text.Hex

/-- The value of a hexadecimal digit with letters in lower case. -/
def digitValue? (digit : Char) : Option Nat :=
  if '0' ≤ digit ∧ digit ≤ '9' then some (digit.toNat - '0'.toNat)
  else if 'a' ≤ digit ∧ digit ≤ 'f' then some (digit.toNat - 'a'.toNat + 10)
  else none

/-- The number that digits spell behind those of another number, the most significant one first. -/
def extended? (number : Nat) (digits : List Char) : Option Nat :=
  digits.foldlM (fun number digit => (digitValue? digit).map (16 * number + ·)) number

/-- The number that digits spell, the most significant one first. -/
def number? (digits : List Char) : Option Nat := extended? 0 digits

/-- The digit for a value has this value. -/
theorem digitValue?_lowerDigit {value : Nat} (small : value < 16) :
    digitValue? (lowerDigit value) = some value := by
  have all : ∀ value < 16, digitValue? (lowerDigit value) = some value := by
    decide
  exact all value small

/-- The first of some digits is the one of the highest place. -/
theorem nibbles_succ (width value : Nat) :
    nibbles (width + 1) value = value / 16 ^ width % 16 :: nibbles width value := by
  rw [nibbles, List.range_succ, List.reverse_append]
  rfl

/-- The digits of a value spell it behind those of another number, as far as they go. -/
theorem extended?_lower (number width value : Nat) :
    extended? number (lower width value) = some (number * 16 ^ width + value % 16 ^ width) := by
  induction width generalizing number with
  | zero => simp [extended?, lower, nibbles, Nat.mod_one]
  | succ width ih =>
    have digit : value / 16 ^ width % 16 < 16 := Nat.mod_lt _ (by decide)
    have split : value % 16 ^ (width + 1) =
        value % 16 ^ width + 16 ^ width * (value / 16 ^ width % 16) := by
      rw [Nat.pow_succ, Nat.mod_mul]
    rw [lower, nibbles_succ, List.map_cons, extended?, List.foldlM_cons,
      digitValue?_lowerDigit digit]
    refine (ih (16 * number + value / 16 ^ width % 16)).trans (congrArg some ?_)
    rw [split, Nat.pow_succ]
    ring

/-- The digits of a value spell it, if there are enough of them. -/
theorem number?_lower {width value : Nat} (fits : value < 16 ^ width) :
    number? (lower width value) = some value := by
  rw [number?, extended?_lower, Nat.zero_mul, Nat.zero_add, Nat.mod_eq_of_lt fits]

end Text.Hex

namespace HexDump

/-! ### Columns -/

/-- A line of a dump without its line end. -/
def body (address : Nat) (bytes : List UInt8) : List Char :=
  padRight digitColumns (digits address bytes) ++ [' '] ++ bytes.map glyph

/-- What a line of a dump shows of some bytes, column by column. -/
structure Shows (printed : List Char) (address : Nat) (bytes : List UInt8) : Prop where
  /-- There is a character for each byte from column 55 on, and nothing behind them. -/
  length : printed.length = 55 + bytes.length
  /-- The address stands in four digits, before a colon and a blank. -/
  address : printed.take 6 = Text.Hex.lower 4 address ++ [':', ' ']
  /-- Each byte has two digits in columns of its own, and a blank after them. -/
  digits : ∀ (place : Nat) (inside : place < bytes.length),
    (printed.drop (6 + 3 * place)).take 3 = Text.Hex.lower 2 bytes[place].toNat ++ [' ']
  /-- Where no byte has its digits there are blanks. -/
  blanks : ∀ column, 6 + 3 * bytes.length ≤ column → column < 55 → printed[column]? = some ' '
  /-- A byte that is printable is shown as the character it stands for, any other one as a full
  stop. -/
  characters : ∀ (place : Nat) (inside : place < bytes.length),
    (printed[55 + place]?).map Char.toNat =
      some (if 0x20 ≤ bytes[place].toNat ∧ bytes[place].toNat ≤ 0x7E then bytes[place].toNat
        else 0x2E)

/-- The number of the character that a byte is shown as. -/
theorem toNat_glyph (byte : UInt8) :
    (glyph byte).toNat =
      if 0x20 ≤ byte.toNat ∧ byte.toNat ≤ 0x7E then byte.toNat else 0x2E := by
  have all : ∀ bits : BitVec 8, (glyph (UInt8.ofBitVec bits)).toNat =
      if 0x20 ≤ bits.toNat ∧ bits.toNat ≤ 0x7E then bits.toNat else 0x2E := by
    decide
  exact all byte.toBitVec

/-- From the columns of a byte on there are its digits, a blank, and the digits of the bytes behind
it. -/
theorem drop_digits (address : Nat) {bytes : List UInt8} {place : Nat}
    (inside : place < bytes.length) :
    (digits address bytes).drop (6 + 3 * place) =
      Text.Hex.lower 2 bytes[place].toNat ++ [' '] ++
        (bytes.drop (place + 1)).flatMap fun byte => Text.Hex.lower 2 byte.toNat ++ [' '] := by
  have earlier : (digits address (bytes.take place)).length = 6 + 3 * place := by
    rw [length_digits, List.length_take, Nat.min_eq_left inside.le]
  have split : digits address bytes =
      digits address (bytes.take place) ++
        (bytes.drop place).flatMap fun byte => Text.Hex.lower 2 byte.toNat ++ [' '] := by
    rw [digits, digits, List.append_assoc _ _ (List.flatMap _ (bytes.drop place)),
      ← List.flatMap_append, List.take_append_drop]
  rw [split, List.drop_left' earlier, List.drop_eq_getElem_cons inside, List.flatMap_cons]

/-- The characters stand behind 55 columns, as long as the bytes fit on a line. -/
theorem body_eq {bytes : List UInt8} (few : bytes.length ≤ bytesPerLine) (address : Nat) :
    ∃ columns, body address bytes = columns ++ bytes.map glyph ∧ columns.length = 55 ∧
      columns = digits address bytes ++ List.replicate (49 - 3 * bytes.length) ' ' := by
  have length := length_digits address bytes
  simp only [bytesPerLine] at few
  refine ⟨padRight digitColumns (digits address bytes) ++ [' '], rfl, ?_, ?_⟩
  · rw [List.length_append, length_padRight, length, digitColumns, List.length_singleton]
    omega
  · have more : 49 - 3 * bytes.length = digitColumns - (digits address bytes).length + 1 := by
      rw [length, digitColumns]
      omega
    rw [padRight, more, List.replicate_succ', List.append_assoc]

/-- A line of a dump shows the bytes that it is made for. -/
theorem shows_body {bytes : List UInt8} (few : bytes.length ≤ bytesPerLine) (address : Nat) :
    Shows (body address bytes) address bytes := by
  obtain ⟨columns, whole, wide, padded⟩ := body_eq few address
  have digitsLength := length_digits address bytes
  refine ⟨?_, ?_, fun place inside => ?_, fun column behind before => ?_, fun place inside => ?_⟩
  · rw [whole, List.length_append, wide, List.length_map]
  · have head : (Text.Hex.lower 4 address ++ [':', ' ']).length = 6 := by
      rw [List.length_append, Text.Hex.length_lower]
      rfl
    rw [whole, padded, digits, List.append_assoc, List.append_assoc]
    exact List.take_left' head
  · have own : (Text.Hex.lower 2 bytes[place].toNat ++ [' ']).length = 3 := by
      rw [List.length_append, Text.Hex.length_lower]
      rfl
    rw [whole, padded, List.append_assoc, List.drop_append_of_le_length (by omega),
      drop_digits address inside, List.append_assoc (_ ++ [' '])]
    exact List.take_left' own
  · rw [whole, List.getElem?_append_left (by omega), padded,
      List.getElem?_append_right (by omega), List.getElem?_replicate, if_pos (by omega)]
  · rw [whole, List.getElem?_append_right (by omega), wide, Nat.add_sub_cancel_left,
      List.getElem?_map, List.getElem?_eq_getElem inside, Option.map_some, Option.map_some,
      toNat_glyph]

/-! ### Reading lines -/

/-- The bytes whose digits stand in columns, up to the first columns without any. -/
def readColumns? : (places : Nat) → (columns : List Char) → Option (List UInt8)
  | 0, _ => some []
  | places + 1, columns =>
    if columns.take 2 = [' ', ' '] then some []
    else do
      let value ← Text.Hex.number? (columns.take 2)
      let rest ← readColumns? places (columns.drop 3)
      return .ofNat value :: rest

/-- The bytes whose digits stand on a line. -/
def readLine? (printed : List Char) : Option (List UInt8) :=
  readColumns? bytesPerLine (printed.drop 6)

/-- The lines of a text whose lines have ends. -/
def linesOf (text : String) : List (List Char) := (text.toList.splitOn '\n').dropLast

/-- The bytes whose digits stand on the lines of a text. -/
def read? (text : String) : Option (List UInt8) :=
  ((linesOf text).mapM readLine?).map List.flatten

/-- The digits of a byte are not blank. -/
theorem lower_two_ne_blank (byte : UInt8) : Text.Hex.lower 2 byte.toNat ≠ [' ', ' '] := by
  intro blank
  have spelt : Text.Hex.number? (Text.Hex.lower 2 byte.toNat) = some byte.toNat :=
    Text.Hex.number?_lower byte.toNat_lt
  rw [blank] at spelt
  cases spelt

/-- Two characters in a row. -/
theorem take_two_drop {printed : List Char} {column : Nat} {first second : Char}
    (one : printed[column]? = some first) (next : printed[column + 1]? = some second) :
    (printed.drop column).take 2 = [first, second] := by
  obtain ⟨inside, rfl⟩ := List.getElem?_eq_some_iff.1 one
  obtain ⟨inside', rfl⟩ := List.getElem?_eq_some_iff.1 next
  rw [List.drop_eq_getElem_cons inside, List.drop_eq_getElem_cons inside']
  rfl

/-- From any place on, the bytes that are left are read from the columns that are left. -/
theorem Shows.readColumns? {printed : List Char} {address : Nat} {bytes : List UInt8}
    (shows_ : Shows printed address bytes) (few : bytes.length ≤ bytesPerLine) {places place : Nat}
    (total : place + places = bytesPerLine) :
    HexDump.readColumns? places (printed.drop (6 + 3 * place)) = some (bytes.drop place) := by
  simp only [bytesPerLine] at few total
  induction places generalizing place with
  | zero => rw [HexDump.readColumns?, List.drop_of_length_le (by omega)]
  | succ places ih =>
    rw [HexDump.readColumns?]
    by_cases inside : place < bytes.length
    · have columns : (printed.drop (6 + 3 * place)).take 2 =
          Text.Hex.lower 2 bytes[place].toNat := by
        have both := congrArg (List.take 2) (shows_.digits place inside)
        rw [List.take_take, List.take_left' (Text.Hex.length_lower 2 _)] at both
        exact both
      have rest : (printed.drop (6 + 3 * place)).drop 3 = printed.drop (6 + 3 * (place + 1)) := by
        rw [List.drop_drop]
        rfl
      rw [columns, if_neg (lower_two_ne_blank _), rest, ih (by omega),
        Text.Hex.number?_lower bytes[place].toNat_lt, List.drop_eq_getElem_cons inside]
      simp
    · have blank : (printed.drop (6 + 3 * place)).take 2 = [' ', ' '] :=
        take_two_drop (shows_.blanks _ (by omega) (by omega))
          (shows_.blanks _ (by omega) (by omega))
      rw [if_pos blank, List.drop_of_length_le (by omega)]

/-- The bytes that a line shows are read from it. -/
theorem Shows.readLine? {printed : List Char} {address : Nat} {bytes : List UInt8}
    (shows_ : Shows printed address bytes) (few : bytes.length ≤ bytesPerLine) :
    HexDump.readLine? printed = some bytes :=
  shows_.readColumns? few (Nat.zero_add bytesPerLine)

/-! ### Reading dumps -/

/-- Texts with line ends are the lines that they were made of. -/
theorem splitOn_lines {lines : List (List Char)} (whole : ∀ line ∈ lines, '\n' ∉ line) :
    (lines.flatMap (· ++ ['\n'])).splitOn '\n' = lines ++ [[]] := by
  induction lines with
  | nil => rfl
  | cons line rest ih =>
    obtain ⟨first, others⟩ := List.forall_mem_cons.1 whole
    rw [List.flatMap_cons, List.append_assoc, List.singleton_append,
      List.splitOn_append_cons_self_of_not_mem first, ih others]
    rfl

/-- There is no line end within a line of a dump. -/
theorem newline_notMem_body (address : Nat) (bytes : List UInt8) :
    '\n' ∉ body address bytes := by
  have digit (width value : Nat) : '\n' ∉ Text.Hex.lower width value := by
    intro member
    obtain ⟨nibble, listed, same⟩ := List.mem_map.1 member
    obtain ⟨place, -, rfl⟩ := List.mem_map.1 listed
    have all : ∀ value < 16, Text.Hex.lowerDigit value ≠ '\n' := by
      decide
    exact all _ (Nat.mod_lt _ (by decide)) same
  have character (byte : UInt8) : glyph byte ≠ '\n' := by
    intro same
    have number := toNat_glyph byte
    rw [same] at number
    change 10 = _ at number
    split at number <;> omega
  simp [body, padRight, digits, digit, character]

/-- The bytes of the line with a number. -/
def rowOf (bytes : Array UInt8) (first last : UInt16) (number : Nat) : List UInt8 :=
  let address := first.toNat + bytesPerLine * number
  (bytes.extract address (min (address + bytesPerLine) (stop bytes.size last))).toList

/-- How many lines a dump has. -/
def lineCount (bytes : Array UInt8) (first last : UInt16) : Nat :=
  (stop bytes.size last - first.toNat + (bytesPerLine - 1)) / bytesPerLine

/-- The lines of a dump without their ends. -/
def bodies (bytes : Array UInt8) (first last : UInt16) : List (List Char) :=
  (List.range (lineCount bytes first last)).map fun number =>
    body (first.toNat + bytesPerLine * number) (rowOf bytes first last number)

/-- A dump is its lines, each with an end. -/
theorem toList_text (bytes : Array UInt8) (first last : UInt16) :
    (text bytes first last).toList = (bodies bytes first last).flatMap (· ++ ['\n']) := by
  rw [text, String.toList_ofList, bodies, lines, List.flatMap_map, ← List.flatMap_def]
  rfl

/-- The lines of a dump are found again. -/
theorem linesOf_text (bytes : Array UInt8) (first last : UInt16) :
    linesOf (text bytes first last) = bodies bytes first last := by
  have whole : ∀ line ∈ bodies bytes first last, '\n' ∉ line := by
    intro line member
    obtain ⟨index, -, rfl⟩ := List.mem_map.1 member
    exact newline_notMem_body _ _
  rw [linesOf, toList_text, splitOn_lines whole, List.dropLast_concat]

/-- The bytes of a line are sixteen of the bytes shown, or what is left of them. -/
theorem rowOf_eq (bytes : Array UInt8) (first last : UInt16) (number : Nat) :
    rowOf bytes first last number =
      ((bytes.extract first.toNat (stop bytes.size last)).toList.drop
        (bytesPerLine * number)).take bytesPerLine := by
  rw [rowOf, Array.toList_extract, Array.toList_extract, List.extract_eq_take_drop,
    List.extract_eq_take_drop, List.drop_take, List.drop_drop, List.take_take]
  congr 1
  omega

/-- No line shows more bytes than a full one. -/
theorem length_rowOf_le (bytes : Array UInt8) (first last : UInt16) (number : Nat) :
    (rowOf bytes first last number).length ≤ bytesPerLine := by
  rw [rowOf_eq, List.length_take]
  exact Nat.min_le_left _ _

/-- Pieces of one length, one after the other, are the list as far as they reach. -/
theorem flatMap_pieces {α : Type} (entries : List α) (length count : Nat) :
    (List.range count).flatMap (fun number => (entries.drop (length * number)).take length) =
      entries.take (length * count) := by
  induction count with
  | zero => simp
  | succ count ih =>
    rw [List.range_succ, List.flatMap_append, ih, List.flatMap_singleton, Nat.mul_succ,
      List.take_add]

/-- The bytes of all lines, one line after the other, are the bytes shown. -/
theorem flatMap_rowOf (bytes : Array UInt8) (first last : UInt16) :
    (List.range (lineCount bytes first last)).flatMap (rowOf bytes first last) =
      (bytes.extract first.toNat (stop bytes.size last)).toList := by
  rw [funext (rowOf_eq bytes first last), flatMap_pieces]
  apply List.take_of_length_le
  rw [Array.length_toList, Array.size_extract]
  simp only [lineCount, stop, bytesPerLine]
  omega

/-- Every line of a dump shows its bytes. -/
theorem shows_rowOf (bytes : Array UInt8) (first last : UInt16) (number : Nat) :
    Shows (body (first.toNat + bytesPerLine * number) (rowOf bytes first last number))
      (first.toNat + bytesPerLine * number) (rowOf bytes first last number) :=
  shows_body (length_rowOf_le bytes first last number) _

/-- The bytes shown are read back from a dump. -/
theorem read?_text (bytes : Array UInt8) (first last : UInt16) :
    read? (text bytes first last) =
      some (bytes.extract first.toNat (stop bytes.size last)).toList := by
  have readable (number : Nat) :
      readLine? (body (first.toNat + bytesPerLine * number) (rowOf bytes first last number)) =
        pure (rowOf bytes first last number) :=
    (shows_rowOf bytes first last number).readLine? (length_rowOf_le bytes first last number)
  rw [read?, linesOf_text, bodies, List.mapM_map]
  simp only [Function.comp_def, readable, List.mapM_pure]
  rw [Option.pure_def, Option.map_some, ← List.flatMap_def, flatMap_rowOf]

/-- The addresses of lines have four digits. -/
theorem address_lt {bytes : Array UInt8} {first last : UInt16} {number : Nat}
    (inside : number < lineCount bytes first last) :
    first.toNat + bytesPerLine * number < 16 ^ 4 := by
  have bound := last.toNat_lt
  simp only [lineCount, stop, bytesPerLine] at *
  omega

/-- A dump of the bytes from `first` to `last`, both included, but no further than there are bytes,
has a line for every sixteen bytes and one for what is left. Each line has an end and shows its
bytes in the columns that are theirs, behind its address, which is read back from its digits. From
the digits of all lines just the bytes shown are read back, and there is no line only if there are
no bytes to show. -/
theorem text_shows (bytes : Array UInt8) (first last : UInt16) :
    let stop := min (last.toNat + 1) bytes.size
    let lines := linesOf (text bytes first last)
    (text bytes first last = "" ↔ stop ≤ first.toNat) ∧
    (text bytes first last).toList = lines.flatMap (· ++ ['\n']) ∧
    lines.length = (stop - first.toNat) ⌈/⌉ 16 ∧
    (∀ (number : Nat) (inside : number < lines.length),
      let address := first.toNat + 16 * number
      Shows lines[number] address (bytes.extract address (min (address + 16) stop)).toList ∧
        Text.Hex.number? (lines[number].take 4) = some address) ∧
    read? (text bytes first last) = some (bytes.extract first.toNat stop).toList := by
  intro stop lines
  have found : lines = bodies bytes first last := linesOf_text bytes first last
  have count : lines.length = lineCount bytes first last := by
    rw [found, bodies, List.length_map, List.length_range]
  have ceiling : lines.length = (stop - first.toNat) ⌈/⌉ 16 := by
    rw [count, Nat.ceilDiv_eq_add_pred_div]
    rfl
  have whole : (text bytes first last).toList = lines.flatMap (· ++ ['\n']) :=
    found ▸ toList_text bytes first last
  refine ⟨⟨fun empty => ?_, fun nothing => ?_⟩, whole, ceiling, fun number inside => ?_,
    read?_text bytes first last⟩
  · have none_left : lines.length = 0 := by
      simp only [lines, empty]
      rfl
    rw [count] at none_left
    simp only [lineCount, HexDump.stop, bytesPerLine] at none_left
    omega
  · have none_left : lines = [] := by
      apply List.eq_nil_of_length_eq_zero
      rw [count]
      simp only [lineCount, HexDump.stop, bytesPerLine]
      omega
    rw [none_left] at whole
    exact String.toList_inj.1 whole
  · have line : lines[number] =
        body (first.toNat + bytesPerLine * number) (rowOf bytes first last number) := by
      simp only [found, bodies, List.getElem_map, List.getElem_range]
    have fits := address_lt (count ▸ inside)
    have shown := shows_rowOf bytes first last number
    rw [← line] at shown
    have four := congrArg (List.take 4) shown.address
    rw [List.take_take, List.take_left' (Text.Hex.length_lower 4 _)] at four
    exact ⟨shown, (congrArg Text.Hex.number? four).trans (Text.Hex.number?_lower fits)⟩

/-- A full memory of zeros but for its last byte. -/
def topBytes : Array UInt8 := (Array.replicate 0xFFFF 0).push 0x5A

/-- The last bytes of a full memory of zeros but for its last byte. -/
theorem extract_topBytes {start : Nat} (inside : start ≤ 0xFFFF) :
    (topBytes.extract start 0x10000).toList = List.replicate (0xFFFF - start) 0 ++ [0x5A] := by
  rw [topBytes, Array.toList_extract, List.extract_eq_take_drop, Array.toList_push,
    Array.toList_replicate,
    List.drop_append_of_le_length (by rw [List.length_replicate]; exact inside),
    List.drop_replicate]
  apply List.take_of_length_le
  rw [List.length_append, List.length_replicate, List.length_singleton]
  omega

/-- The last bytes of a full memory are shown on a full line and a short one, which ends with the
byte at the last address. -/
theorem text_shows_of_topBytes :
    let lines := linesOf (text topBytes 0xFFEA 0xFFFF)
    lines.length = 2 ∧ (∃ inside : 1 < lines.length, Shows lines[1] 0xFFFA [0, 0, 0, 0, 0, 0x5A]) ∧
      read? (text topBytes 0xFFEA 0xFFFF) = some (List.replicate 21 0 ++ [0x5A]) := by
  intro lines
  have size : topBytes.size = 0x10000 := by
    rw [topBytes, Array.size_push, Array.size_replicate]
  have all := text_shows topBytes 0xFFEA 0xFFFF
  rw [size] at all
  obtain ⟨-, -, count, shown, read⟩ := all
  have two : lines.length = 2 := count
  refine ⟨two, ⟨by omega, ?_⟩, ?_⟩
  · have second := (shown 1 (by rw [count]; decide)).1
    change Shows lines[1] 0xFFFA (topBytes.extract 0xFFFA 0x10000).toList at second
    rw [extract_topBytes (by decide)] at second
    exact second
  · exact read.trans (congrArg some (extract_topBytes (by decide)))

end HexDump

end Spectrum48
