/-!
# The forty keys

The keys in matrix order: eight half-rows of five keys, each half-row listed from its outermost
key inwards. The position of a key in this order fixes its half-row, its bit there, and the port
that reads it.
-/

namespace Spectrum48

/-- A key of the keyboard. -/
inductive Key where
  | capsShift | z | x | c | v
  | a | s | d | f | g
  | q | w | e | r | t
  | d1 | d2 | d3 | d4 | d5
  | d0 | d9 | d8 | d7 | d6
  | p | o | i | u | y
  | enter | l | k | j | h
  | space | symbolShift | m | n | b
  deriving DecidableEq, Repr

namespace Key

/-- The keys in matrix order. -/
def all : List Key :=
  [capsShift, z, x, c, v, a, s, d, f, g, q, w, e, r, t, d1, d2, d3, d4, d5,
   d0, d9, d8, d7, d6, p, o, i, u, y, enter, l, k, j, h, space, symbolShift, m, n, b]

/-- The place of a key in matrix order. -/
def index (key : Key) : Nat := key.ctorIdx

/-- There are forty places. -/
theorem index_lt (key : Key) : key.index < 40 := by cases key <;> decide

/-- Every key stands in the list at its place. -/
theorem getElem?_all_index (key : Key) : all[key.index]? = some key := by cases key <;> rfl

/-- A key is known by its place. -/
theorem index_inj {key other : Key} : key.index = other.index ↔ key = other := by
  constructor
  · intro same
    have h := getElem?_all_index key
    rw [same, getElem?_all_index] at h
    exact (Option.some.inj h).symm
  · rintro rfl
    rfl

/-- The half-row of a key. -/
def row (key : Key) : Fin 8 := ⟨key.index / 5, by have := key.index_lt; omega⟩

/-- The bit of a key in its half-row. -/
def column (key : Key) : Fin 5 := ⟨key.index % 5, by omega⟩

/-- A half-row and a bit determine the key. -/
theorem eq_of_row_of_column {key other : Key} (sameRow : key.row = other.row)
    (sameColumn : key.column = other.column) : key = other := by
  have hRow := congrArg Fin.val sameRow
  have hColumn := congrArg Fin.val sameColumn
  simp only [row, column] at hRow hColumn
  exact index_inj.1 (by omega)

/-- The byte in which only the key's own bit is set. -/
def mask (key : Key) : UInt8 := 1 <<< UInt8.ofNat key.column

/-- The name of a key. -/
def name : Key → String
  | capsShift => "CapsShift" | z => "Z" | x => "X" | c => "C" | v => "V"
  | a => "A" | s => "S" | d => "D" | f => "F" | g => "G"
  | q => "Q" | w => "W" | e => "E" | r => "R" | t => "T"
  | d1 => "D1" | d2 => "D2" | d3 => "D3" | d4 => "D4" | d5 => "D5"
  | d0 => "D0" | d9 => "D9" | d8 => "D8" | d7 => "D7" | d6 => "D6"
  | p => "P" | o => "O" | i => "I" | u => "U" | y => "Y"
  | enter => "Enter" | l => "L" | k => "K" | j => "J" | h => "H"
  | space => "Space" | symbolShift => "SymbolShift" | m => "M" | n => "N" | b => "B"

/-- The key with a given name. -/
def ofName? (text : String) : Option Key := all.find? fun key => key.name == text

end Key

namespace HalfRow

/-- The port of a half-row: the address line of the row is low, and so is the lowest line, which
selects the keyboard. -/
def port (row : Fin 8) : UInt16 := (0xFFFE : UInt16) ^^^ ((0x0100 : UInt16) <<< UInt16.ofNat row)

/-- A port reads a half-row when some high address line is low in both of them. -/
def answers (row : Fin 8) (asked : UInt16) : Bool :=
  ~~~(port row ||| asked) &&& (0xFF00 : UInt16) != 0

end HalfRow

/-- The port that reads the key's half-row alone. -/
def Key.port (key : Key) : UInt16 := HalfRow.port key.row

end Spectrum48
