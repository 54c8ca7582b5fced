import Spectrum48.Keyboard.Key

/-!
# The keyboard matrix

Eight half-row registers in which a low bit is a pressed key, and the host codes that stand for
keys. Reading a port gives the conjunction of all half-rows that the port selects, so a key that
is down in any of them shows.
-/

namespace Spectrum48

/-- The state of the keyboard. -/
structure Keyboard where
  /-- Half-row registers; a pressed key has its bit clear. -/
  rows : Vector UInt8 8
  /-- Host codes and the keys that they stand for; a later entry for a code replaces an earlier
  one. -/
  mapping : List (UInt32 × Key)
  deriving DecidableEq, Repr

namespace Keyboard

/-- Half-row registers with no key pressed. -/
def released : Vector UInt8 8 := Vector.replicate 8 0xFF

/-- A keyboard with no key pressed. -/
def ofMapping (mapping : List (UInt32 × Key)) : Keyboard := ⟨released, mapping⟩

/-- The usual host codes of the keys. -/
def standardMapping : List (UInt32 × Key) :=
  [(16, .capsShift), (90, .z), (88, .x), (67, .c), (86, .v),
   (65, .a), (83, .s), (68, .d), (70, .f), (71, .g),
   (81, .q), (87, .w), (69, .e), (82, .r), (84, .t),
   (49, .d1), (50, .d2), (51, .d3), (52, .d4), (53, .d5),
   (48, .d0), (57, .d9), (56, .d8), (55, .d7), (54, .d6),
   (80, .p), (79, .o), (73, .i), (85, .u), (89, .y),
   (13, .enter), (76, .l), (75, .k), (74, .j), (72, .h),
   (32, .space), (17, .symbolShift), (77, .m), (78, .n), (66, .b)]

/-- A keyboard with the usual host codes. -/
def standard : Keyboard := ofMapping standardMapping

/-- The key that a host code stands for. -/
def keyOf? (keyboard : Keyboard) (code : UInt32) : Option Key :=
  keyboard.mapping.reverse.lookup code

/-- Press or release one key. -/
def setKey (keyboard : Keyboard) (key : Key) (down : Bool) : Keyboard :=
  let register := keyboard.rows[key.row]
  let register := if down then register &&& ~~~key.mask else register ||| key.mask
  { keyboard with rows := keyboard.rows.set key.row register }

/-- Press or release the key of a host code, and whether the code is known. -/
def setCode (keyboard : Keyboard) (code : UInt32) (down : Bool) : Bool × Keyboard :=
  match keyboard.keyOf? code with
  | some key => (true, keyboard.setKey key down)
  | none => (false, keyboard)

/-- Press the key of a host code. -/
def keyDown (keyboard : Keyboard) (code : UInt32) : Bool × Keyboard := keyboard.setCode code true

/-- Release the key of a host code. -/
def keyUp (keyboard : Keyboard) (code : UInt32) : Bool × Keyboard := keyboard.setCode code false

/-- Release all keys. -/
def releaseAll (keyboard : Keyboard) : Keyboard := { keyboard with rows := released }

/-- The register of a half-row; there are eight. -/
def row? (keyboard : Keyboard) (index : Nat) : Option UInt8 := keyboard.rows[index]?

/-- The byte that a port reads: the conjunction of the half-rows that it selects. -/
def query (keyboard : Keyboard) (port : UInt16) : UInt8 :=
  (List.finRange 8).foldl
    (fun answer row =>
      if HalfRow.answers row port then answer &&& keyboard.rows[row] else answer)
    0xFF

/-- An unknown code changes nothing. -/
theorem setCode_of_keyOf?_eq_none {keyboard : Keyboard} {code : UInt32} (down : Bool)
    (unknown : keyboard.keyOf? code = none) : keyboard.setCode code down = (false, keyboard) := by
  simp [setCode, unknown]

/-- A known code acts on its key. -/
theorem setCode_of_keyOf?_eq_some {keyboard : Keyboard} {code : UInt32} {key : Key} (down : Bool)
    (known : keyboard.keyOf? code = some key) :
    keyboard.setCode code down = (true, keyboard.setKey key down) := by
  simp [setCode, known]

/-- Pressing and releasing keys leaves the host codes alone. -/
theorem mapping_setKey (keyboard : Keyboard) (key : Key) (down : Bool) :
    (keyboard.setKey key down).mapping = keyboard.mapping := rfl

end Keyboard

end Spectrum48
