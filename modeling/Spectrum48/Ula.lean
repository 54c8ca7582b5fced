import Spectrum48.Beeper.Basic
import Spectrum48.Keyboard.Matrix

/-!
# The picture and port circuit

The circuit answers on even ports: reading gives the keyboard, writing sets the border colour with
the lowest three bits and the speaker with bit four.
-/

namespace Spectrum48

/-- The state of the circuit. -/
structure Ula (τ : Type) where
  /-- The keyboard. -/
  keyboard : Keyboard
  /-- The border colour. -/
  border : UInt8
  /-- Whether the speaker bit is set. -/
  speaker : Bool
  /-- The beeper that the speaker bit drives. -/
  beeper : Beeper τ

namespace Ula

variable {τ : Type} [Scalar τ]

/-- The colour that a byte sets as border. -/
def borderOf (value : UInt8) : UInt8 := value &&& 0x07

/-- The speaker bit of a byte. -/
def speakerOf (value : UInt8) : Bool := value &&& 0x10 != 0

/-- Whether the circuit answers on a port. -/
def answersOn (port : UInt16) : Bool := port &&& 1 == 0

/-- A circuit with no key pressed and the speaker off. -/
def ofBeeper (beeper : Beeper τ) (border : UInt8) : Ula τ where
  keyboard := .standard
  border := borderOf border
  speaker := false
  beeper := beeper

/-- The byte that a port reads. -/
def read (ula : Ula τ) (port : UInt16) : UInt8 :=
  if answersOn port then ula.keyboard.query port else 0

/-- Set the border colour. -/
def setBorder (ula : Ula τ) (value : UInt8) : Ula τ := { ula with border := borderOf value }

/-- Set the speaker bit at an instant; the beeper is told when the bit changes. -/
def setSpeaker (ula : Ula τ) (bit : Bool) (time : τ) : Ula τ :=
  if ula.speaker = bit then ula
  else { ula with speaker := bit, beeper := ula.beeper.notify time }

/-- Write a byte to a port at an instant. -/
def write (ula : Ula τ) (port : UInt16) (value : UInt8) (time : τ) : Ula τ :=
  if answersOn port then (ula.setBorder value).setSpeaker (speakerOf value) time else ula

/-- Press or release the key of a host code, and whether the code is known. -/
def setCode (ula : Ula τ) (code : UInt32) (down : Bool) : Bool × Ula τ :=
  let (known, keyboard) := ula.keyboard.setCode code down
  (known, { ula with keyboard := keyboard })

end Ula

end Spectrum48
