import Spectrum48.Text.Hex

/-!
# The register file

The registers of the processor and their text for debugging.
-/

namespace Spectrum48

/-- One bank of the eight-bit registers. -/
structure RegisterBank where
  a : UInt8
  f : UInt8
  b : UInt8
  c : UInt8
  d : UInt8
  e : UInt8
  h : UInt8
  l : UInt8
  deriving DecidableEq, Repr

namespace RegisterBank

/-- All registers zero. -/
def zero : RegisterBank := ⟨0, 0, 0, 0, 0, 0, 0, 0⟩

end RegisterBank

/-- A word of two bytes. -/
def wordOf (high low : UInt8) : UInt16 := high.toUInt16 <<< 8 ||| low.toUInt16

/-- The register file. -/
structure Registers where
  /-- The bank in use. -/
  main : RegisterBank
  /-- The bank set aside. -/
  alternate : RegisterBank
  /-- First index register. -/
  ix : UInt16
  /-- Second index register. -/
  iy : UInt16
  /-- Stack pointer. -/
  sp : UInt16
  /-- Program counter. -/
  pc : UInt16
  /-- High byte of the interrupt table. -/
  i : UInt8
  /-- Refresh counter. -/
  r : UInt8
  /-- Whether maskable interrupts are taken. -/
  iff1 : Bool
  /-- What is restored after an interrupt that cannot be masked. -/
  iff2 : Bool
  /-- Interrupt mode. -/
  im : UInt8
  deriving DecidableEq, Repr

namespace Registers

/-- All registers zero. -/
def zero : Registers := ⟨.zero, .zero, 0, 0, 0, 0, 0, 0, false, false, 0⟩

/-- The register pair AF. -/
def af (registers : Registers) : UInt16 := wordOf registers.main.a registers.main.f

/-- The register pair BC. -/
def bc (registers : Registers) : UInt16 := wordOf registers.main.b registers.main.c

/-- The register pair DE. -/
def de (registers : Registers) : UInt16 := wordOf registers.main.d registers.main.e

/-- The register pair HL. -/
def hl (registers : Registers) : UInt16 := wordOf registers.main.h registers.main.l

/-- A word in four upper-case digits. -/
private def wordText (word : UInt16) : String := String.ofList (Text.Hex.upper 4 word.toNat)

/-- The registers shown for debugging, with their values: words in hexadecimal digits, bytes in
decimal ones. -/
def entries (registers : Registers) : List (String × String) :=
  [("pc", wordText registers.pc), ("sp", wordText registers.sp),
   ("af", wordText registers.af), ("bc", wordText registers.bc),
   ("de", wordText registers.de), ("hl", wordText registers.hl),
   ("ix", wordText registers.ix), ("iy", wordText registers.iy),
   ("i", toString registers.i.toNat), ("r", toString registers.r.toNat),
   ("iff1", toString registers.iff1), ("iff2", toString registers.iff2),
   ("im", toString registers.im.toNat)]

/-- The registers on one line. -/
def lineText (registers : Registers) : String :=
  let shown := registers.entries.map fun (name, value) => name ++ ": " ++ value
  "Registers \x7b " ++ String.intercalate ", " shown ++ " \x7d"

/-- The registers on a line each. -/
def blockText (registers : Registers) : String :=
  let shown := registers.entries.map fun (name, value) => "    " ++ name ++ ": " ++ value ++ ",\n"
  "Registers \x7b\n" ++ String.join shown ++ "\x7d"

end Registers

end Spectrum48
