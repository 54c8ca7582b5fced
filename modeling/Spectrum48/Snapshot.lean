import Spectrum48.Fault
import Spectrum48.Processor.Registers
import Spectrum48.Ula

/-!
# Snapshots

A snapshot is a header of 27 bytes with the registers and the border colour, followed by the 48
kilobytes of read-write memory. The program counter is not in the header: execution resumes at an
instruction of the firmware that takes it from the snapshot's stack.

A snapshot of another size is read as well. Bytes that are missing count as zero, and bytes beyond
the end of the memory are ignored.
-/

namespace Spectrum48

/-- What a snapshot holds. -/
structure Snapshot where
  /-- The registers. -/
  registers : Registers
  /-- The border colour. -/
  border : UInt8
  /-- The read-write memory. -/
  ram : Array UInt8

namespace Snapshot

/-- Bytes of the header. -/
def headerSize : Nat := 27

/-- Bytes of the read-write memory. -/
def ramSize : Nat := 0xC000

/-- Bytes of a snapshot. -/
def size : Nat := headerSize + ramSize

/-- The address of the read-write memory. -/
def ramStart : UInt16 := 0x4000

/-- The address at which execution resumes. -/
def resumeAddress : UInt16 := 0x0072

/-- The byte at an offset, zero where there is none. -/
def byteAt (data : Array UInt8) (offset : Nat) : UInt8 := data.getD offset 0

/-- The word at an offset, its low byte first. -/
def wordAt (data : Array UInt8) (offset : Nat) : UInt16 :=
  wordOf (byteAt data (offset + 1)) (byteAt data offset)

/-- The registers in a header. One flag gives both interrupt flip-flops. -/
def registersOf (data : Array UInt8) : Registers :=
  let enabled := byteAt data 0x13 &&& 0x04 != 0
  { main :=
      { a := byteAt data 0x16
        f := byteAt data 0x15
        b := byteAt data 0x0E
        c := byteAt data 0x0D
        d := byteAt data 0x0C
        e := byteAt data 0x0B
        h := byteAt data 0x0A
        l := byteAt data 0x09 }
    alternate :=
      { a := byteAt data 0x08
        f := byteAt data 0x07
        b := byteAt data 0x06
        c := byteAt data 0x05
        d := byteAt data 0x04
        e := byteAt data 0x03
        h := byteAt data 0x02
        l := byteAt data 0x01 }
    ix := wordAt data 0x11
    iy := wordAt data 0x0F
    sp := wordAt data 0x17
    pc := resumeAddress
    i := byteAt data 0x00
    r := byteAt data 0x14
    iff1 := enabled
    iff2 := enabled
    im := byteAt data 0x19 }

/-- Read a snapshot. -/
def ofBytes (data : Array UInt8) : Snapshot where
  registers := registersOf data
  border := Ula.borderOf (byteAt data 0x1A)
  ram := Array.ofFn fun offset : Fin ramSize => byteAt data (headerSize + offset)

/-- Whether data has the size of a snapshot. -/
def checkSize (data : Array UInt8) : Except Fault Unit :=
  if data.size = size then .ok () else .error (.malformedSnapshot size data.size)

/-- The memory of a snapshot is complete. -/
theorem size_ram (data : Array UInt8) : (ofBytes data).ram.size = ramSize := by
  rw [ofBytes, Array.size_ofFn]

end Snapshot

end Spectrum48
