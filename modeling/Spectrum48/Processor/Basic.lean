import Spectrum48.Processor.Registers

/-!
# Processors

What the machine needs to know of a processor. An instruction is a program of bus accesses, each
of which may depend on what the earlier ones read; it ends with the cycles that it took and the
processor after it. The processor's own state is out of reach of the bus, and the bus is in reach
of the processor only through accesses.
-/

namespace Spectrum48

/-- One access of a processor to what surrounds it. -/
inductive BusAccess where
  /-- Read a byte of memory. -/
  | readMemory (address : UInt16)
  /-- Write a byte of memory. -/
  | writeMemory (address : UInt16) (value : UInt8)
  /-- Read a port. -/
  | readPort (port : UInt16)
  /-- Write a port. -/
  | writePort (port : UInt16) (value : UInt8)
  deriving DecidableEq, Repr

/-- A program of bus accesses with a result. -/
inductive BusProgram (α : Type) where
  /-- No more accesses. -/
  | done (result : α)
  /-- An access, and what to do with the byte that answers it; writes are answered with zero. -/
  | access (request : BusAccess) (next : UInt8 → BusProgram α)

/-- A processor whose state is `σ`. -/
class Processor (σ : Type) where
  /-- Start over. -/
  reset : σ → σ
  /-- Run one instruction; it ends with the cycles that it took. -/
  instruction : σ → BusProgram (Nat × σ)
  /-- Whether the processor waits for an interrupt. -/
  isHalted : σ → Bool
  /-- Raise an interrupt, with the byte that is on the data bus. -/
  interrupt : (nonMaskable : Bool) → (data : UInt8) → σ → σ
  /-- The register file. -/
  registers : σ → Registers
  /-- Replace the register file. -/
  setRegisters : Registers → σ → σ
  /-- How many instructions in a row may take no cycles at all before the processor is known to
  take none for ever. -/
  patience : σ → Nat

end Spectrum48
