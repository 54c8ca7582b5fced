import Spectrum48.Processor.Basic

/-!
# Processors that keep a log

Any processor can be made to log what it is asked to do, with the accesses of its instructions and
the bytes that answered them. The log is out of reach of the processor itself: without it, the
processor is the one that it was.
-/

namespace Spectrum48

namespace BusProgram

variable {α β γ : Type}

/-- A program with its result changed. -/
def map (f : α → β) : BusProgram α → BusProgram β
  | .done result => .done (f result)
  | .access request next => .access request fun answer => map f (next answer)

/-- A program whose result also tells its accesses, with the bytes that answered them. -/
def recorded : BusProgram α → BusProgram (α × List (BusAccess × UInt8))
  | .done result => .done (result, [])
  | .access request next =>
    .access request fun answer =>
      (recorded (next answer)).map fun (result, later) => (result, (request, answer) :: later)

/-- Leaving the result alone leaves the program alone. -/
theorem map_id (program : BusProgram α) : program.map id = program := by
  induction program with
  | done result => rfl
  | access request next ih =>
    rw [map]
    exact congrArg _ (funext ih)

/-- The result can be changed in two steps. -/
theorem map_map (f : α → β) (g : β → γ) (program : BusProgram α) :
    (program.map f).map g = program.map (g ∘ f) := by
  induction program with
  | done result => rfl
  | access request next ih =>
    rw [map, map, map]
    exact congrArg _ (funext ih)

/-- Without what it tells of its accesses, a recorded program is the one that it was. -/
theorem map_fst_recorded (program : BusProgram α) : program.recorded.map Prod.fst = program := by
  induction program with
  | done result => rfl
  | access request next ih =>
    rw [recorded, map]
    refine congrArg _ (funext fun answer => ?_)
    rw [map_map]
    exact ih answer

end BusProgram

/-- What a processor can be asked to do. -/
inductive ProcessorCall where
  /-- Start over. -/
  | reset
  /-- Run an instruction, which makes accesses that are answered with bytes. -/
  | instruction (accesses : List (BusAccess × UInt8))
  /-- Take an interrupt. -/
  | interrupt (nonMaskable : Bool) (data : UInt8)
  /-- Replace the register file. -/
  | setRegisters (registers : Registers)
  deriving DecidableEq, Repr

namespace ProcessorCall

/-- Whether a call is an interrupt. -/
def isInterrupt : ProcessorCall → Bool
  | .interrupt _ _ => true
  | .reset | .instruction _ | .setRegisters _ => false

end ProcessorCall

/-- A processor with a log. -/
structure Logged (σ : Type) where
  /-- The processor. -/
  cpu : σ
  /-- What it was asked to do, oldest first. -/
  calls : List ProcessorCall

namespace Logged

/-- The processor after another call. -/
def log {σ : Type} (logged : Logged σ) (call : ProcessorCall) (cpu : σ) : Logged σ :=
  ⟨cpu, logged.calls ++ [call]⟩

/-- A processor with a log does as it is asked and logs the call. -/
instance {σ : Type} [Processor σ] : Processor (Logged σ) where
  reset logged := logged.log .reset (Processor.reset logged.cpu)
  instruction logged :=
    (Processor.instruction logged.cpu).recorded.map fun ((cycles, cpu), accesses) =>
      (cycles, logged.log (.instruction accesses) cpu)
  isHalted logged := Processor.isHalted logged.cpu
  interrupt nonMaskable data logged :=
    logged.log (.interrupt nonMaskable data) (Processor.interrupt nonMaskable data logged.cpu)
  registers logged := Processor.registers logged.cpu
  setRegisters registers logged :=
    logged.log (.setRegisters registers) (Processor.setRegisters registers logged.cpu)
  patience logged := Processor.patience logged.cpu

end Logged

/-- A map from one kind of processor to another that does the same, as far as a machine can tell. -/
structure Processor.Maps {σ ρ : Type} [Processor σ] [Processor ρ] (f : σ → ρ) : Prop where
  /-- Both start over. -/
  reset : ∀ cpu, Processor.reset (f cpu) = f (Processor.reset cpu)
  /-- Both make the same accesses and take the same cycles. -/
  instruction : ∀ cpu, Processor.instruction (f cpu) =
    (Processor.instruction cpu).map fun (cycles, next) => (cycles, f next)
  /-- Both wait for an interrupt. -/
  isHalted : ∀ cpu, Processor.isHalted (f cpu) = Processor.isHalted cpu
  /-- Both take an interrupt. -/
  interrupt : ∀ nonMaskable data cpu,
    Processor.interrupt nonMaskable data (f cpu) = f (Processor.interrupt nonMaskable data cpu)
  /-- Both take registers. -/
  setRegisters : ∀ registers cpu,
    Processor.setRegisters registers (f cpu) = f (Processor.setRegisters registers cpu)
  /-- Both are as patient. -/
  patience : ∀ cpu, Processor.patience (f cpu) = Processor.patience cpu

namespace Processor.Maps

variable {σ : Type} [Processor σ]

/-- Every processor does the same as itself. -/
theorem identity : Maps (id : σ → σ) where
  reset _ := rfl
  instruction _ := (BusProgram.map_id _).symm
  isHalted _ := rfl
  interrupt _ _ _ := rfl
  setRegisters _ _ := rfl
  patience _ := rfl

/-- Without its log, a processor does the same. -/
theorem withoutLog : Maps (Logged.cpu : Logged σ → σ) where
  reset _ := rfl
  instruction logged := by
    have whole : Processor.instruction logged =
        (Processor.instruction logged.cpu).recorded.map fun ((cycles, cpu), accesses) =>
          (cycles, logged.log (.instruction accesses) cpu) := rfl
    rw [whole, BusProgram.map_map]
    exact (BusProgram.map_fst_recorded _).symm
  isHalted _ := rfl
  interrupt _ _ _ := rfl
  setRegisters _ _ := rfl
  patience _ := rfl

end Processor.Maps

end Spectrum48
