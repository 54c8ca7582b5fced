import Spectrum48.Processor.Scripted
import Spectrum48.Proofs.Machine.Frames

/-!
# Steady processors

A scripted processor that plays one instruction over and over, without accesses and without a
halt. Whatever the host does with its machine, all its instructions take the same cycles.
-/

namespace Spectrum48

/-- A processor that plays one instruction of the given cycles over and over. -/
structure Scripted.Steady (cycles : Nat) (cpu : Scripted) : Prop where
  /-- The instruction accesses nothing. -/
  script : cpu.script = #[⟨cycles, []⟩]
  /-- The script starts over at its end. -/
  loops : cpu.loops = true
  /-- The processor is not halted. -/
  awake : cpu.halted = false

namespace Scripted.Steady

variable {cycles : Nat} {cpu : Scripted}

/-- A new processor with one instruction is steady. -/
theorem ofScript (cycles : Nat) (wakes : Bool) :
    (Scripted.ofScript #[⟨cycles, []⟩] true wakes).Steady cycles := ⟨rfl, rfl, rfl⟩

/-- The instruction takes its cycles and leaves a steady processor. -/
theorem instruction (steady : cpu.Steady cycles) :
    ∃ next, Scripted.instruction cpu = .done (cycles, next) ∧ next.Steady cycles := by
  refine ⟨{ cpu with instructionCount := cpu.instructionCount + 1, position := 1 }, ?_,
    steady.script, steady.loops, steady.awake⟩
  simp [Scripted.instruction, nextPosition, playActions, steady.script, steady.loops,
    steady.awake, Nat.mod_one]

/-- An interrupt leaves a steady processor. -/
theorem interrupt (steady : cpu.Steady cycles) (nonMaskable : Bool) (data : UInt8) :
    (Scripted.interrupt nonMaskable data cpu).Steady cycles := by
  refine ⟨steady.script, steady.loops, ?_⟩
  rw [Scripted.interrupt, steady.awake]
  rfl

end Scripted.Steady

namespace Machine

variable {τ : Type} [Scalar τ] {cycles : Nat}

/-- An instruction of a steady processor takes its cycles and leaves a steady processor. -/
theorem steady_runInstruction {machine : Machine τ Scripted}
    (steady : machine.cpu.Steady cycles) :
    machine.instructionCycles = cycles ∧ machine.runInstruction.cpu.Steady cycles := by
  obtain ⟨next, played, steady⟩ := steady.instruction
  have program : Processor.instruction machine.cpu = .done (cycles, next) := played
  constructor
  · unfold instructionCycles
    rw [program]
    rfl
  · unfold runInstruction
    dsimp only
    rw [program]
    exact steady

/-- The host's operations leave a steady processor. -/
theorem kept_steady (cycles : Nat) :
    Kept fun (cpu : Scripted) (_ : Clock τ) => cpu.Steady cycles where
  reset steady := ⟨steady.script, steady.loops, rfl⟩
  setRegisters _ steady := ⟨steady.script, steady.loops, steady.awake⟩
  resetBaseline := id
  elapse _ := id
  elapseTo _ := id

/-- Every instruction of a frame finds a steady processor. -/
theorem steady_of_mem_frameInstructions {machine start : Machine τ Scripted}
    (steady : machine.cpu.Steady cycles) (run : start ∈ machine.frameInstructions) :
    start.cpu.Steady cycles :=
  holds_of_mem_instructionsRun (fun middle => middle.cpu.Steady cycles) steady
    (fun _ steady => (steady_runInstruction steady).2) run

/-- A frame leaves a steady processor. -/
theorem steady_stepFrame {machine after : Machine τ Scripted}
    (steady : machine.cpu.Steady cycles) (returned : machine.stepFrame = some after) :
    after.cpu.Steady cycles := by
  obtain ⟨ran, done, rfl⟩ := stepFrame_eq_some.1 returned
  obtain ⟨-, steady⟩ :=
    keeps_runInstructions (fun middle => middle.cpu.Steady cycles) steady
      (fun middle _ _ steady => (steady_runInstruction steady).2) (fun _ _ _ steady => steady) done
  rw [cpu_finishFrame]
  exact steady.interrupt false 0

/-- Every instruction of a history finds a steady processor. -/
theorem steady_of_mem_historyInstructions {machine start : Machine τ Scripted}
    (steady : machine.cpu.Steady cycles) {history : List (Operation τ)}
    (run : start ∈ machine.historyInstructions history) : start.cpu.Steady cycles := by
  obtain ⟨frame, framed, ran⟩ := List.mem_flatMap.1 run
  have starts : frame.cpu.Steady cycles :=
    ((kept_steady cycles).performAll steady
      fun _ _ steady _ returned => steady_stepFrame steady returned).1 frame framed
  exact steady_of_mem_frameInstructions starts ran

end Machine

end Spectrum48
