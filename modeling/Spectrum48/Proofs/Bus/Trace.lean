import Spectrum48.Proofs.Machine.Instants
import Spectrum48.Proofs.Processor.Log

/-!
# The accesses of a program

What a program of accesses asks of the bus, and how the bus answers. The extra cycles that it is
charged are those of its accesses to contended memory. Neither the answers nor anything else that
it does depends on the beeper, which only hears of the instants at which the speaker is toggled.
-/

namespace Spectrum48

/-- Whether an access is to contended memory. -/
def BusAccess.isContended : BusAccess → Bool
  | .readMemory address | .writeMemory address _ =>
    0x4000 ≤ address.toNat && address.toNat < 0x8000
  | .readPort _ | .writePort _ _ => false

namespace Ula

variable {τ : Type} [Scalar τ]

/-- The circuit with another beeper. -/
def withBeeper (ula : Ula τ) (beeper : Beeper τ) : Ula τ := { ula with beeper := beeper }

/-- A write to a port does not depend on the beeper, and tells every beeper the same. -/
theorem write_withBeeper (ula : Ula τ) (beeper : Beeper τ) (port : UInt16) (value : UInt8)
    (time : τ) :
    (ula.withBeeper beeper).write port value time =
      (ula.write port value time).withBeeper
        ((ula.told port value time).foldl Beeper.notify beeper) := by
  unfold write told
  split
  · unfold setSpeaker
    change (if ula.speaker = _ then _ else _) = Ula.withBeeper (if ula.speaker = _ then _ else _) _
    split <;> rfl
  · rfl

end Ula

namespace Bus

variable {τ α β : Type} [Scalar τ]

/-- The accesses of a program, with the bytes that answer them. -/
def trace : BusProgram α → Bus τ → List (BusAccess × UInt8)
  | .done _, _ => []
  | .access request next, bus =>
    (request, (bus.perform request).1) ::
      trace (next (bus.perform request).1) (bus.perform request).2

/-- Changing the result of a program changes nothing else. -/
theorem run_map (f : α → β) (program : BusProgram α) (bus : Bus τ) :
    run (program.map f) bus = (f (run program bus).1, (run program bus).2) := by
  induction program generalizing bus with
  | done result => rfl
  | access request next ih =>
    rw [BusProgram.map, run_access, ih, run_access]

/-- A recorded program tells its accesses and does nothing else. -/
theorem run_recorded (program : BusProgram α) (bus : Bus τ) :
    run program.recorded bus = (((run program bus).1, trace program bus), (run program bus).2) := by
  induction program generalizing bus with
  | done result => rfl
  | access request next ih =>
    rw [BusProgram.recorded, run_access, run_map, ih, run_access]
    rfl

/-! ### Extra cycles -/

/-- An access is charged the extra cycles of contended memory if it is to contended memory. -/
theorem contention_perform (bus : Bus τ) (request : BusAccess) :
    (bus.perform request).2.contention =
      bus.contention + if request.isContended then bus.memory.contentionPenalty else 0 := by
  have charged (address : UInt16) :
      bus.memory.contention address =
        if 0x4000 ≤ address.toNat && address.toNat < 0x8000 then bus.memory.contentionPenalty
        else 0 := by
    simp only [Memory.contention, Memory.contendedStart, Memory.contendedStop,
      Bool.and_eq_true, decide_eq_true_eq]
    congr
  cases request with
  | readMemory address | writeMemory address _ => exact congrArg _ (charged address)
  | readPort _ | writePort _ _ => rfl

/-- An access leaves the extra cycles of contended memory as they are. -/
theorem contentionPenalty_perform (bus : Bus τ) (request : BusAccess) :
    (bus.perform request).2.memory.contentionPenalty = bus.memory.contentionPenalty := by
  cases request with
  | readMemory _ | readPort _ | writePort _ _ => rfl
  | writeMemory address value => exact bus.memory.contentionPenalty_write address value

/-- A program is charged for each of its accesses to contended memory. -/
theorem contention_run (program : BusProgram α) (bus : Bus τ) :
    (run program bus).2.contention =
      bus.contention + bus.memory.contentionPenalty *
        (trace program bus).countP fun made => made.1.isContended := by
  induction program generalizing bus with
  | done result => rfl
  | access request next ih =>
    rw [run_access, ih, contention_perform, contentionPenalty_perform, trace, List.countP_cons,
      Nat.mul_add, Nat.add_assoc, Nat.add_comm (ite _ _ _)]
    split
    · rw [Nat.mul_one]
    · rfl

/-! ### Other beepers -/

/-- The bus with another beeper. -/
def withBeeper (bus : Bus τ) (beeper : Beeper τ) : Bus τ :=
  { bus with ula := bus.ula.withBeeper beeper }

/-- An access does not depend on the beeper, and tells every beeper the same. -/
theorem perform_withBeeper (bus : Bus τ) (beeper : Beeper τ) (request : BusAccess) :
    (bus.withBeeper beeper).perform request =
      ((bus.perform request).1,
        (bus.perform request).2.withBeeper
          ((bus.told request).foldl Beeper.notify beeper)) := by
  cases request with
  | readMemory address => rfl
  | writeMemory address value => rfl
  | readPort port => rfl
  | writePort port value =>
    have written := bus.ula.write_withBeeper beeper port value bus.now
    exact congrArg (fun ula => (0, ({ bus with ula := ula } : Bus τ))) written

/-- A program does not depend on the beeper, and tells every beeper the same. -/
theorem run_withBeeper (program : BusProgram α) (bus : Bus τ) (beeper : Beeper τ) :
    run program (bus.withBeeper beeper) =
      ((run program bus).1,
        (run program bus).2.withBeeper
          ((instants program bus).foldl Beeper.notify beeper)) := by
  induction program generalizing bus beeper with
  | done result => rfl
  | access request next ih =>
    rw [run_access, perform_withBeeper]
    dsimp only
    rw [ih, run_access, instants, List.foldl_append]

end Bus

end Spectrum48
