import Spectrum48.Proofs.Machine.Course

/-!
# The instants that the beeper is told

The beeper is told of a toggle at the instant at which the instruction started, plus the extra
cycles charged so far; nothing else tells it anything. So the queue is what the instants of the
instructions make it, less what is played, and it is ordered at all times if these are in order.
-/

namespace Spectrum48

/-! ### What the beeper is told -/

namespace Ula

variable {τ : Type} [Scalar τ]

/-- The instants that the beeper is told when a byte is written to a port. -/
def told (ula : Ula τ) (port : UInt16) (value : UInt8) (time : τ) : List τ :=
  if answersOn port then if ula.speaker = speakerOf value then [] else [time] else []

/-- A write to a port does to the beeper what it is told. -/
theorem beeper_write (ula : Ula τ) (port : UInt16) (value : UInt8) (time : τ) :
    (ula.write port value time).beeper =
      (ula.told port value time).foldl Beeper.notify ula.beeper := by
  unfold write told
  split
  · unfold setSpeaker
    change (if ula.speaker = _ then _ else _ : Ula τ).beeper = _
    split <;> rfl
  · rfl

end Ula

namespace Bus

variable {τ : Type} [Scalar τ]

/-- Emulated time within the instruction after a number of extra cycles. -/
def timeAfter (bus : Bus τ) (charged : Nat) : τ :=
  bus.instructionStart + Scalar.ofNat charged / bus.cyclesPerMs

/-- The instants that the beeper is told in an access. -/
def told (bus : Bus τ) : BusAccess → List τ
  | .writePort port value => bus.ula.told port value bus.now
  | .readMemory _ | .writeMemory _ _ | .readPort _ => []

/-- The instants that the beeper is told in a program of accesses. -/
def instants {α : Type} : BusProgram α → Bus τ → List τ
  | .done _, _ => []
  | .access request next, bus =>
    bus.told request ++ instants (next (bus.perform request).1) (bus.perform request).2

/-- An access does to the beeper what it is told. -/
theorem beeper_perform (bus : Bus τ) (request : BusAccess) :
    (bus.perform request).2.ula.beeper =
      (bus.told request).foldl Beeper.notify bus.ula.beeper := by
  cases request with
  | readMemory _ | writeMemory _ _ | readPort _ => rfl
  | writePort port value => exact bus.ula.beeper_write port value bus.now

/-- A program does to the beeper what it is told. -/
theorem beeper_run {α : Type} (program : BusProgram α) (bus : Bus τ) :
    (run program bus).2.ula.beeper = (instants program bus).foldl Beeper.notify bus.ula.beeper := by
  induction program generalizing bus with
  | done result => rfl
  | access request next ih =>
    rw [run_access, ih, beeper_perform, ← List.foldl_append]
    rfl

/-- The beeper is told nothing in an access, or the present instant. -/
theorem told_eq (bus : Bus τ) (request : BusAccess) :
    bus.told request = [] ∨ bus.told request = [bus.timeAfter bus.contention] := by
  cases request with
  | readMemory _ | writeMemory _ _ | readPort _ => exact .inl rfl
  | writePort port value =>
    change bus.ula.told port value bus.now = [] ∨ bus.ula.told port value bus.now = [bus.now]
    unfold Ula.told
    split_ifs
    · exact .inl rfl
    · exact .inr rfl
    · exact .inl rfl

/-- A bus later in the same instruction. -/
structure Later (bus after : Bus τ) : Prop where
  /-- The instruction started at the same instant. -/
  instructionStart : after.instructionStart = bus.instructionStart
  /-- A millisecond has as many cycles. -/
  cyclesPerMs : after.cyclesPerMs = bus.cyclesPerMs
  /-- Extra cycles are only charged. -/
  contention : bus.contention ≤ after.contention

omit [Scalar τ] in
/-- Later and later is later. -/
theorem Later.trans {bus middle after : Bus τ} (first : bus.Later middle)
    (second : middle.Later after) : bus.Later after :=
  ⟨second.instructionStart.trans first.instructionStart,
    second.cyclesPerMs.trans first.cyclesPerMs, first.contention.trans second.contention⟩

/-- The instants of an instruction are reckoned alike all along. -/
theorem Later.timeAfter {bus after : Bus τ} (later : bus.Later after) :
    after.timeAfter = bus.timeAfter := by
  funext charged
  rw [Bus.timeAfter, later.instructionStart, later.cyclesPerMs]
  rfl

/-- An access takes place within an instruction. -/
theorem later_perform (bus : Bus τ) (request : BusAccess) :
    bus.Later (bus.perform request).2 := by
  cases request with
  | readMemory address => exact ⟨rfl, rfl, Nat.le_add_right _ _⟩
  | writeMemory address value => exact ⟨rfl, rfl, Nat.le_add_right _ _⟩
  | readPort port => exact ⟨rfl, rfl, Nat.le_refl _⟩
  | writePort port value => exact ⟨rfl, rfl, Nat.le_refl _⟩

/-- A program of accesses takes place within an instruction. -/
theorem later_run {α : Type} (program : BusProgram α) (bus : Bus τ) :
    bus.Later (run program bus).2 := by
  induction program generalizing bus with
  | done result => exact ⟨rfl, rfl, Nat.le_refl _⟩
  | access request next ih => exact (bus.later_perform request).trans (ih _ _)

/-- The beeper is told instants after more and more extra cycles, none of them after more than the
program is charged in the end. -/
theorem instants_eq {α : Type} (program : BusProgram α) (bus : Bus τ) :
    ∃ charges : List ℕ, instants program bus = charges.map bus.timeAfter ∧
      charges.Pairwise (· ≤ ·) ∧
      ∀ charged ∈ charges, bus.contention ≤ charged ∧ charged ≤ (run program bus).2.contention := by
  induction program generalizing bus with
  | done result => exact ⟨[], rfl, .nil, List.forall_mem_nil _⟩
  | access request next ih =>
    have first := bus.later_perform request
    have whole := later_run (.access request next) bus
    obtain ⟨charges, same, sorted, bounds⟩ := ih (bus.perform request).1 (bus.perform request).2
    have bounds (charged : ℕ) (charge : charged ∈ charges) :=
      And.intro (first.contention.trans (bounds charged charge).1) (bounds charged charge).2
    rw [first.timeAfter] at same
    unfold instants
    rw [same]
    obtain nothing | told := bus.told_eq request
    · rw [nothing]
      exact ⟨charges, rfl, sorted, bounds⟩
    · rw [told]
      refine ⟨bus.contention :: charges, rfl, ?_, ?_⟩
      · exact .cons (fun charged charge => (bounds charged charge).1) sorted
      · exact List.forall_mem_cons.2 ⟨⟨le_rfl, whole.contention⟩, bounds⟩

end Bus

namespace Machine

variable {τ σ : Type} [Scalar τ] [Processor σ]

/-- The cycles that the next instruction returns, without the extra ones of contended accesses. -/
def returnedCycles (machine : Machine τ σ) : Nat :=
  (Bus.run (Processor.instruction machine.cpu)
    (machine.bus.beginInstruction machine.clock.now)).1.1

/-- The extra cycles that the next instruction is charged for contended accesses. -/
def extraCycles (machine : Machine τ σ) : Nat :=
  (Bus.run (Processor.instruction machine.cpu)
    (machine.bus.beginInstruction machine.clock.now)).2.contention

/-- The instants that the beeper is told in the next instruction. -/
def instructionInstants (machine : Machine τ σ) : List τ :=
  Bus.instants (Processor.instruction machine.cpu)
    (machine.bus.beginInstruction machine.clock.now)

/-- The instants that the beeper is told in a history. -/
def historyInstants (machine : Machine τ σ) (history : List (Operation τ)) : List τ :=
  (machine.historyInstructions history).flatMap instructionInstants

/-- The cycles of an instruction are those that it returns and the extra ones. -/
theorem instructionCycles_eq (machine : Machine τ σ) :
    machine.instructionCycles = machine.returnedCycles + machine.extraCycles := rfl

/-- The instants of an instruction come after extra cycles that do not decrease. -/
theorem instructionInstants_eq (machine : Machine τ σ) :
    ∃ charges : List Nat,
      machine.instructionInstants =
        charges.map (machine.bus.beginInstruction machine.clock.now).timeAfter ∧
      charges.Pairwise (· ≤ ·) ∧ ∀ charged ∈ charges, charged ≤ machine.extraCycles := by
  obtain ⟨charges, same, sorted, bounds⟩ := Bus.instants_eq (Processor.instruction machine.cpu)
    (machine.bus.beginInstruction machine.clock.now)
  exact ⟨charges, same, sorted, fun charged charge => (bounds charged charge).2⟩

/-- An instruction does to the beeper what it is told. -/
theorem beeper_runInstruction (machine : Machine τ σ) :
    machine.runInstruction.beeper =
      machine.instructionInstants.foldl Beeper.notify machine.beeper :=
  Bus.beeper_run _ (machine.bus.beginInstruction machine.clock.now)

/-- An instruction leaves alone what instants are reckoned with. -/
theorem timebase_runInstruction (machine : Machine τ σ) :
    machine.runInstruction.timebase = machine.timebase := by
  have later := Bus.later_run (Processor.instruction machine.cpu)
    (machine.bus.beginInstruction machine.clock.now)
  have settings : machine.runInstruction.beeper.settings = machine.beeper.settings := by
    rw [beeper_runInstruction, Beeper.settings_foldl_notify]
  unfold timebase
  rw [settings]
  congr 1
  exact later.cyclesPerMs

/-! ### The order of the queue -/

/-- In a course that tells the beeper points that do not decrease, the queue is ordered at all
times. -/
theorem Course.ordered {machine after : Machine τ σ} {starts : List (Machine τ σ)}
    (course : Course machine starts after) (ordered : machine.beeper.Ordered)
    (forward : (starts.flatMap instructionInstants).Pairwise fun time later =>
      machine.beeper.settings.pointAt time ≤ machine.beeper.settings.pointAt later)
    (latest : ∀ entry ∈ machine.beeper.pending.toList,
      ∀ time ∈ starts.flatMap instructionInstants,
        entry ≤ machine.beeper.settings.pointAt time) :
    (∀ start ∈ starts, ∀ told, told <+: start.instructionInstants →
      (told.foldl Beeper.notify start.beeper).Ordered) ∧
    after.beeper.Ordered := by
  induction course with
  | done => exact ⟨List.forall_mem_nil _, ordered⟩
  | @between machine next after starts passed _ ih =>
    have same : next.beeper.settings = machine.beeper.settings :=
      congrArg Timebase.beeper passed.timebase
    rw [← same] at forward latest
    exact ih (ordered.of_sublist passed.pending same) forward fun entry queued =>
      latest entry (passed.pending.subset queued)
  | @instruction machine after starts _ _ ih =>
    rw [List.flatMap_cons] at forward latest
    obtain ⟨here, later, across⟩ := List.pairwise_append.1 forward
    have same : machine.runInstruction.beeper.settings = machine.beeper.settings := by
      rw [beeper_runInstruction, Beeper.settings_foldl_notify]
    have now (told : List τ) (early : told <+: machine.instructionInstants) :=
      ordered.foldl_notify (here.sublist early.sublist) fun entry queued time told =>
        latest entry queued time (List.mem_append_left _ (early.subset told))
    obtain ⟨run, left⟩ := now machine.instructionInstants (List.prefix_refl _)
    rw [← beeper_runInstruction] at run left
    have next : ∀ entry ∈ machine.runInstruction.beeper.pending.toList,
        ∀ time ∈ starts.flatMap instructionInstants,
          entry ≤ machine.beeper.settings.pointAt time := by
      intro entry queued time told
      obtain queued | ⟨earlier, before, rfl⟩ := left entry queued
      · exact latest entry queued time (List.mem_append_right _ told)
      · exact across earlier before time told
    rw [← same] at later next
    obtain ⟨rest, ends⟩ := ih run later next
    exact ⟨List.forall_mem_cons.2 ⟨fun told early => (now told early).1, rest⟩, ends⟩

end Machine

end Spectrum48
