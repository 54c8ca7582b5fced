import Spectrum48.Proofs.Machine.Stages
import Spectrum48.Proofs.Memory.Changes

/-!
# What is in a machine's memory

The memory of a machine is what the changes made to it say, in the order in which they were made:
the writes of its instructions, firmware and snapshots that were accepted, and what the host wrote
itself. Nothing else reaches it. So the firmware is the image that was accepted last, and a byte of
the read-write memory differs between two moments only if it was written in between, or a snapshot
was loaded.
-/

namespace Spectrum48

/-- The change of memory that an access makes, if it makes one. -/
def BusAccess.change? : BusAccess → Option Memory.Change
  | .writeMemory address value => some (.written address value)
  | .readMemory _ | .readPort _ | .writePort _ _ => none

namespace Bus

variable {τ α : Type} [Scalar τ]

/-- The changes of memory that a program makes. -/
def changes (program : BusProgram α) (bus : Bus τ) : List Memory.Change :=
  (trace program bus).filterMap fun made => made.1.change?

/-- The buses from access to access of a program. -/
def passed : BusProgram α → Bus τ → List (Bus τ)
  | .done _, bus => [bus]
  | .access request next, bus =>
    bus :: passed (next (bus.perform request).1) (bus.perform request).2

/-- An access makes its change of memory, and no other. -/
theorem memory_perform (bus : Bus τ) (request : BusAccess) :
    (bus.perform request).2.memory = request.change?.toList.foldl Memory.apply bus.memory := by
  cases request with
  | readMemory | writeMemory | readPort | writePort => rfl

/-- The changes of a program start with that of its first access. -/
theorem changes_access (request : BusAccess) (next : UInt8 → BusProgram α) (bus : Bus τ) :
    changes (.access request next) bus =
      request.change?.toList ++ changes (next (bus.perform request).1) (bus.perform request).2 := by
  rw [changes, trace, List.filterMap_cons, changes]
  cases request.change? <;> rfl

/-- A program makes its changes of memory one after the other, and no others. -/
theorem memory_run (program : BusProgram α) (bus : Bus τ) :
    (run program bus).2.memory = (changes program bus).foldl Memory.apply bus.memory ∧
      ∀ other ∈ passed program bus, bus.memory.Met (changes program bus) other.memory := by
  induction program generalizing bus with
  | done result => exact ⟨rfl, List.forall_mem_singleton.2 (Memory.met_self _ _)⟩
  | access request next ih =>
    obtain ⟨ran, met⟩ := ih (bus.perform request).1 (bus.perform request).2
    rw [memory_perform] at ran met
    rw [run_access, changes_access, List.foldl_append]
    refine ⟨ran, List.forall_mem_cons.2 ⟨Memory.met_self _ _, ?_⟩⟩
    intro other passed
    exact (met other passed).after

end Bus

namespace Machine

variable {τ σ : Type} [Scalar τ] [Processor σ]

/-- The changes of memory that the next instruction makes. -/
def instructionChanges (machine : Machine τ σ) : List Memory.Change :=
  Bus.changes (Processor.instruction machine.cpu)
    (machine.bus.beginInstruction machine.clock.now)

/-- The memories from access to access of the next instruction. -/
def instructionMemories (machine : Machine τ σ) : List Memory :=
  (Bus.passed (Processor.instruction machine.cpu)
    (machine.bus.beginInstruction machine.clock.now)).map Bus.memory

/-- The changes of memory that instructions make, one after the other. -/
def changesOf (starts : List (Machine τ σ)) : List Memory.Change :=
  starts.flatMap instructionChanges

/-- The changes of memory that frames make, one after the other. -/
def frameChanges (frames : List (Machine τ σ)) : List Memory.Change :=
  changesOf (frames.flatMap frameInstructions)

/-- The changes of memory that an operation makes itself, apart from its instructions. -/
def hostChanges (machine : Machine τ σ) : Operation τ → List Memory.Change
  | .loadRom image => if image.size = 0x4000 then [.firmware image] else []
  | .loadSnapshot data => if machine.state = .uninitialized then [] else [.snapshot data]
  | .poke address value => [.poked address value]
  | .loadRam start block => [.filled start block]
  | _ => []

/-- The changes of memory that an operation makes. -/
def operationChanges (machine : Machine τ σ) (operation : Operation τ) : List Memory.Change :=
  machine.hostChanges operation ++ frameChanges (machine.operationFrames operation)

/-- The changes of memory that a history makes. -/
def historyChanges (machine : Machine τ σ) : List (Operation τ) → List Memory.Change
  | [] => []
  | operation :: rest =>
    machine.operationChanges operation ++
      match machine.perform operation with
      | none => []
      | some (_, machine) => machine.historyChanges rest

/-- Changes account for what happens to memory: they led to what is left in the end, if there is an
end, and some of them to what is met at any access of the instructions given. -/
structure Accounted (memory : Memory) (starts : List (Machine τ σ)) (after : Option Memory)
    (changes : List Memory.Change) : Prop where
  /-- All changes led to what is left in the end. -/
  final : ∀ left, after = some left → left = changes.foldl Memory.apply memory
  /-- Some changes led to what is met meanwhile. -/
  met : ∀ start ∈ starts, ∀ other ∈ start.instructionMemories, memory.Met changes other

namespace Accounted

variable {memory middle : Memory} {starts more : List (Machine τ σ)} {after : Option Memory}
  {changes later : List Memory.Change}

/-- Where no instructions are run, the changes are those that are made otherwise. -/
theorem still (memory : Memory) (changes : List Memory.Change) :
    Accounted memory ([] : List (Machine τ σ)) (some (changes.foldl Memory.apply memory))
      changes :=
  ⟨fun _ same => (Option.some.inj same).symm, List.forall_mem_nil _⟩

/-- What never ends is accounted for as far as it goes. -/
theorem endless (accounted : Accounted memory starts after changes) :
    Accounted memory starts none changes := by
  refine ⟨?_, accounted.met⟩
  intro left never
  cases never

/-- One thing happens after the other. -/
theorem append (accounted : Accounted memory starts (some middle) changes)
    (next : Accounted middle more after later) :
    Accounted memory (starts ++ more) after (changes ++ later) := by
  obtain rfl := accounted.final middle rfl
  constructor
  · intro left returned
    rw [next.final left returned, List.foldl_append]
  · intro start run other inside
    obtain first | second := List.mem_append.1 run
    · exact (accounted.met start first other inside).append later
    · exact (next.met start second other inside).after

end Accounted

/-- The changes of instructions are made one after the other. -/
theorem changesOf_append (starts more : List (Machine τ σ)) :
    changesOf (starts ++ more) = changesOf starts ++ changesOf more :=
  List.flatMap_append

/-- An instruction's changes account for it. -/
theorem accounted_runInstruction (machine : Machine τ σ) :
    Accounted machine.bus.memory [machine] (some machine.runInstruction.bus.memory)
      (changesOf [machine]) := by
  obtain ⟨ran, met⟩ := Bus.memory_run (Processor.instruction machine.cpu)
    (machine.bus.beginInstruction machine.clock.now)
  rw [changesOf, List.flatMap_singleton]
  constructor
  · intro left returned
    cases returned
    exact ran
  · rw [List.forall_mem_singleton]
    intro other inside
    obtain ⟨bus, passed, rfl⟩ := List.mem_map.1 inside
    exact met bus passed

/-- The changes of a run of instructions account for it. -/
theorem accounted_runInstructions (limit : Nat) (machine : Machine τ σ) :
    Accounted machine.bus.memory (instructionsRun limit machine)
      ((runInstructions limit machine).map fun ran => ran.bus.memory)
      (changesOf (instructionsRun limit machine)) := by
  induction limit generalizing machine with
  | zero =>
    unfold runInstructions
    split
    · exact .still _ []
    · exact (Accounted.still _ []).endless
  | succ limit ih =>
    unfold runInstructions instructionsRun
    split
    · exact .still _ []
    · have first := machine.accounted_runInstruction
      dsimp only
      split
      · exact first
      · have both := first.append (ih machine.runInstruction)
        rwa [← changesOf_append] at both

/-- The changes of a frame account for it. -/
theorem accounted_stepFrame (machine : Machine τ σ) :
    Accounted machine.bus.memory machine.frameInstructions
      (machine.stepFrame.map fun after => after.bus.memory) (frameChanges [machine]) := by
  have run := accounted_runInstructions machine.instructionLimit machine
  have left : (machine.stepFrame.map fun after => after.bus.memory) =
      (runInstructions machine.instructionLimit machine).map fun ran => ran.bus.memory := by
    rw [stepFrame]
    cases runInstructions machine.instructionLimit machine with
    | none => rfl
    | some ran => rw [Option.map_some, Option.map_some, Option.map_some, bus_finishFrame]
  rw [left, frameChanges, List.flatMap_singleton]
  exact run

/-- The changes of the frames that are due account for them. -/
theorem accounted_runDueFrames (limit frames : Nat) (machine : Machine τ σ) :
    Accounted machine.bus.memory ((dueFrames limit machine).flatMap frameInstructions)
      ((runDueFrames limit frames machine).map fun done => done.2.bus.memory)
      (frameChanges (dueFrames limit machine)) := by
  induction limit generalizing machine frames with
  | zero =>
    unfold runDueFrames
    split
    · exact (Accounted.still _ []).endless
    · exact .still _ []
  | succ limit ih =>
    unfold runDueFrames dueFrames
    split
    · have first := machine.accounted_stepFrame
      cases stepped : machine.stepFrame with
      | none =>
        rw [stepped] at first
        rw [List.flatMap_singleton]
        exact first
      | some next =>
        rw [stepped] at first
        have both := first.append (ih (frames + 1) next)
        rwa [frameChanges, frameChanges, ← changesOf_append, ← List.flatMap_append] at both
    · exact .still _ []

/-- The changes of the frames that run while time passes account for them. -/
theorem accounted_advance (pass : Clock τ → Clock τ) (machine : Machine τ σ) :
    Accounted machine.bus.memory ((machine.advanceFrames pass).flatMap frameInstructions)
      ((machine.advance pass).map fun done => done.2.bus.memory)
      (frameChanges (machine.advanceFrames pass)) := by
  by_cases running : machine.state = .running
  · rw [advanceFrames_of_running running, advance_of_running running, Option.map_map]
    exact accounted_runDueFrames _ 0 { machine with clock := pass machine.clock }
  · rw [advanceFrames_of_idle running]
    unfold advance
    split
    · next ran => exact absurd ran running
    · exact .still _ []
    · exact .still _ []

omit [Scalar τ] [Processor σ] in
/-- What is refused makes no changes. -/
theorem hostChanges_of_refusal {machine : Machine τ σ} {operation : Operation τ} {fault : Fault}
    (reason : refusal? machine.state operation = some fault) :
    machine.hostChanges operation = [] := by
  cases operation with
  | loadRom image =>
    by_cases fits : image.size = 0x4000
    · simp [refusal?, fits] at reason
    · exact if_neg fits
  | loadSnapshot data => exact if_pos (refusalWithoutFirmware_eq_some.1 reason).1
  | poke | loadRam => cases reason
  | _ => rfl

/-- The memory after an operation that runs no frames is what the operation itself changes. -/
theorem Outcome.memory {machine after : Machine τ σ} {operation : Operation τ} {reply : Reply}
    (outcome : machine.Outcome operation reply after) (timeless : operation.pass? = none)
    (other : operation ≠ .stepFrame) :
    after.bus.memory = (machine.hostChanges operation).foldl Memory.apply machine.bus.memory := by
  cases outcome with
  | refused reason => rw [hostChanges_of_refusal reason, List.foldl_nil]
  | started fits =>
    rw [hostChanges, if_pos fits, List.foldl_cons, List.foldl_nil]
    rfl
  | restored data live =>
    rw [hostChanges, if_neg live, List.foldl_cons, List.foldl_nil, Memory.apply]
    rfl
  | caughtUp running passes =>
    rw [timeless] at passes
    cases passes
  | waited paused passes =>
    rw [timeless] at passes
    cases passes
  | stepped => exact absurd rfl other
  | paused | resumed | wentOn | reset | typed | attached => rfl
  | poked | filled | rendered => rfl

/-- What an operation that runs no frames changes itself accounts for it. -/
theorem accounted_of_timeless {machine : Machine τ σ} (between : machine.state ≠ .loading)
    {operation : Operation τ} (timeless : operation.pass? = none) (other : operation ≠ .stepFrame) :
    Accounted machine.bus.memory ([] : List (Machine τ σ))
      ((machine.perform operation).map fun done => done.2.bus.memory)
      (machine.hostChanges operation) := by
  refine ⟨?_, List.forall_mem_nil _⟩
  intro left returned
  obtain ⟨⟨reply, next⟩, performed, rfl⟩ := Option.map_eq_some_iff.1 returned
  exact (outcome_of_perform between performed).memory timeless other

/-- The changes of an operation account for it. -/
theorem accounted_perform {machine : Machine τ σ} (between : machine.state ≠ .loading)
    (operation : Operation τ) :
    Accounted machine.bus.memory ((machine.operationFrames operation).flatMap frameInstructions)
      ((machine.perform operation).map fun done => done.2.bus.memory)
      (machine.operationChanges operation) := by
  cases operation with
  | tick delta =>
    have passed := machine.accounted_advance fun clock => clock.elapse delta
    rw [perform, tick, Option.map_map]
    exact passed
  | tickAt timestamp =>
    have passed := machine.accounted_advance fun clock => clock.elapseTo timestamp
    rw [perform, tickAt, Option.map_map]
    exact passed
  | stepFrame =>
    have stepped := machine.accounted_stepFrame
    rw [perform, Option.map_map]
    change Accounted _ ([machine].flatMap frameInstructions) _ (frameChanges [machine])
    rw [List.flatMap_singleton]
    exact stepped
  | _ =>
    unfold operationChanges
    change Accounted _ [] _ (machine.hostChanges _ ++ [])
    rw [List.append_nil]
    exact accounted_of_timeless between rfl (by simp)

/-- The changes of a history account for it. -/
theorem accounted_performAll {machine : Machine τ σ} (settled : machine.Settled)
    (history : List (Operation τ)) :
    Accounted machine.bus.memory (machine.historyInstructions history)
      ((machine.performAll history).map fun done => done.2.bus.memory)
      (machine.historyChanges history) := by
  induction history generalizing machine with
  | nil => exact .still _ []
  | cons operation rest ih =>
    have first := accounted_perform settled.between operation
    unfold historyInstructions historyFrames historyChanges
    rw [performAll_cons]
    cases performed : machine.perform operation with
    | none =>
      rw [performed] at first
      rw [List.append_nil, List.append_nil]
      exact first
    | some done =>
      obtain ⟨reply, next⟩ := done
      rw [performed] at first
      have both := first.append (ih (settled.perform performed))
      rw [Option.bind_some, Option.map_map, List.flatMap_append]
      exact both

/-! ### Firmware and the host's own changes -/

/-- The image that an operation loads as firmware, if it is accepted. -/
def Operation.firmware? : Operation τ → Option (Array UInt8)
  | .loadRom image => if image.size = 0x4000 then some image else none
  | _ => none

/-- Whether an operation is the host's own write to memory. -/
def Operation.isDirect : Operation τ → Bool
  | .poke _ _ | .loadRam _ _ => true
  | _ => false

/-- Instructions write bytes, and nothing else. -/
theorem written_of_mem_changesOf {starts : List (Machine τ σ)} {change : Memory.Change}
    (made : change ∈ changesOf starts) : ∃ address value, change = .written address value := by
  obtain ⟨start, -, own⟩ := List.mem_flatMap.1 made
  obtain ⟨access, -, changes⟩ := List.mem_filterMap.1 own
  cases request : access.1 with
  | writeMemory address value =>
    rw [request] at changes
    exact ⟨address, value, (Option.some.inj changes).symm⟩
  | readMemory | readPort | writePort =>
    rw [request] at changes
    cases changes

/-- The firmware among an operation's changes is the image that it loads. -/
theorem filterMap_operationChanges (machine : Machine τ σ) (operation : Operation τ) :
    (machine.operationChanges operation).filterMap Memory.Change.image? =
      operation.firmware?.toList := by
  have silent : (frameChanges (machine.operationFrames operation)).filterMap
      Memory.Change.image? = [] := by
    rw [List.filterMap_eq_nil_iff]
    intro change made
    obtain ⟨address, value, rfl⟩ := written_of_mem_changesOf made
    rfl
  rw [operationChanges, List.filterMap_append, silent, List.append_nil]
  cases operation with
  | loadRom image =>
    by_cases fits : image.size = 0x4000 <;>
      simp [hostChanges, Operation.firmware?, Memory.Change.image?, fits]
  | loadSnapshot data =>
    by_cases missing : machine.state = .uninitialized <;>
      simp [hostChanges, Operation.firmware?, Memory.Change.image?, missing]
  | _ => rfl

/-- The firmware among a history's changes is what was accepted. -/
theorem filterMap_historyChanges {machine after : Machine τ σ} {history : List (Operation τ)}
    {replies : List Reply} (reached : machine.performAll history = some (replies, after)) :
    (machine.historyChanges history).filterMap Memory.Change.image? =
      history.filterMap Operation.firmware? := by
  induction history generalizing machine replies with
  | nil => rfl
  | cons operation rest ih =>
    obtain ⟨reply, next, more, performed, done, rfl⟩ := performAll_cons_eq_some.1 reached
    rw [historyChanges, performed, List.filterMap_append, filterMap_operationChanges, ih done,
      List.filterMap_cons]
    cases operation.firmware? <;> rfl

/-- The host's own changes are made by its own operations. -/
theorem exists_of_isDirect {machine : Machine τ σ} {history : List (Operation τ)}
    {change : Memory.Change} (made : change ∈ machine.historyChanges history)
    (direct : change.isDirect = true) : ∃ operation ∈ history, operation.isDirect = true := by
  induction history generalizing machine with
  | nil => cases made
  | cons operation rest ih =>
    obtain first | later := List.mem_append.1 made
    · refine ⟨operation, List.mem_cons_self, ?_⟩
      obtain own | framed := List.mem_append.1 first
      · cases operation with
        | poke | loadRam => rfl
        | loadRom image =>
          obtain ⟨-, rfl⟩ : image.size = 0x4000 ∧ change = .firmware image := by
            simpa [hostChanges] using own
          cases direct
        | loadSnapshot data =>
          obtain ⟨-, rfl⟩ : machine.state ≠ .uninitialized ∧ change = .snapshot data := by
            simpa [hostChanges] using own
          cases direct
        | _ => cases own
      · obtain ⟨address, value, rfl⟩ := written_of_mem_changesOf framed
        cases direct
    · cases performed : machine.perform operation with
      | none =>
        rw [performed] at later
        cases later
      | some done =>
        rw [performed] at later
        obtain ⟨own, inside, writes⟩ := ih later
        exact ⟨own, List.mem_cons_of_mem _ inside, writes⟩

omit [Scalar τ] in
/-- The firmware of a history's changes has its full size. -/
theorem full_of_mem_firmware {history : List (Operation τ)} {image : Array UInt8}
    (loaded : image ∈ history.filterMap Operation.firmware?) : image.size = 0x4000 := by
  obtain ⟨operation, -, accepted⟩ := List.mem_filterMap.1 loaded
  cases operation with
  | loadRom other =>
    obtain ⟨fits, rfl⟩ : other.size = 0x4000 ∧ other = image := by
      simpa [Operation.firmware?] using accepted
    exact fits
  | _ => cases accepted

/-- Loading firmware and resetting leave the read-write memory alone. -/
theorem ram_of_firmware_or_reset {machine after : Machine τ σ} (between : machine.state ≠ .loading)
    {operation : Operation τ} (kind : operation = .reset ∨ ∃ image, operation = .loadRom image)
    {reply : Reply} (performed : machine.perform operation = some (reply, after))
    {address : UInt16} (above : 0x4000 ≤ address.toNat) :
    after.bus.memory.read address = machine.bus.memory.read address := by
  cases outcome_of_perform between performed with
  | refused | reset => rfl
  | @started image fits =>
    have loaded := machine.bus.memory.read_loadRom address image
    rw [Memory.Change.value?, if_neg (Nat.not_lt.2 above), Option.getD_none] at loaded
    exact loaded
  | caughtUp _ passes | waited _ passes => obtain rfl | ⟨image, rfl⟩ := kind <;> cases passes
  | restored | stepped | paused | resumed | wentOn | typed | poked | filled | rendered | attached =>
    simp at kind

/-! ### Every history -/

/-- What a history of a new machine does to its memory, which is blank at first, is what its changes
say, in their order: they lead to the memory after it, and the first of them to the memory met at
any access of its instructions. Between any two of these moments memory is intact: the firmware is
the image that was accepted last, or zero, and the read-write memory is left to programs, snapshots
and the host's own writes. Loading firmware and resetting keep all of the read-write memory, and a
program's write below it changes nothing. -/
theorem memory_of_history (config : Config τ) (cpu : σ) {machine : Machine τ σ}
    (built : build config cpu = .ok machine) {history : List (Operation τ)}
    {replies : List Reply} {after : Machine τ σ}
    (reached : machine.performAll history = some (replies, after)) :
    (∀ address, machine.bus.memory.read address = 0) ∧
    after.bus.memory =
      (machine.historyChanges history).foldl Memory.apply machine.bus.memory ∧
    (∀ start ∈ machine.historyInstructions history, ∀ memory ∈ start.instructionMemories,
      machine.bus.memory.Met (machine.historyChanges history) memory) ∧
    (∀ sofar later, sofar ++ later <+: machine.historyChanges history →
      machine.bus.memory.Intact sofar later) ∧
    (machine.historyChanges history).filterMap Memory.Change.image? =
      history.filterMap Operation.firmware? ∧
    (∀ change ∈ machine.historyChanges history, change.isDirect = true →
      ∃ operation ∈ history, operation.isDirect = true) ∧
    (∀ operation, (operation = .reset ∨ ∃ image, operation = .loadRom image) →
      ∀ reply next, after.perform operation = some (reply, next) →
        ∀ address : UInt16, 0x4000 ≤ address.toNat →
          next.bus.memory.read address = after.bus.memory.read address) ∧
    ∀ (bus : Bus τ) (address : UInt16) (value : UInt8), address.toNat < 0x4000 →
      (bus.writeMemory address value).memory = bus.memory := by
  have new := eq_new_of_build built
  have settled : machine.Settled := by
    left
    rw [new]
    rfl
  have accounted := accounted_performAll settled history
  rw [reached] at accounted
  have images := filterMap_historyChanges reached
  refine ⟨?_, accounted.final _ rfl, accounted.met, ?_, images, ?_, ?_, ?_⟩
  · intro address
    rw [new]
    exact Vector.getElem_replicate _
  · intro sofar later moments
    refine Memory.intact_of_full _ (fun image loaded => ?_) moments
    rw [images] at loaded
    exact full_of_mem_firmware loaded
  · intro change made direct
    exact exists_of_isDirect made direct
  · intro operation kind reply next performed address above
    exact ram_of_firmware_or_reset (settled.performAll reached).between kind performed above
  · intro bus address value below
    have protects : Memory.isWritable address = false := decide_eq_false (Nat.not_le.2 below)
    exact Memory.write_of_not_isWritable value protects

/-- A processor that writes to firmware and to the read-write memory, and halts. -/
def scribbling : Scripted :=
  .ofScript #[⟨4, [.write 0x1000 0x66, .write 0x8000 0x55, .halt]⟩] true true

/-- A frame writes to both parts of memory, and firmware is loaded after it: the first write is
without effect, the second one lasts. -/
theorem memory_of_history_of_scribbling :
    ∃ (machine : Machine Float Scripted) (replies : List Reply) (after : Machine Float Scripted),
      build contendedFrames scribbling = .ok machine ∧
      machine.performAll [.stepFrame, .loadRom (Array.replicate 0x4000 0xC9)] =
        some (replies, after) ∧
      after.bus.memory.read 0x1000 = 0xC9 ∧ after.bus.memory.read 0x8000 = 0x55 ∧
      ∃ change ∈ machine.historyChanges [.stepFrame, .loadRom (Array.replicate 0x4000 0xC9)],
        ∃ value, change = .written 0x8000 value := by
  generalize image : Array.replicate 0x4000 (0xC9 : UInt8) = firmware
  have fits : firmware.size = 0x4000 := by
    rw [← image, Array.size_replicate]
  have byte : firmware.getD 0x1000 0 = 0xC9 := by
    rw [← image]
    simp
  have built := build_eq_new (show contendedFrames.Valid by decide +kernel) scribbling
  have writes : frameChanges [new contendedFrames scribbling] =
      [.written 0x1000 0x66, .written 0x8000 0x55] := by
    decide +kernel
  have returns : (new contendedFrames scribbling).unseenFrame.isSome = true := by
    decide +kernel
  generalize new contendedFrames scribbling = start at built writes returns ⊢
  obtain ⟨next, run⟩ := Option.isSome_iff_exists.1 returns
  obtain ⟨drawn, stepped⟩ := stepFrame_of_unseenFrame run start.picture
  have first : start.perform .stepFrame = some (.done, next.withPicture drawn) := by
    rw [perform]
    exact congrArg (Option.map _) stepped
  have second : (next.withPicture drawn).perform (.loadRom firmware) =
      some (.done, (next.withPicture drawn).started firmware) := by
    have loaded : (next.withPicture drawn).loadRom firmware =
        (.ok (), (next.withPicture drawn).started firmware) := if_pos fits
    rw [perform, loaded]
    rfl
  have reached : start.performAll [.stepFrame, .loadRom firmware] =
      some ([.done, .done], (next.withPicture drawn).started firmware) := by
    simp only [performAll, first, second]
  have frame : start.operationChanges .stepFrame =
      [.written 0x1000 0x66, .written 0x8000 0x55] := writes
  have load : (next.withPicture drawn).operationChanges (.loadRom firmware) =
      [.firmware firmware] := by
    rw [operationChanges, hostChanges, if_pos fits]
    rfl
  have changes : start.historyChanges [.stepFrame, .loadRom firmware] =
      [.written 0x1000 0x66, .written 0x8000 0x55, .firmware firmware] := by
    simp only [historyChanges, first, second, frame, load]
    rfl
  obtain ⟨zero, final, -, moments, -⟩ := memory_of_history _ _ built reached
  rw [changes] at final moments
  have intact := moments [] [.written 0x1000 0x66, .written 0x8000 0x55, .firmware firmware]
    (List.prefix_refl _)
  have lasts : ((next.withPicture drawn).started firmware).bus.memory.read 0x8000 = 0x55 := by
    rw [final, Memory.read_foldl_apply]
    rfl
  refine ⟨start, _, _, built, reached, ?_, lasts, ?_⟩
  · rw [final]
    exact (intact.firmware 0x1000 (by decide)).trans byte
  · obtain ⟨change, made, written | ⟨data, rfl⟩ | direct⟩ := intact.ram 0x8000 (by decide) (by
      rw [List.foldl_nil, ← final, lasts, zero]
      decide)
    · exact ⟨change, changes ▸ made, written⟩
    · simp at made
    · simp only [List.mem_cons, List.not_mem_nil, or_false] at made
      obtain rfl | rfl | rfl := made <;> cases direct

end Machine

end Spectrum48
