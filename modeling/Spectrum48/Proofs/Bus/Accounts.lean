import Spectrum48.Proofs.Bus.Trace

/-!
# The accounts of an instruction

The accesses of an instruction are charged for contended memory, and its writes to the circuit's
ports set the border and toggle the speaker. The extra cycles start over with every instruction. The
speaker bit does not: whether a write toggles it depends on the write before it, however many
instructions ago that was.
-/

namespace Spectrum48

/-- The byte that an access writes to the circuit, if it does. -/
def BusAccess.ulaByte? : BusAccess → Option UInt8
  | .writePort port value => if Ula.answersOn port then some value else none
  | .readMemory _ | .writeMemory _ _ | .readPort _ => none

/-- The last byte that accesses write to the circuit, if any does. -/
def lastUlaByte? (accesses : List BusAccess) : Option UInt8 :=
  (accesses.filterMap BusAccess.ulaByte?).getLast?

/-- The speaker bit after accesses to a new circuit. -/
def speakerBit (accesses : List BusAccess) : Bool :=
  (lastUlaByte? accesses).elim false Ula.speakerOf

/-- The instants at which accesses toggle the speaker, in order, after earlier ones: those of the
writes to the circuit whose speaker bit is not that of the write before. `timeAfter` gives the
instant after a number of extra cycles, of which an access to contended memory costs `penalty`. -/
def toggleInstants {τ : Type} (timeAfter : Nat → τ) (penalty : Nat)
    (earlier accesses : List BusAccess) : List τ :=
  (List.range accesses.length).filterMap fun index =>
    let before := accesses.take index
    (accesses[index]?.bind BusAccess.ulaByte?).bind fun value =>
      if Ula.speakerOf value = speakerBit (earlier ++ before) then none
      else some (timeAfter (penalty * before.countP BusAccess.isContended))

/-! ### One access more -/

/-- A byte that is written to an even port reaches the circuit. -/
theorem BusAccess.ulaByte?_of_answers {port : UInt16} (answers : Ula.answersOn port = true)
    (value : UInt8) : (writePort port value).ulaByte? = some value := if_pos answers

/-- A byte that is written to an odd port does not reach the circuit. -/
theorem BusAccess.ulaByte?_of_silent {port : UInt16} (silent : ¬Ula.answersOn port = true)
    (value : UInt8) : (writePort port value).ulaByte? = none := if_neg silent

/-- The last byte of a list is the last one of its rest, or else that of its head. -/
theorem lastUlaByte?_cons (request : BusAccess) (rest : List BusAccess) :
    lastUlaByte? (request :: rest) = (lastUlaByte? rest).or request.ulaByte? := by
  unfold lastUlaByte?
  cases written : request.ulaByte? with
  | none => rw [List.filterMap_cons_none written, Option.or_none]
  | some value =>
    rw [List.filterMap_cons_some written, List.getLast?_cons]
    cases (rest.filterMap BusAccess.ulaByte?).getLast? <;> rfl

/-- An access changes the speaker bit to that of the byte that it writes to the circuit. -/
theorem speakerBit_concat (earlier : List BusAccess) (request : BusAccess) :
    speakerBit (earlier ++ [request]) =
      request.ulaByte?.elim (speakerBit earlier) Ula.speakerOf := by
  unfold speakerBit lastUlaByte?
  rw [List.filterMap_append]
  cases written : request.ulaByte? with
  | none =>
    rw [List.filterMap_cons_none written, List.filterMap_nil, List.append_nil]
    rfl
  | some value =>
    rw [List.filterMap_cons_some written, List.filterMap_nil, List.getLast?_concat]
    rfl

/-- The first access toggles the speaker if its byte does, and the others do so after the extra
cycles that it costs. -/
theorem toggleInstants_cons {τ : Type} (timeAfter : Nat → τ) (penalty : Nat)
    (earlier : List BusAccess) (request : BusAccess) (rest : List BusAccess) :
    toggleInstants timeAfter penalty earlier (request :: rest) =
      (request.ulaByte?.bind fun value =>
          if Ula.speakerOf value = speakerBit earlier then none else some (timeAfter 0)).toList ++
        toggleInstants
          (fun extra => timeAfter ((if request.isContended then penalty else 0) + extra))
          penalty (earlier ++ [request]) rest := by
  have cost (before : List BusAccess) :
      penalty * (request :: before).countP BusAccess.isContended =
        (if request.isContended then penalty else 0) +
          penalty * before.countP BusAccess.isContended := by
    rw [List.countP_cons, Nat.mul_add, Nat.add_comm]
    split <;> simp
  have front (choose : Nat → Option τ) (later : List Nat) :
      (0 :: later).filterMap choose = (choose 0).toList ++ later.filterMap choose := by
    cases chosen : choose 0 with
    | none => rw [List.filterMap_cons_none chosen, Option.toList_none, List.nil_append]
    | some time => rw [List.filterMap_cons_some chosen, Option.toList_some, List.singleton_append]
  unfold toggleInstants
  rw [List.length_cons, List.range_succ_eq_map, front, List.filterMap_map]
  congr 1
  · simp only [List.take_zero, List.append_nil, List.countP_nil, Nat.mul_zero,
      List.getElem?_cons_zero, Option.bind_some]
  · congr 1
    funext index
    simp only [Function.comp_apply, List.getElem?_cons_succ, List.take_succ_cons, cost,
      List.append_assoc, List.singleton_append]

namespace BusProgram

/-- The program that makes accesses whatever answers them. -/
def ofAccesses : List BusAccess → BusProgram Unit
  | [] => .done ()
  | request :: rest => .access request fun _ => ofAccesses rest

end BusProgram

namespace Bus

variable {τ α : Type} [Scalar τ]

/-! ### Programs of accesses -/

/-- The accesses of a program. -/
def requests (program : BusProgram α) (bus : Bus τ) : List BusAccess :=
  (trace program bus).map Prod.fst

/-- The first access of a program comes before those that follow its answer. -/
theorem requests_access (request : BusAccess) (next : UInt8 → BusProgram α) (bus : Bus τ) :
    requests (.access request next) bus =
      request :: requests (next (bus.perform request).1) (bus.perform request).2 := rfl

/-- The bus after accesses. -/
def afterAccesses (bus : Bus τ) (accesses : List BusAccess) : Bus τ :=
  accesses.foldl (fun bus request => (bus.perform request).2) bus

/-- A list of accesses is a program whose accesses are the list. -/
theorem run_ofAccesses (accesses : List BusAccess) (bus : Bus τ) :
    (run (.ofAccesses accesses) bus).2 = bus.afterAccesses accesses ∧
    requests (.ofAccesses accesses) bus = accesses := by
  induction accesses generalizing bus with
  | nil => exact ⟨rfl, rfl⟩
  | cons request rest ih =>
    obtain ⟨after, same⟩ := ih (bus.perform request).2
    exact ⟨after, congrArg (request :: ·) same⟩

/-- An access changes border and speaker bit to those of the byte that it writes to the circuit. -/
theorem ula_perform (bus : Bus τ) (request : BusAccess) :
    (bus.perform request).2.ula.border = request.ulaByte?.elim bus.ula.border Ula.borderOf ∧
    (bus.perform request).2.ula.speaker = request.ulaByte?.elim bus.ula.speaker Ula.speakerOf := by
  cases request with
  | readMemory _ | writeMemory _ _ | readPort _ => exact ⟨rfl, rfl⟩
  | writePort port value =>
    change (bus.ula.write port value bus.now).border = _ ∧
      (bus.ula.write port value bus.now).speaker = _
    by_cases answers : Ula.answersOn port = true
    · rw [BusAccess.ulaByte?_of_answers answers, Ula.write, if_pos answers, Ula.setSpeaker]
      split
      · next same => exact ⟨rfl, same⟩
      · exact ⟨rfl, rfl⟩
    · rw [BusAccess.ulaByte?_of_silent answers, Ula.write, if_neg answers]
      exact ⟨rfl, rfl⟩

/-- A program leaves the border of the last byte that it writes to the circuit. -/
theorem border_run (program : BusProgram α) (bus : Bus τ) :
    (run program bus).2.ula.border =
      (lastUlaByte? (requests program bus)).elim bus.ula.border Ula.borderOf := by
  induction program generalizing bus with
  | done result => rfl
  | access request next ih =>
    rw [run_access, ih, requests_access, lastUlaByte?_cons, (bus.ula_perform request).1]
    cases lastUlaByte? (requests (next (bus.perform request).1) (bus.perform request).2) <;> rfl

/-- What an access tells the beeper. -/
theorem told_eq_toList (bus : Bus τ) (request : BusAccess) :
    bus.told request =
      (request.ulaByte?.bind fun value =>
        if Ula.speakerOf value = bus.ula.speaker then none else some bus.now).toList := by
  cases request with
  | readMemory _ | writeMemory _ _ | readPort _ => rfl
  | writePort port value =>
    change bus.ula.told port value bus.now = _
    by_cases answers : Ula.answersOn port = true
    · rw [BusAccess.ulaByte?_of_answers answers, Ula.told, if_pos answers, Option.bind_some]
      by_cases same : bus.ula.speaker = Ula.speakerOf value
      · rw [if_pos same, if_pos same.symm, Option.toList_none]
      · rw [if_neg same, if_neg (Ne.symm same), Option.toList_some]
    · rw [BusAccess.ulaByte?_of_silent answers, Ula.told, if_neg answers]
      rfl

/-- The beeper is told of the writes that toggle the speaker, each at the instant after the extra
cycles charged before it, and of nothing else. -/
theorem instants_eq_toggleInstants (program : BusProgram α) (bus : Bus τ)
    {earlier : List BusAccess} (bit : bus.ula.speaker = speakerBit earlier) :
    instants program bus =
      toggleInstants (fun extra => bus.timeAfter (bus.contention + extra))
        bus.memory.contentionPenalty earlier (requests program bus) := by
  induction program generalizing bus earlier with
  | done result => rfl
  | access request next ih =>
    have turned : (bus.perform request).2.ula.speaker = speakerBit (earlier ++ [request]) := by
      rw [(bus.ula_perform request).2, speakerBit_concat, bit]
    rw [instants, ih _ _ turned, requests_access, toggleInstants_cons, told_eq_toList, bit,
      contentionPenalty_perform, (bus.later_perform request).timeAfter, contention_perform]
    simp only [Nat.add_assoc]
    rfl

/-! ### Whole lives -/

/-- What a bus can be called for, and what can be done to its memory and its circuit. -/
inductive Call (τ : Type) where
  /-- Start an instruction at an emulated time. -/
  | beginInstruction (now : τ)
  /-- Take the extra cycles charged so far. -/
  | takeContention
  /-- Perform an access. -/
  | access (request : BusAccess)
  /-- Write a byte of memory without an access. -/
  | poke (address : UInt16) (value : UInt8)
  /-- Copy firmware to the start of memory. -/
  | loadRom (image : Array UInt8)
  /-- Copy a block to memory. -/
  | loadRam (start : UInt16) (block : Array UInt8)
  /-- Press or release the key of a host code. -/
  | code (code : UInt32) (down : Bool)
  /-- Press or release a key. -/
  | key (key : Key) (down : Bool)
  /-- Release all keys. -/
  | releaseAll
  /-- Set the border colour. -/
  | setBorder (value : UInt8)
  /-- Ask for sound samples. -/
  | render (count : Nat)

/-- The access of a call, if it is one. -/
def Call.access? : Call τ → Option BusAccess
  | .access request => some request
  | .beginInstruction _ | .takeContention | .poke _ _ | .loadRom _ | .loadRam _ _ | .code _ _
  | .key _ _ | .releaseAll | .setBorder _ | .render _ => none

/-- The bus after a call, unless it never returns. -/
def call (bus : Bus τ) : Call τ → Option (Bus τ)
  | .beginInstruction now => some (bus.beginInstruction now)
  | .takeContention => some bus.takeContention.2
  | .access request => some (bus.perform request).2
  | .poke address value => some { bus with memory := bus.memory.write address value }
  | .loadRom image => some { bus with memory := bus.memory.loadRom image }
  | .loadRam start block => some { bus with memory := bus.memory.loadRam start block }
  | .code code down => some (bus.setCode code down).2
  | .key key down =>
    some { bus with ula := { bus.ula with keyboard := bus.ula.keyboard.setKey key down } }
  | .releaseAll => some { bus with ula := { bus.ula with keyboard := bus.ula.keyboard.releaseAll } }
  | .setBorder value => some { bus with ula := bus.ula.setBorder value }
  | .render count => (bus.ula.beeper.render count).after?.map bus.withBeeper

/-- The bus after calls, one after the other. -/
def callAll (bus : Bus τ) (life : List (Call τ)) : Option (Bus τ) := life.foldlM call bus

/-- A bus of a configuration whose speaker bit is the one that accesses leave. -/
structure Kept (config : Config τ) (accesses : List BusAccess) (bus : Bus τ) : Prop where
  /-- A millisecond has the cycles of the configuration. -/
  cyclesPerMs : bus.cyclesPerMs = Scalar.ofNat config.cpuFrequency
  /-- An access to contended memory costs what the configuration says. -/
  contentionPenalty : bus.memory.contentionPenalty = config.contentionPenalty
  /-- The speaker bit is the one of the last byte written to the circuit. -/
  speaker : bus.ula.speaker = speakerBit accesses

/-- A new bus is kept, without accesses. -/
theorem kept_ofConfig (config : Config τ) : (ofConfig config).Kept config [] := ⟨rfl, rfl, rfl⟩

/-- What touches neither the speaker bit nor the price of an access keeps a bus, without a further
access. -/
theorem Kept.still {config : Config τ} {accesses : List BusAccess} {bus after : Bus τ}
    (kept : bus.Kept config accesses) (cycles : after.cyclesPerMs = bus.cyclesPerMs)
    (price : after.memory.contentionPenalty = bus.memory.contentionPenalty)
    (bit : after.ula.speaker = bus.ula.speaker) : after.Kept config (accesses ++ []) := by
  rw [List.append_nil]
  exact ⟨cycles.trans kept.cyclesPerMs, price.trans kept.contentionPenalty, bit.trans kept.speaker⟩

/-- A call keeps a bus, with the access that it is. -/
theorem Kept.call {config : Config τ} {accesses : List BusAccess} {bus after : Bus τ}
    (kept : bus.Kept config accesses) {request : Call τ} (called : bus.call request = some after) :
    after.Kept config (accesses ++ request.access?.toList) := by
  cases request with
  | access request =>
    cases called
    refine ⟨(bus.later_perform request).cyclesPerMs.trans kept.cyclesPerMs,
      (bus.contentionPenalty_perform request).trans kept.contentionPenalty, ?_⟩
    rw [(bus.ula_perform request).2, kept.speaker]
    exact (speakerBit_concat accesses request).symm
  | poke address value =>
    obtain rfl := Option.some.inj called
    exact kept.still rfl (bus.memory.contentionPenalty_write address value) rfl
  | loadRom image =>
    obtain rfl := Option.some.inj called
    exact kept.still rfl (bus.memory.contentionPenalty_loadRom image) rfl
  | loadRam start block =>
    obtain rfl := Option.some.inj called
    exact kept.still rfl (bus.memory.contentionPenalty_loadRam start block) rfl
  | render count =>
    obtain ⟨beeper, -, rfl⟩ := Option.map_eq_some_iff.1 called
    exact kept.still rfl rfl rfl
  | beginInstruction _ | takeContention | code _ _ | key _ _ | releaseAll | setBorder _ =>
    obtain rfl := Option.some.inj called
    exact kept.still rfl rfl rfl

/-- A life keeps a bus, with the accesses in it. -/
theorem Kept.callAll {config : Config τ} {accesses : List BusAccess} {bus after : Bus τ}
    (kept : bus.Kept config accesses) {life : List (Call τ)}
    (lived : bus.callAll life = some after) :
    after.Kept config (accesses ++ life.filterMap Call.access?) := by
  induction life generalizing bus accesses with
  | nil =>
    cases lived
    rw [List.filterMap_nil, List.append_nil]
    exact kept
  | cons request rest ih =>
    rw [Bus.callAll, List.foldlM_cons] at lived
    obtain ⟨middle, called, later⟩ := Option.bind_eq_some_iff.1 lived
    have whole := ih (kept.call called) later
    cases chosen : request.access? with
    | none =>
      rw [chosen, Option.toList_none, List.append_nil] at whole
      rwa [List.filterMap_cons_none chosen]
    | some access =>
      rw [chosen, Option.toList_some, List.append_assoc, List.singleton_append] at whole
      rwa [List.filterMap_cons_some chosen]

/-- A write to an odd port does nothing at all. -/
theorem perform_of_silent (bus : Bus τ) {port : UInt16} (silent : Ula.answersOn port = false)
    (value : UInt8) : bus.perform (.writePort port value) = (0, bus) := by
  have same : bus.ula.write port value bus.now = bus.ula := by
    rw [Ula.write, if_neg (Bool.eq_false_iff.1 silent)]
  exact congrArg (fun ula => (0, ({ bus with ula := ula } : Bus τ))) same

/-- Whatever a bus has been called for, the accesses of an instruction are charged the extra cycles
of those to contended memory, once. The border is that of the last byte written to the circuit.
Whatever beeper hears it, it is told of exactly the writes whose speaker bit is not that of the
write before, in this instruction or in any earlier one, each at the instant after the extra cycles
charged before it. Writes to odd ports do nothing. -/
theorem accounts_of_accesses (config : Config τ) {life : List (Call τ)} {bus : Bus τ}
    (lived : (ofConfig config).callAll life = some bus) (start : τ) (accesses : List BusAccess) :
    let earlier := life.filterMap Call.access?
    let after := (bus.beginInstruction start).afterAccesses accesses
    let instants := toggleInstants
      (fun extra => start + Scalar.ofNat extra / Scalar.ofNat config.cpuFrequency)
      config.contentionPenalty earlier accesses
    after.takeContention.1 = config.contentionPenalty * accesses.countP BusAccess.isContended ∧
    after.takeContention.2.takeContention.1 = 0 ∧
    after.ula.border = (lastUlaByte? accesses).elim bus.ula.border Ula.borderOf ∧
    (∀ beeper, ((bus.withBeeper beeper).beginInstruction start).afterAccesses accesses =
      after.withBeeper (instants.foldl Beeper.notify beeper)) ∧
    ∀ (other : Bus τ) (port : UInt16) (value : UInt8), Ula.answersOn port = false →
      other.perform (.writePort port value) = (0, other) := by
  intro earlier after instants
  obtain ⟨cyclesPerMs, contentionPenalty, speaker⟩ := (kept_ofConfig config).callAll lived
  rw [List.nil_append] at speaker
  let begun := bus.beginInstruction start
  obtain ⟨ends, same⟩ := run_ofAccesses accesses begun
  have told : Bus.instants (.ofAccesses accesses) begun = instants := by
    have reckoned (extra : Nat) : begun.timeAfter (begun.contention + extra) =
        start + Scalar.ofNat extra / Scalar.ofNat config.cpuFrequency := by
      rw [← cyclesPerMs]
      exact congrArg begun.timeAfter (Nat.zero_add extra)
    have bit : begun.ula.speaker = speakerBit earlier := speaker
    rw [instants_eq_toggleInstants _ begun bit, funext reckoned, same]
    exact congrArg (toggleInstants _ · earlier accesses) contentionPenalty
  refine ⟨?_, rfl, ?_, fun beeper => ?_, fun other port value silent =>
    other.perform_of_silent silent value⟩
  · change after.contention = _
    have charged := contention_run (.ofAccesses accesses) begun
    have counted : (trace (.ofAccesses accesses) begun).countP (fun made => made.1.isContended) =
        accesses.countP BusAccess.isContended :=
      List.countP_map.symm.trans (congrArg (List.countP BusAccess.isContended) same)
    rw [ends, counted] at charged
    rw [charged, ← contentionPenalty]
    exact Nat.zero_add _
  · have coloured := border_run (.ofAccesses accesses) begun
    rw [ends, same] at coloured
    exact coloured
  · have heard := congrArg Prod.snd (run_withBeeper (.ofAccesses accesses) begun beeper)
    rw [(run_ofAccesses accesses _).1] at heard
    dsimp only at heard
    rw [told, ends] at heard
    exact heard

/-- An instruction that turns the speaker on, and a request for samples. -/
def loudLife : List (Call Float) :=
  [.beginInstruction 10, .access (.readMemory 0x4000), .access (.writePort 0xFE 0x17),
   .takeContention, .poke 0x8000 3, .setBorder 1, .render 2]

/-- Accesses to contended memory and to other memory, a write that leaves the speaker on, one to an
odd port, and one that turns it off. -/
def quietingAccesses : List BusAccess :=
  [.readMemory 0x4000, .writePort 0xFE 0x12, .writeMemory 0x7FFF 1, .writePort 0xFF 0x00,
   .readMemory 0x8000, .writePort 0xFE 0x05, .readPort 0xFE, .writeMemory 0x0000 2]

/-- After a loud life the beeper is told once, after the extra cycles of two accesses. -/
theorem accounts_of_quietingAccesses :
    ∃ bus, (ofConfig Config.standard).callAll loudLife = some bus ∧
      let after := (bus.beginInstruction 20).afterAccesses quietingAccesses
      after.takeContention.1 = 16000 ∧ after.takeContention.2.takeContention.1 = 0 ∧
        after.ula.border = 5 ∧
        after.ula.beeper =
          bus.ula.beeper.notify (20 + Scalar.ofNat 16000 / Scalar.ofNat 3500) := by
  have returns : ((ofConfig Config.standard).callAll loudLife).isSome = true := by decide +kernel
  obtain ⟨bus, lived⟩ := Option.isSome_iff_exists.1 returns
  obtain ⟨charged, once, border, heard, -⟩ :=
    accounts_of_accesses Config.standard lived 20 quietingAccesses
  refine ⟨bus, lived, charged.trans (by decide), once, border, ?_⟩
  exact congrArg (fun other => other.ula.beeper) (heard bus.ula.beeper)

end Bus

end Spectrum48
