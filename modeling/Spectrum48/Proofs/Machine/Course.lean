import Spectrum48.Proofs.Beeper.Order
import Spectrum48.Proofs.Machine.Frames

/-!
# The course of a history

A history is a row of instructions with something in between: the host's operations, idling after a
halt, and the ends of frames. What lies in between never tells the beeper anything: it leaves the
timing alone, takes points from the beeper's queue at most, and moves on the frame's cycles unless
it moves the frame's budget from these to the completed frames.
-/

namespace Spectrum48.Machine

variable {τ σ : Type}

/-- What instants are reckoned with. -/
structure Timebase (τ : Type) where
  /-- Milliseconds of a frame. -/
  frameTime : τ
  /-- Cycles in a frame. -/
  cyclesPerFrame : Int
  /-- Cycles in a millisecond, on the clock. -/
  cyclesPerMs : τ
  /-- Cycles in a millisecond, on the bus. -/
  busCyclesPerMs : τ
  /-- The unchanging properties of the beeper. -/
  beeper : Beeper.Settings τ

/-- The beeper of a machine. -/
def beeper (machine : Machine τ σ) : Beeper τ := machine.bus.ula.beeper

/-- What the instants of a machine are reckoned with. -/
def timebase (machine : Machine τ σ) : Timebase τ where
  frameTime := machine.clock.frameTime
  cyclesPerFrame := machine.clock.cyclesPerFrame
  cyclesPerMs := machine.clock.cyclesPerMs
  busCyclesPerMs := machine.bus.cyclesPerMs
  beeper := machine.beeper.settings

/-- What may have happened to a machine between two instructions. -/
structure Between (machine after : Machine τ σ) : Prop where
  /-- Instants are reckoned with the same. -/
  timebase : after.timebase = machine.timebase
  /-- No points are queued. -/
  pending : after.beeper.pending.toList.Sublist machine.beeper.pending.toList
  /-- Cycles are spent, or the budget of a frame is moved to the completed frames. -/
  counters :
    after.clock.frameCount = machine.clock.frameCount ∧
      machine.clock.cycleCount ≤ after.clock.cycleCount ∨
    machine.clock.budgetExhausted = true ∧
      after.clock.frameCount = machine.clock.frameCount + 1 ∧
      after.clock.cycleCount = machine.clock.cycleCount - machine.clock.cyclesPerFrame

/-- Idling spends cycles between two instructions. -/
theorem between_idleToFrameEnd (machine : Machine τ σ) :
    machine.Between { machine with clock := machine.clock.idleToFrameEnd } := by
  refine ⟨rfl, List.Sublist.refl _, .inl ⟨rfl, ?_⟩⟩
  simp only [Clock.idleToFrameEnd, Clock.addCycles]
  omega

/-- Memory, keys, border, processor, host time and stage are all apart from the beeper and from what
instants are reckoned with. -/
theorem between_replace (machine : Machine τ σ) (memory : Memory) (keyboard : Keyboard)
    (border : UInt8) (cpu : σ) (unspent : τ) (last : Option τ) (state : RunState) :
    machine.Between
      { machine with
        bus := { machine.bus with
          memory := memory
          ula := { machine.bus.ula with keyboard := keyboard, border := border } }
        cpu := cpu
        clock := { machine.clock with unspent := unspent, lastTimestamp := last }
        state := state } :=
  ⟨rfl, List.Sublist.refl _, .inl ⟨rfl, Int.le_refl _⟩⟩

/-- Nothing may have happened between two instructions. -/
theorem Between.refl (machine : Machine τ σ) : machine.Between machine :=
  machine.between_replace _ _ _ _ _ _ _

/-- Pausing happens between two instructions. -/
theorem between_pause (machine : Machine τ σ) : machine.Between machine.pause.2 := by
  unfold pause
  split
  · exact machine.between_replace _ _ _ _ _ _ _
  · exact .refl machine

/-- A sound device is attached between two instructions. -/
theorem between_attachAudio (machine : Machine τ σ) (started : Except Fault Unit) :
    machine.Between (machine.attachAudio started).2 := by
  unfold attachAudio
  split <;> exact .refl machine

/-- A beeper with the same properties that has queued nothing is put into the machine. -/
theorem between_withBeeper {machine : Machine τ σ} {beeper : Beeper τ}
    (settings : beeper.settings = machine.beeper.settings)
    (left : beeper.pending.toList.Sublist machine.beeper.pending.toList) :
    machine.Between (machine.withBeeper beeper) := by
  refine ⟨?_, left, .inl ⟨rfl, Int.le_refl _⟩⟩
  unfold Machine.timebase
  rw [← settings]
  rfl

/-- Asking for sound samples takes points from the queue between two instructions. -/
theorem between_render {machine after : Machine τ σ} {count : Nat} {reply : Reply}
    (rendered : machine.render count = some (reply, after)) : machine.Between after := by
  have played {other : Beeper τ} (returned : (machine.beeper.render count).after? = some other) :
      machine.Between (machine.withBeeper other) :=
    between_withBeeper (Beeper.settings_render returned) (Beeper.sublist_render returned)
  unfold Machine.render at rendered
  split at rendered
  · next returned =>
    cases rendered
    refine played ?_
    unfold beeper
    rw [returned]
    rfl
  · next returned =>
    cases rendered
    refine played ?_
    unfold beeper
    rw [returned]
    rfl
  · cases rendered

section Host

variable [Scalar τ]

/-- Host time passes between two instructions. -/
theorem between_elapse (machine : Machine τ σ) (delta : τ) :
    machine.Between { machine with clock := machine.clock.elapse delta } :=
  machine.between_replace _ _ _ _ _ _ _

/-- Host time passes up to a timestamp between two instructions. -/
theorem between_elapseTo (machine : Machine τ σ) (timestamp : τ) :
    machine.Between { machine with clock := machine.clock.elapseTo timestamp } := by
  obtain ⟨unspent, only⟩ := machine.clock.elapseTo_eq timestamp
  rw [only]
  exact machine.between_replace _ _ _ _ _ _ _

/-- Resuming happens between two instructions. -/
theorem between_resume (machine : Machine τ σ) : machine.Between machine.resume.2 := by
  unfold resume
  split
  · exact machine.between_replace _ _ _ _ _ _ _
  · exact .refl machine
  · exact .refl machine

end Host

variable [Scalar τ] [Processor σ]

/-- Firmware is loaded between two instructions. -/
theorem between_loadRom (machine : Machine τ σ) (image : Array UInt8) :
    machine.Between (machine.loadRom image).2 := by
  unfold loadRom
  split
  · exact machine.between_replace _ _ _ _ _ _ _
  · exact .refl machine

omit [Scalar τ] in
/-- A snapshot is loaded between two instructions. -/
theorem between_loadSnapshot (machine : Machine τ σ) (data : Array UInt8) :
    machine.Between (machine.loadSnapshot data).2 := by
  unfold loadSnapshot
  split
  · exact machine.between_replace _ _ _ _ _ _ _
  · exact .refl machine

omit [Scalar τ] [Processor σ] in
/-- Showing what was drawn leaves the bus alone. -/
theorem bus_showDrawn (machine : Machine τ σ) (drawn : Except Fault Video.Picture) :
    (machine.showDrawn drawn).bus = machine.bus := by
  cases drawn <;> rfl

omit [Scalar τ] in
/-- An interrupt leaves the bus alone. -/
theorem bus_interrupt (machine : Machine τ σ) : machine.interrupt.bus = machine.bus := rfl

/-- Finishing a frame leaves the bus alone. -/
theorem bus_finishFrame (machine : Machine τ σ) : machine.finishFrame.bus = machine.bus := by
  rw [finishFrame, bus_interrupt, redraw, bus_showDrawn]
  rfl

omit [Processor σ] in
/-- The budget of a frame is moved to the completed frames between two instructions. -/
theorem between_of_endFrame {machine after : Machine τ σ}
    (spent : machine.clock.budgetExhausted = true) (bus : after.bus = machine.bus)
    (clock : after.clock = machine.clock.endFrame.2) : machine.Between after := by
  obtain ⟨elapsed, inverted, flashed⟩ := machine.clock.advanceFlash_eq
  refine ⟨?_, ?_, .inr ⟨spent, ?_, ?_⟩⟩
  · unfold Machine.timebase beeper
    rw [bus, clock]
    simp only [Clock.endFrame, flashed]
  · have same : after.beeper = machine.beeper := congrArg (fun bus => bus.ula.beeper) bus
    exact same ▸ List.Sublist.refl _
  · rw [clock, Clock.frameCount_endFrame]
  · rw [clock, Clock.cycleCount_endFrame]

/-- A frame is finished between two instructions. -/
theorem between_finishFrame {machine : Machine τ σ}
    (spent : machine.clock.budgetExhausted = true) : machine.Between machine.finishFrame :=
  between_of_endFrame spent machine.bus_finishFrame machine.clock_finishFrame

/-- A machine runs instructions, with something in between, and ends as another machine. The list
holds the machines at which the instructions start. -/
inductive Course : Machine τ σ → List (Machine τ σ) → Machine τ σ → Prop
  /-- Nothing happens. -/
  | done (machine : Machine τ σ) : Course machine [] machine
  /-- Something happens that is no instruction. -/
  | between {machine next after : Machine τ σ} {starts : List (Machine τ σ)}
    (passed : machine.Between next) (rest : Course next starts after) :
    Course machine starts after
  /-- An instruction is run while cycles of the frame are left. -/
  | instruction {machine after : Machine τ σ} {starts : List (Machine τ σ)}
    (unspent : machine.clock.budgetExhausted = false)
    (rest : Course machine.runInstruction starts after) :
    Course machine (machine :: starts) after

/-- A course can go on with another one. -/
theorem Course.append {machine next after : Machine τ σ} {first second : List (Machine τ σ)}
    (course : Course machine first next) (more : Course next second after) :
    Course machine (first ++ second) after := by
  induction course with
  | done => exact more
  | between passed _ ih => exact .between passed (ih more)
  | instruction unspent _ ih => exact .instruction unspent (ih more)

/-- A course of a machine whose end is the result, if there is one. -/
def Leads (machine : Machine τ σ) (starts : List (Machine τ σ))
    (result : Option (Machine τ σ)) : Prop :=
  ∃ last, Course machine starts last ∧ ∀ after, result = some after → last = after

namespace Leads

variable {machine next : Machine τ σ} {first second : List (Machine τ σ)}
  {result : Option (Machine τ σ)}

/-- A course leads to its end. -/
theorem of_course (course : Course machine first next) : Leads machine first (some next) :=
  ⟨next, course, fun _ same => Option.some.inj same⟩

/-- What never returns has come to some place. -/
theorem of_none (course : Course machine first next) : Leads machine first none :=
  ⟨next, course, fun _ same => nomatch same⟩

/-- What never returns has come as far as what returns. -/
theorem to_none (leads : Leads machine first result) : Leads machine first none := by
  obtain ⟨last, course, -⟩ := leads
  exact .of_none course

/-- What happens between two instructions leads on. -/
theorem between (passed : machine.Between next) : Leads machine [] (some next) :=
  .of_course (.between passed (.done next))

/-- A result is reached by a course. -/
theorem course (leads : Leads machine first (some next)) : Course machine first next := by
  obtain ⟨last, course, ends⟩ := leads
  exact ends next rfl ▸ course

/-- Where a course ends, another one can go on. -/
theorem append (course : Course machine first next) (more : Leads next second result) :
    Leads machine (first ++ second) result := by
  obtain ⟨last, rest, ends⟩ := more
  exact ⟨last, course.append rest, ends⟩

end Leads

/-- The course of the instructions of a frame. -/
theorem leads_runInstructions (limit : Nat) (machine : Machine τ σ) :
    Leads machine (instructionsRun limit machine) (runInstructions limit machine) := by
  induction limit generalizing machine with
  | zero =>
    unfold instructionsRun runInstructions
    split
    · exact .of_course (.done machine)
    · exact .of_none (.done machine)
  | succ limit ih =>
    unfold instructionsRun runInstructions
    split
    · exact .of_course (.done machine)
    · next unspent =>
      have unspent := Bool.eq_false_iff.2 unspent
      dsimp only
      split
      · have idle := between_idleToFrameEnd machine.runInstruction
        exact .of_course (.instruction unspent (.between idle (.done _)))
      · exact .append (.instruction unspent (.done _)) (ih machine.runInstruction)

/-- The course of a frame. -/
theorem leads_stepFrame (machine : Machine τ σ) :
    Leads machine machine.frameInstructions machine.stepFrame := by
  unfold frameInstructions stepFrame
  have run := leads_runInstructions machine.instructionLimit machine
  cases returned : runInstructions machine.instructionLimit machine with
  | none => exact run.to_none
  | some ran =>
    rw [returned] at run
    have spent := (keeps_runInstructions (fun _ => True) trivial (fun _ _ _ _ => trivial)
      (fun _ _ _ _ => trivial) returned).1
    have finish := Leads.append run.course (.between (between_finishFrame spent))
    rwa [List.append_nil] at finish

/-- The course of the frames that are due. -/
theorem leads_runDueFrames (limit frames : Nat) (machine : Machine τ σ) :
    Leads machine ((dueFrames limit machine).flatMap frameInstructions)
      ((runDueFrames limit frames machine).map Prod.snd) := by
  induction limit generalizing frames machine with
  | zero =>
    unfold dueFrames runDueFrames
    split
    · exact .of_none (.done machine)
    · exact .of_course (.done machine)
  | succ limit ih =>
    unfold dueFrames runDueFrames
    split
    · rw [List.flatMap_cons]
      have frame := leads_stepFrame machine
      cases stepped : machine.stepFrame with
      | none =>
        rw [List.flatMap_nil, List.append_nil]
        exact frame.to_none
      | some next =>
        rw [stepped] at frame
        exact .append frame.course (ih (frames + 1) next)
    · exact .of_course (.done machine)

/-- The course of a machine while host time passes. -/
theorem leads_advance (machine : Machine τ σ) {pass : Clock τ → Clock τ}
    (passed : machine.Between { machine with clock := pass machine.clock }) :
    Leads machine ((machine.advanceFrames pass).flatMap frameInstructions)
      ((machine.advance pass).map Prod.snd) := by
  by_cases running : machine.state = .running
  · have due := leads_runDueFrames
      (Scalar.withdrawals (pass machine.clock).unspent (pass machine.clock).frameTime) 0
      { machine with clock := pass machine.clock }
    rw [advanceFrames_of_running running, advance_of_running running, Option.map_map]
    exact .append (.between passed (.done _)) due
  · unfold advanceFrames advance
    cases stage : machine.state with
    | running => exact absurd stage running
    | paused | uninitialized | loading => exact .of_course (.done machine)

/-- The course of an operation. -/
theorem leads_perform (machine : Machine τ σ) (operation : Operation τ) :
    Leads machine ((machine.operationFrames operation).flatMap frameInstructions)
      ((machine.perform operation).map Prod.snd) := by
  cases operation with
  | tick delta =>
    have passed := @leads_advance _ _ _ _ machine (fun clock => clock.elapse delta)
      (machine.between_elapse delta)
    change Leads machine _ (((machine.tick delta).map _).map Prod.snd)
    rw [Option.map_map]
    exact passed
  | tickAt timestamp =>
    have passed := @leads_advance _ _ _ _ machine (fun clock => clock.elapseTo timestamp)
      (machine.between_elapseTo timestamp)
    change Leads machine _ (((machine.tickAt timestamp).map _).map Prod.snd)
    rw [Option.map_map]
    exact passed
  | stepFrame =>
    have whole : ((machine.perform .stepFrame).map Prod.snd : Option (Machine τ σ)) =
        machine.stepFrame := by
      change (machine.stepFrame.map _).map Prod.snd = _
      rw [Option.map_map]
      exact Option.map_id'
    change Leads machine ([machine].flatMap frameInstructions) _
    rw [whole, List.flatMap_singleton]
    exact machine.leads_stepFrame
  | loadRom image => exact .between (machine.between_loadRom image)
  | loadSnapshot data => exact .between (machine.between_loadSnapshot data)
  | pause => exact .between machine.between_pause
  | resume => exact .between machine.between_resume
  | reset => exact .between (machine.between_replace _ _ _ _ _ _ _)
  | render count =>
    change Leads machine [] ((machine.render count).map Prod.snd)
    cases rendered : machine.render count with
    | none => exact .of_none (.done machine)
    | some result => exact .between (between_render rendered)
  | attachAudio started => exact .between (machine.between_attachAudio started)
  | key code down => exact .between (machine.between_replace _ _ _ _ _ _ _)
  | poke address value => exact .between (machine.between_replace _ _ _ _ _ _ _)
  | loadRam first block => exact .between (machine.between_replace _ _ _ _ _ _ _)

/-- The course of a history. -/
theorem leads_performAll (machine : Machine τ σ) (history : List (Operation τ)) :
    Leads machine (machine.historyInstructions history)
      ((machine.performAll history).map Prod.snd) := by
  induction history generalizing machine with
  | nil => exact .of_course (.done machine)
  | cons operation rest ih =>
    have first := machine.leads_perform operation
    unfold historyInstructions historyFrames performAll
    rw [List.flatMap_append]
    cases performed : machine.perform operation with
    | none =>
      rw [List.flatMap_nil, List.append_nil]
      exact first.to_none
    | some result =>
      rw [performed] at first
      have more := Leads.append first.course (ih result.2)
      dsimp only
      cases done : result.2.performAll rest with
      | none =>
        rw [done] at more
        exact more
      | some result =>
        rw [done] at more
        exact more

end Spectrum48.Machine
