import Spectrum48.Processor.Scripted
import Spectrum48.Proofs.Beeper.Streaming
import Spectrum48.Proofs.Machine.Audio
import Spectrum48.Proofs.Machine.Slicing
import Spectrum48.Proofs.Machine.Stages
import Spectrum48.Proofs.Numeric.Double

/-!
# Pauses

While a machine is paused, time passes it by, and whoever asks for sound samples is heard by the
beeper alone. When it goes on, it forgets what host time was left before the pause, and the host's
timestamp, so that the first timestamp afterwards is only remembered. From there on timestamps are
ticks of the host time between them: neither a frame of the time before the pause nor one of the
pause itself is made up for.
-/

namespace Spectrum48.Machine

variable {τ σ : Type}

/-! ### What is done during a pause -/

/-- Whether an operation lets time pass, pauses, or asks for sound samples. -/
def Operation.isPastime : Operation τ → Bool
  | .tick _ | .tickAt _ | .pause | .render _ => true
  | .loadRom _ | .loadSnapshot _ | .stepFrame | .resume | .reset | .key _ _ | .poke _ _
  | .loadRam _ _ | .attachAudio _ => false

/-- The requests for sound samples in a history, as the beeper gets them. -/
def soundRequests (history : List (Operation τ)) : List (Beeper.Event τ) :=
  history.filterMap fun
    | .render count => some (.render count)
    | _ => none

/-- The reply of a paused machine to time and to another pause. -/
def pausedReply : Operation τ → Reply
  | .tick _ | .tickAt _ => .frames 0
  | _ => .done

variable [Scalar τ] [Processor σ]

/-- The beeper alone answers a request for sound samples. -/
theorem perform_render (machine : Machine τ σ) (count : Nat) :
    ((machine.beeper.render count).after? = none → machine.perform (.render count) = none) ∧
    ∀ after, (machine.beeper.render count).after? = some after →
      ∃ reply, machine.perform (.render count) = some (reply, machine.withBeeper after) := by
  change (_ → machine.render count = none) ∧ ∀ after, _ → ∃ reply, machine.render count = _
  unfold render
  rw [← beeper]
  cases machine.beeper.render count with
  | heard samples after =>
    refine ⟨nofun, fun _ same => ?_⟩
    cases same
    exact ⟨.samples samples, rfl⟩
  | unmixable after =>
    refine ⟨nofun, fun _ same => ?_⟩
    cases same
    exact ⟨.unmixable, rfl⟩
  | endless => exact ⟨fun _ => rfl, nofun⟩

/-- A paused machine lets time pass by, and stays paused if it is paused again. -/
theorem perform_of_paused {machine : Machine τ σ} (paused : machine.state = .paused)
    {operation : Operation τ} (pastime : operation.isPastime = true)
    (silent : operation.isRender = false) :
    machine.perform operation = some (pausedReply operation, machine) := by
  obtain ⟨config, bus, cpu, clock, picture, state⟩ := machine
  cases paused
  cases operation with
  | tick | tickAt | pause => rfl
  | render => cases silent
  | loadRom | loadSnapshot | stepFrame | resume | reset | key | poke | loadRam | attachAudio =>
    cases pastime

/-- During a pause only the beeper changes, and only through requests for sound samples. Everything
else is answered as if nothing could happen. -/
theorem performAll_of_paused {machine : Machine τ σ} (paused : machine.state = .paused)
    {between : List (Operation τ)}
    (pastimes : ∀ operation ∈ between, operation.isPastime = true) :
    (machine.beeper.performAll (soundRequests between) = none →
      machine.performAll between = none) ∧
    ∀ heard, machine.beeper.performAll (soundRequests between) = some heard →
      ∃ replies, machine.performAll between = some (replies, machine.withBeeper heard) ∧
        emulationReplies between replies = (withoutRenders between).map pausedReply := by
  induction between generalizing machine with
  | nil =>
    exact ⟨fun stuck => absurd stuck (Option.some_ne_none _), fun _ same =>
      Option.some.inj same ▸ ⟨[], rfl, rfl⟩⟩
  | cons operation rest ih =>
    obtain ⟨pastime, others⟩ := List.forall_mem_cons.1 pastimes
    cases silent : operation.isRender with
    | false =>
      obtain ⟨hangs, returns⟩ := ih paused others
      have performed := perform_of_paused paused pastime silent
      have unheard : soundRequests (operation :: rest) = soundRequests rest := by
        cases operation with
        | render => cases silent
        | _ => rfl
      rw [unheard, performAll, performed, withoutRenders_cons silent]
      dsimp only
      refine ⟨fun stuck => ?_, fun heard listened => ?_⟩
      · rw [hangs stuck]
      · obtain ⟨replies, done, same⟩ := returns heard listened
        refine ⟨pausedReply operation :: replies, ?_, ?_⟩
        · rw [done]
        · rw [emulationReplies_cons silent, same, List.map_cons]
    | true =>
      obtain ⟨count, rfl⟩ : ∃ count, operation = .render count := by
        cases operation with
        | render count => exact ⟨count, rfl⟩
        | _ => cases silent
      obtain ⟨endless, answers⟩ := machine.perform_render count
      have listened : machine.beeper.performAll (soundRequests (.render count :: rest)) =
          (machine.beeper.render count).after?.bind fun next =>
            next.performAll (soundRequests rest) := rfl
      rw [listened, performAll, withoutRenders_render]
      cases rendered : (machine.beeper.render count).after? with
      | none =>
        rw [endless rendered]
        exact ⟨fun _ => rfl, fun _ heard => absurd heard.symm (Option.some_ne_none _)⟩
      | some next =>
        obtain ⟨reply, performed⟩ := answers next rendered
        have waiting : (machine.withBeeper next).state = .paused := paused
        obtain ⟨hangs, returns⟩ := ih waiting others
        rw [performed]
        dsimp only [Option.bind_some]
        refine ⟨fun stuck => ?_, fun heard listened => ?_⟩
        · rw [hangs stuck]
        · obtain ⟨replies, done, same⟩ := returns heard listened
          refine ⟨reply :: replies, ?_, ?_⟩
          · rw [done]
            rfl
          · rw [← same]
            rfl

/-! ### Timestamps after a pause -/

/-- The machine with another timestamp remembered. -/
def withTimestamp (machine : Machine τ σ) (last : Option τ) : Machine τ σ :=
  machine.withHostTime machine.clock.unspent last

/-- A frame does not depend on the timestamp. -/
theorem stepFrame_withTimestamp (machine : Machine τ σ) (last : Option τ) :
    (machine.withTimestamp last).stepFrame =
      machine.stepFrame.map fun after => after.withTimestamp last := by
  rw [withTimestamp, stepFrame_withHostTime]
  cases stepped : machine.stepFrame with
  | none => rfl
  | some after =>
    rw [Option.map_some, Option.map_some, withTimestamp, unspent_stepFrame stepped]

/-- The frames that are due do not depend on the timestamp. -/
theorem runDueFrames_withTimestamp (limit frames : Nat) (machine : Machine τ σ)
    (last : Option τ) :
    runDueFrames limit frames (machine.withTimestamp last) =
      (runDueFrames limit frames machine).map fun (count, after) =>
        (count, after.withTimestamp last) := by
  induction limit generalizing frames machine with
  | zero =>
    unfold runDueFrames
    change (if machine.clock.frameDue = true then _ else _) = _
    split <;> rfl
  | succ limit ih =>
    unfold runDueFrames
    rw [stepFrame_withTimestamp]
    change (if machine.clock.frameDue = true then _ else _) = _
    split
    · cases machine.stepFrame with
      | none => rfl
      | some next => exact ih (frames + 1) next
    · rfl

/-- On a running machine that remembers a timestamp, a timestamp is a tick of the time since
then. -/
theorem perform_tickAt_withTimestamp {machine : Machine τ σ} (running : machine.state = .running)
    (last timestamp : τ) :
    (machine.withTimestamp (some last)).perform (.tickAt timestamp) =
      (machine.perform (.tick (timestamp - last))).map fun (reply, after) =>
        (reply, after.withTimestamp (some timestamp)) := by
  let passed : Machine τ σ := { machine with clock := machine.clock.elapse (timestamp - last) }
  have caught : (passed.withTimestamp (some timestamp)).catchUp =
      passed.catchUp.map fun (count, after) => (count, after.withTimestamp (some timestamp)) :=
    runDueFrames_withTimestamp _ 0 passed (some timestamp)
  have stillRunning : (machine.withTimestamp (some last)).state = .running := running
  have timed : (machine.withTimestamp (some last)).tickAt timestamp =
      (passed.withTimestamp (some timestamp)).catchUp.map fun (count, after) =>
        (.ok count, after) :=
    advance_of_running stillRunning fun clock => clock.elapseTo timestamp
  have ticked : machine.tick (timestamp - last) =
      passed.catchUp.map fun (count, after) => (.ok count, after) := advance_of_running running _
  change ((machine.withTimestamp (some last)).tickAt timestamp).map _ =
    ((machine.tick (timestamp - last)).map _).map _
  rw [timed, ticked, caught, Option.map_map, Option.map_map, Option.map_map, Option.map_map]
  rfl

/-- A tick keeps a machine running. -/
theorem state_tick {machine after : Machine τ σ} (running : machine.state = .running) {delta : τ}
    {reply : Reply} (performed : machine.perform (.tick delta) = some (reply, after)) :
    after.state = .running := by
  obtain ⟨⟨result, final⟩, ticked, same⟩ := Option.map_eq_some_iff.1 performed
  rw [tick, advance_of_running running] at ticked
  obtain ⟨⟨count, caught⟩, returned, same'⟩ := Option.map_eq_some_iff.1 ticked
  cases same
  cases same'
  exact (state_catchUp returned).trans running

/-- The host time between consecutive timestamps. -/
def lapses (first : τ) (timestamps : List τ) : List τ :=
  List.zipWith (· - ·) timestamps (first :: timestamps)

/-- On a running machine that remembers a timestamp, timestamps are ticks of the time between
them. -/
theorem performAll_map_tickAt {machine : Machine τ σ} (running : machine.state = .running)
    (first : τ) (timestamps : List τ) :
    (machine.withTimestamp (some first)).performAll (timestamps.map .tickAt) =
      (machine.performAll ((lapses first timestamps).map .tick)).map fun (replies, after) =>
        (replies, after.withTimestamp (some (timestamps.getLast?.getD first))) := by
  induction timestamps generalizing machine first with
  | nil => rfl
  | cons timestamp rest ih =>
    have split : lapses first (timestamp :: rest) =
        (timestamp - first) :: lapses timestamp rest := rfl
    rw [split, List.map_cons, List.map_cons, performAll, performAll,
      perform_tickAt_withTimestamp running]
    cases performed : machine.perform (.tick (timestamp - first)) with
    | none => rfl
    | some result =>
      obtain ⟨reply, next⟩ := result
      have more := ih (state_tick running performed) timestamp
      dsimp only [Option.map_some]
      rw [more]
      cases next.performAll ((lapses timestamp rest).map .tick) with
      | none => rfl
      | some result =>
        rw [List.getLast?_cons]
        rfl

/-- A timestamp with which no frame comes due runs none. -/
theorem perform_tickAt_of_early {machine : Machine τ σ} (running : machine.state = .running)
    {timestamp : τ} (early : (machine.clock.elapseTo timestamp).frameDue = false) :
    machine.perform (.tickAt timestamp) =
      some (.frames 0, { machine with clock := machine.clock.elapseTo timestamp }) := by
  let timed : Machine τ σ := { machine with clock := machine.clock.elapseTo timestamp }
  have none_due : timed.clock.frameDue = false := early
  have ticked : machine.tickAt timestamp =
      timed.catchUp.map fun (count, after) => (.ok count, after) := advance_of_running running _
  rw [perform, ticked, catchUp_of_not_due none_due]
  rfl

/-- On a running machine that remembers no timestamp and has no host time left, the first timestamp
is only remembered, if a frame takes time. -/
theorem perform_tickAt_of_forgotten {machine : Machine τ σ} (running : machine.state = .running)
    (early : ¬machine.clock.frameTime ≤ Scalar.zero) (timestamp : τ) :
    (machine.withHostTime Scalar.zero none).perform (.tickAt timestamp) =
      some (.frames 0, machine.withHostTime Scalar.zero (some timestamp)) := by
  have stillRunning : (machine.withHostTime Scalar.zero none).state = .running := running
  have none_due :
      ((machine.withHostTime Scalar.zero none).clock.elapseTo timestamp).frameDue = false :=
    decide_eq_false early
  exact perform_tickAt_of_early stillRunning none_due

/-! ### The pause as a whole -/

/-- A running machine that is paused and resumed has forgotten the host's time, and is as it was
otherwise, apart from what the beeper has been asked for. -/
theorem performAll_pause_resume {machine : Machine τ σ} (running : machine.state = .running)
    {between : List (Operation τ)}
    (pastimes : ∀ operation ∈ between, operation.isPastime = true) :
    (machine.beeper.performAll (soundRequests between) = none →
      machine.performAll (.pause :: (between ++ [.resume])) = none) ∧
    ∀ heard, machine.beeper.performAll (soundRequests between) = some heard →
      ∃ replies,
        machine.performAll (.pause :: (between ++ [.resume])) =
          some (.done :: (replies ++ [.done]),
            (machine.withBeeper heard).withHostTime Scalar.zero none) ∧
        emulationReplies between replies = (withoutRenders between).map pausedReply := by
  let paused : Machine τ σ := { machine with state := .paused }
  have live : machine.hasFirmware = true := by
    rw [hasFirmware, running]
    rfl
  have halted : machine.perform .pause = some (.done, paused) := by
    rw [perform, pause, if_pos live]
    rfl
  obtain ⟨hangs, returns⟩ := performAll_of_paused (rfl : paused.state = .paused) pastimes
  rw [performAll, halted]
  dsimp only
  rw [performAll_append]
  refine ⟨fun stuck => ?_, fun heard listened => ?_⟩
  · rw [hangs stuck]
    rfl
  · obtain ⟨replies, done, same⟩ := returns heard listened
    have resumed : (paused.withBeeper heard).performAll [.resume] =
        some ([.done], (machine.withBeeper heard).withHostTime Scalar.zero none) := by
      obtain ⟨config, bus, cpu, clock, picture, state⟩ := machine
      cases running
      rfl
    refine ⟨replies, ?_, same⟩
    rw [done, Option.bind_some]
    dsimp only
    rw [resumed]
    rfl

/-- Whatever a machine has been through, if it is running, then a pause loses nothing and replays
nothing. During the pause every tick and every timestamp is answered with no frames, and the pause
ends if all requests for sound samples in it do. Then the machine runs as before, everything but the
beeper as it was, with no host time left and no timestamp remembered. The first timestamp runs no
frame, whatever it is, and all that follow are ticks of the host time between them. -/
theorem pause_and_resume {config : Config Float} {cpu : σ} {start machine : Machine Float σ}
    (built : build config cpu = .ok start) {history : List (Operation Float)}
    {replies : List Reply} (reached : start.performAll history = some (replies, machine))
    (running : machine.state = .running) {between : List (Operation Float)}
    (pastimes : ∀ operation ∈ between, operation.isPastime = true) :
    (machine.beeper.performAll (soundRequests between) = none →
      machine.performAll (.pause :: (between ++ [.resume])) = none) ∧
    ∀ heard, machine.beeper.performAll (soundRequests between) = some heard →
      let after := (machine.withBeeper heard).withHostTime Scalar.zero none
      (∃ replies,
        machine.performAll (.pause :: (between ++ [.resume])) =
          some (.done :: (replies ++ [.done]), after) ∧
        emulationReplies between replies = (withoutRenders between).map pausedReply) ∧
      after.state = .running ∧
      (∀ timestamp, after.perform (.tickAt timestamp) =
        some (.frames 0, after.withHostTime Scalar.zero (some timestamp))) ∧
      ∀ timestamp timestamps,
        after.performAll (.tickAt timestamp :: timestamps.map .tickAt) =
          (after.performAll ((lapses timestamp timestamps).map .tick)).map
            fun (replies, last) =>
              (.frames 0 :: replies,
                last.withTimestamp (some (timestamps.getLast?.getD timestamp))) := by
  obtain ⟨hangs, returns⟩ := performAll_pause_resume running pastimes
  refine ⟨hangs, fun heard listened => ?_⟩
  intro after
  have early : ¬after.clock.frameTime ≤ Scalar.zero := by
    change ¬machine.clock.frameTime ≤ Scalar.zero
    rw [(timing_performAll built reached).1]
    exact fun below => Numeric.not_lt_of_le below (clock_of_build built).1.frameTime_pos
  have stillRunning : after.state = .running := running
  have first (timestamp : Float) : after.perform (.tickAt timestamp) =
      some (.frames 0, after.withHostTime Scalar.zero (some timestamp)) :=
    perform_tickAt_of_forgotten stillRunning early timestamp
  refine ⟨returns heard listened, stillRunning, first, fun timestamp timestamps => ?_⟩
  have later := performAll_map_tickAt stillRunning timestamp timestamps
  have remembered : after.withHostTime Scalar.zero (some timestamp) =
      after.withTimestamp (some timestamp) := rfl
  rw [performAll, first, remembered]
  dsimp only
  rw [later]
  cases after.performAll ((lapses timestamp timestamps).map .tick) <;> rfl

/-- A second of time, a timestamp, a request for samples and another pause. -/
def idleSecond : List (Operation Float) := [.tick 1000, .tickAt 5, .render 2, .pause]

/-- A machine with half a frame's time left is paused for a second and resumed: that time and the
second are forgotten, and so is the timestamp. -/
theorem pause_and_resume_of_idleSecond :
    ∃ (start machine after : Machine Float Scripted) (replies told : List Reply)
      (firmware : Array UInt8),
      build .standard (.ofScript #[] false false) = .ok start ∧
      start.performAll [.loadRom firmware, .tickAt 3, .tickAt 13] = some (replies, machine) ∧
      machine.state = .running ∧ machine.clock.unspent = 10 ∧
      machine.clock.lastTimestamp = some 13 ∧
      machine.performAll (.pause :: (idleSecond ++ [.resume])) =
        some (.done :: (told ++ [.done]), after) ∧
      emulationReplies idleSecond told = [.frames 0, .frames 0, .done] ∧
      after.state = .running ∧ after.clock.unspent = 0 ∧ after.clock.lastTimestamp = none ∧
      ∃ next, after.perform (.tickAt 5000) = some (.frames 0, next) := by
  have valid : (Config.standard : Config Float).Valid := by decide +kernel
  have built := build_eq_new valid (Scripted.ofScript #[] false false)
  generalize image : Array.replicate 0x4000 (0xC9 : UInt8) = firmware
  have fits : firmware.size = Memory.romSize := by
    rw [← image, Array.size_replicate, Memory.romSize]
  let first : Clock Float := (Clock.ofConfig Config.standard).resetBaseline.elapseTo 3
  let second : Clock Float := first.elapseTo 13
  let started : Machine Float Scripted :=
    (new .standard (.ofScript #[] false false)).started firmware
  let machine : Machine Float Scripted := { started with clock := second }
  have loaded : (new .standard (.ofScript #[] false false)).perform (.loadRom firmware) =
      some (.done, started) := by
    have same : (new .standard (.ofScript #[] false false)).loadRom firmware = (.ok (), started) :=
      if_pos fits
    rw [perform, same]
    rfl
  have remembered : started.perform (.tickAt 3) =
      some (.frames 0, { started with clock := first }) :=
    perform_tickAt_of_early rfl (by decide +kernel : first.frameDue = false)
  have passed : ({ started with clock := first } : Machine Float Scripted).perform (.tickAt 13) =
      some (.frames 0, machine) :=
    perform_tickAt_of_early rfl (by decide +kernel : second.frameDue = false)
  have reached : (new .standard (.ofScript #[] false false)).performAll
      [.loadRom firmware, .tickAt 3, .tickAt 13] =
        some ([.done, .frames 0, .frames 0], machine) := by
    simp only [performAll, loaded, remembered, passed]
  have half : machine.clock.unspent = 10 := (by decide +kernel : second.unspent = 10)
  have nothing : (Scalar.zero : Float) = 0 := by decide +kernel
  have pastimes : ∀ operation ∈ idleSecond, operation.isPastime = true := by decide
  obtain ⟨heard, listened⟩ : ∃ heard,
      machine.beeper.performAll (soundRequests idleSecond) = some heard := ⟨_, rfl⟩
  obtain ⟨⟨told, paused, told_eq⟩, running, next, -⟩ :=
    (pause_and_resume built reached rfl pastimes).2 heard listened
  exact ⟨_, machine, _, _, told, firmware, built, reached, rfl, half, rfl, paused, told_eq, running,
    nothing, rfl, _, next 5000⟩

end Spectrum48.Machine
