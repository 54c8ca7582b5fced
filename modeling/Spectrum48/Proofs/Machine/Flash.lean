import Mathlib.Algebra.Order.Archimedean.Basic
import Spectrum48.Proofs.Machine.Slicing

/-!
# The flash phase

The flash phase is to change once a flash period. The clock looks only at the ends of frames and
changes the phase at most once there, so it keeps the period exactly if a period is no shorter than
a frame. Otherwise the phase changes with every frame, and the time since the last change grows
beyond every bound.
-/

namespace Spectrum48

namespace Clock

/-! ### Calls -/

/-- What a clock can be called for. -/
inductive Call (τ : Type) where
  /-- Let host time pass. -/
  | elapse (delta : τ)
  /-- Let host time pass up to a timestamp. -/
  | elapseTo (timestamp : τ)
  /-- Forget the previous timestamp and unspent host time. -/
  | resetBaseline
  /-- Spend cycles. -/
  | addCycles (cycles : Nat)
  /-- Spend what is left of the frame's cycles. -/
  | idleToFrameEnd
  /-- Close the current frame. -/
  | endFrame

/-- Whether a call closes a frame. -/
def Call.isEndFrame {τ : Type} : Call τ → Bool
  | .endFrame => true
  | .elapse _ | .elapseTo _ | .resetBaseline | .addCycles _ | .idleToFrameEnd => false

/-- Whether an event is a change of the flash phase. -/
def Event.isFlashToggled : Event → Bool
  | .flashToggled _ => true
  | .frameEnd _ => false

section Calls

variable {τ : Type} [Scalar τ]

/-- Answer a call, with what happens in it. -/
def perform (clock : Clock τ) : Call τ → List Event × Clock τ
  | .elapse delta => ([], clock.elapse delta)
  | .elapseTo timestamp => ([], clock.elapseTo timestamp)
  | .resetBaseline => ([], clock.resetBaseline)
  | .addCycles cycles => ([], clock.addCycles cycles)
  | .idleToFrameEnd => ([], clock.idleToFrameEnd)
  | .endFrame => clock.endFrame

/-- Answer calls one after the other, with all that happens in them. -/
def performAll (clock : Clock τ) : List (Call τ) → List Event × Clock τ
  | [] => ([], clock)
  | call :: rest =>
    let (events, clock) := clock.perform call
    let (later, clock) := clock.performAll rest
    (events ++ later, clock)

end Calls

/-! ### Changes of the phase -/

/-- The flash phase after a number of changes. -/
def phaseAfter (changes : Nat) : Bool := changes % 2 == 1

/-- What happens at the end of a frame if the phase changes at the ends of frames, with `changes`
the number of changes up to each: the phases that it takes on, and then the end of the frame. -/
def frameEvents (changes : Nat → Nat) (frame : Nat) : List Event :=
  (List.range' (changes frame) (changes (frame + 1) - changes frame)).map
      (fun earlier => .flashToggled (phaseAfter (earlier + 1))) ++
    [.frameEnd (frame + 1)]

/-- One more change turns the phase over. -/
theorem phaseAfter_succ (changes : Nat) : phaseAfter (changes + 1) = !phaseAfter changes := by
  unfold phaseAfter
  rcases Nat.mod_two_eq_zero_or_one changes with even | odd
  · simp [Nat.add_mod, even]
  · simp [Nat.add_mod, odd]

/-- The changes in the first frames are counted. -/
theorem countP_frameEvents {changes : Nat → Nat} (start : changes 0 = 0)
    (mono : Monotone changes) (frames : Nat) :
    ((List.range frames).flatMap (frameEvents changes)).countP Event.isFlashToggled =
      changes frames := by
  induction frames with
  | zero => exact start.symm
  | succ frames ih =>
    have toggles (first count : Nat) :
        ((List.range' first count).map fun earlier =>
          Event.flashToggled (phaseAfter (earlier + 1))).countP Event.isFlashToggled = count := by
      rw [List.countP_eq_length.2, List.length_map, List.length_range']
      intro event member
      obtain ⟨earlier, -, rfl⟩ := List.mem_map.1 member
      rfl
    have later := mono (Nat.le_add_right frames 1)
    rw [List.range_succ, List.flatMap_append, List.countP_append, ih, List.flatMap_singleton,
      frameEvents, List.countP_append, toggles]
    simp only [Event.isFlashToggled, List.countP_singleton, Bool.false_eq_true, if_false]
    omega

end Clock

namespace Config

/-- The changes of the flash phase that are due after a number of frames: one for each period. -/
def dueChanges (config : Config ℚ) (frames : Nat) : Nat :=
  ⌊frames * config.frameTime / config.flashPeriod⌋₊

/-- The changes of the flash phase after a number of frames: those due, but one in a frame. -/
def flashChanges (config : Config ℚ) (frames : Nat) : Nat := min (config.dueChanges frames) frames

variable {config : Config ℚ}

/-- A number of changes is due exactly if what is left of the time is less than a period. -/
theorem eq_dueChanges_iff (valid : config.Valid) {frames count : Nat} :
    count = config.dueChanges frames ↔
      0 ≤ frames * config.frameTime - count * config.flashPeriod ∧
        frames * config.frameTime - count * config.flashPeriod < config.flashPeriod := by
  have positive : (0 : ℚ) < config.frameTime := valid.frameTime_pos
  exact Machine.eq_floor_iff valid.flashPeriod_pos
    (mul_nonneg (Nat.cast_nonneg frames) positive.le)

/-- If a period is no shorter than a frame, then all changes that are due are made. -/
theorem flashChanges_eq_dueChanges (valid : config.Valid)
    (long : config.frameTime ≤ config.flashPeriod) : config.flashChanges = config.dueChanges := by
  funext frames
  have positive : (0 : ℚ) < config.flashPeriod := valid.flashPeriod_pos
  refine min_eq_left (Nat.floor_le_of_le ?_)
  rw [div_le_iff₀ positive]
  exact mul_le_mul_of_nonneg_left long (Nat.cast_nonneg frames)

/-- If a period is shorter than a frame, then the phase changes with every frame. -/
theorem flashChanges_eq_self (valid : config.Valid) (short : config.flashPeriod < config.frameTime)
    (frames : Nat) : config.flashChanges frames = frames := by
  have positive : (0 : ℚ) < config.flashPeriod := valid.flashPeriod_pos
  refine min_eq_right (Nat.le_floor ?_)
  rw [le_div_iff₀ positive]
  exact mul_le_mul_of_nonneg_left short.le (Nat.cast_nonneg frames)

/-- The phase changes with a frame exactly if the time since the last change reaches a period. -/
theorem flashChanges_succ (valid : config.Valid) (frames : Nat) :
    config.flashChanges (frames + 1) =
      config.flashChanges frames +
        if config.flashPeriod ≤
            frames * config.frameTime - config.flashChanges frames * config.flashPeriod
              + config.frameTime
        then 1 else 0 := by
  rcases le_or_gt config.frameTime config.flashPeriod with long | short
  · rw [flashChanges_eq_dueChanges valid long]
    obtain ⟨nonneg, below⟩ := (eq_dueChanges_iff valid).1 (Eq.refl (config.dueChanges frames))
    have positive : (0 : ℚ) < config.frameTime := valid.frameTime_pos
    symm
    rw [eq_dueChanges_iff valid]
    split
    · push_cast
      constructor <;> linarith
    · push_cast
      constructor <;> linarith
  · simp only [flashChanges_eq_self valid short]
    have room := mul_le_mul_of_nonneg_left short.le (Nat.cast_nonneg frames : (0 : ℚ) ≤ frames)
    rw [if_pos (by linarith)]

/-- No change is made before the first frame. -/
theorem flashChanges_zero (config : Config ℚ) : config.flashChanges 0 = 0 := Nat.min_zero _

/-- Changes are not taken back. -/
theorem monotone_flashChanges (valid : config.Valid) : Monotone config.flashChanges :=
  monotone_nat_of_le_succ fun frames =>
    (Nat.le_add_right _ _).trans_eq (flashChanges_succ valid frames).symm

end Config

namespace Clock

variable {config : Config ℚ} {clock : Clock ℚ}

/-! ### The phase of a clock -/

/-- A clock that shows the flash phase after the changes that its frames have brought. -/
structure InPhase (config : Config ℚ) (clock : Clock ℚ) : Prop where
  /-- The frames are those of the configuration. -/
  frameTime : clock.frameTime = config.frameTime
  /-- The period is that of the configuration. -/
  flashPeriod : clock.flashPeriod = config.flashPeriod
  /-- The changes have used up a period each. -/
  flashElapsed : clock.flashElapsed =
    clock.frameCount * config.frameTime
      - config.flashChanges clock.frameCount * config.flashPeriod
  /-- The phase is the one after the changes. -/
  flashInverted : clock.flashInverted = phaseAfter (config.flashChanges clock.frameCount)

/-- A new clock is in phase. -/
theorem inPhase_ofConfig (config : Config ℚ) : InPhase config (ofConfig config) where
  frameTime := rfl
  flashPeriod := rfl
  flashElapsed := by
    simp only [ofConfig, config.flashChanges_zero, Nat.cast_zero, zero_mul, sub_zero]
    rfl
  flashInverted := by
    simp only [ofConfig, config.flashChanges_zero]
    rfl

/-- If a period is over with the frame, then the end of the frame changes the phase. -/
theorem endFrame_of_due {τ : Type} [Scalar τ] {clock : Clock τ}
    (due : clock.flashPeriod ≤ clock.flashElapsed + clock.frameTime) :
    clock.endFrame =
      ([.flashToggled (!clock.flashInverted), .frameEnd (clock.frameCount + 1)],
       { clock with
         flashElapsed := clock.flashElapsed + clock.frameTime - clock.flashPeriod
         flashInverted := !clock.flashInverted
         cycleCount := clock.cycleCount - clock.cyclesPerFrame
         frameCount := clock.frameCount + 1
         unspent := clock.unspent - clock.frameTime }) := by
  simp only [endFrame, advanceFlash, if_pos due, List.singleton_append]

/-- If no period is over with the frame, then the end of the frame leaves the phase. -/
theorem endFrame_of_not_due {τ : Type} [Scalar τ] {clock : Clock τ}
    (early : ¬clock.flashPeriod ≤ clock.flashElapsed + clock.frameTime) :
    clock.endFrame =
      ([.frameEnd (clock.frameCount + 1)],
       { clock with
         flashElapsed := clock.flashElapsed + clock.frameTime
         cycleCount := clock.cycleCount - clock.cyclesPerFrame
         frameCount := clock.frameCount + 1
         unspent := clock.unspent - clock.frameTime }) := by
  simp only [endFrame, advanceFlash, if_neg early, List.nil_append]

/-- The end of a frame brings the change of the phase that is due, if there is one, and keeps the
clock in phase. -/
theorem InPhase.endFrame (inPhase : InPhase config clock) (valid : config.Valid) :
    clock.endFrame.1 = frameEvents config.flashChanges clock.frameCount ∧
      InPhase config clock.endFrame.2 := by
  have next := Config.flashChanges_succ valid clock.frameCount
  rw [← inPhase.flashElapsed, ← inPhase.frameTime, ← inPhase.flashPeriod] at next
  by_cases due : clock.flashPeriod ≤ clock.flashElapsed + clock.frameTime
  · rw [if_pos due] at next
    have turned : (!clock.flashInverted) =
        phaseAfter (config.flashChanges clock.frameCount + 1) := by
      rw [phaseAfter_succ, inPhase.flashInverted]
    rw [endFrame_of_due due]
    refine ⟨?_, inPhase.frameTime, inPhase.flashPeriod, ?_, ?_⟩
    · rw [frameEvents, next, Nat.add_sub_cancel_left, turned]
      rfl
    · simp only [next, inPhase.flashElapsed, inPhase.frameTime, inPhase.flashPeriod]
      push_cast
      ring
    · exact turned.trans (congrArg phaseAfter next.symm)
  · simp only [if_neg due, add_zero] at next
    rw [endFrame_of_not_due due]
    refine ⟨?_, inPhase.frameTime, inPhase.flashPeriod, ?_, ?_⟩
    · rw [frameEvents, next, Nat.sub_self]
      rfl
    · simp only [next, inPhase.flashElapsed, inPhase.frameTime]
      push_cast
      ring
    · exact inPhase.flashInverted.trans (congrArg phaseAfter next.symm)

/-- Whatever a clock is called for, it stays in phase, and the frame that the call closes, if any,
brings the change of the phase that is due. -/
theorem InPhase.perform (inPhase : InPhase config clock) (valid : config.Valid) (call : Call ℚ) :
    InPhase config (clock.perform call).2 ∧
      (clock.perform call).2.frameCount = clock.frameCount + [call].countP Call.isEndFrame ∧
      (clock.perform call).1 =
        (List.range' clock.frameCount ([call].countP Call.isEndFrame)).flatMap
          (frameEvents config.flashChanges) := by
  obtain ⟨frameTime, flashPeriod, flashElapsed, flashInverted⟩ := inPhase
  cases call with
  | elapse _ | resetBaseline | addCycles _ | idleToFrameEnd =>
    -- Neither the phase nor the number of frames is touched.
    exact ⟨⟨frameTime, flashPeriod, flashElapsed, flashInverted⟩, rfl, rfl⟩
  | elapseTo timestamp =>
    obtain ⟨unspent, same⟩ := clock.elapseTo_eq timestamp
    simp only [Clock.perform, same]
    exact ⟨⟨frameTime, flashPeriod, flashElapsed, flashInverted⟩, rfl, rfl⟩
  | endFrame =>
    obtain ⟨events, next⟩ :=
      InPhase.endFrame ⟨frameTime, flashPeriod, flashElapsed, flashInverted⟩ valid
    exact ⟨next, frameCount_endFrame clock, events.trans (List.flatMap_singleton _ _).symm⟩

/-- Over any calls a clock stays in phase, and the frames that are closed bring the changes of the
phase that are due with each. -/
theorem InPhase.performAll (inPhase : InPhase config clock) (valid : config.Valid)
    (calls : List (Call ℚ)) :
    InPhase config (clock.performAll calls).2 ∧
      (clock.performAll calls).2.frameCount = clock.frameCount + calls.countP Call.isEndFrame ∧
      (clock.performAll calls).1 =
        (List.range' clock.frameCount (calls.countP Call.isEndFrame)).flatMap
          (frameEvents config.flashChanges) := by
  induction calls generalizing clock with
  | nil => exact ⟨inPhase, rfl, rfl⟩
  | cons call rest ih =>
    obtain ⟨next, counted, events⟩ := inPhase.perform valid call
    obtain ⟨last, laterCounted, laterEvents⟩ := ih next
    have split : (call :: rest).countP Call.isEndFrame =
        [call].countP Call.isEndFrame + rest.countP Call.isEndFrame := by
      rw [← List.singleton_append, List.countP_append]
    rw [counted] at laterCounted laterEvents
    refine ⟨last, ?_, ?_⟩
    · rw [split, ← Nat.add_assoc]
      exact laterCounted
    · rw [split, List.range'_append_1.symm, List.flatMap_append, ← events, ← laterEvents]
      rfl

end Clock

namespace Machine

variable {σ : Type} [Processor σ] {config : Config ℚ}

/-! ### The phase of a machine -/

/-- The host's operations keep the clock in phase. -/
theorem kept_inPhase (valid : config.Valid) :
    Kept fun (_ : σ) (clock : Clock ℚ) => clock.InPhase config where
  reset := id
  setRegisters _ := id
  resetBaseline inPhase := (inPhase.perform valid .resetBaseline).1
  elapse delta inPhase := (inPhase.perform valid (.elapse delta)).1
  elapseTo timestamp inPhase := (inPhase.perform valid (.elapseTo timestamp)).1

/-- A frame keeps the clock in phase. -/
theorem inPhase_stepFrame (valid : config.Valid) {machine after : Machine ℚ σ}
    (inPhase : machine.clock.InPhase config) (returned : machine.stepFrame = some after) :
    after.clock.InPhase config := by
  obtain ⟨ran, done, rfl⟩ := stepFrame_eq_some.1 returned
  have spent :=
    (keeps_runInstructions (fun middle => middle.clock.InPhase config) inPhase
      (fun middle _ _ inPhase =>
        (inPhase.perform valid (.addCycles middle.instructionCycles)).1)
      (fun _ _ _ inPhase => (inPhase.perform valid .idleToFrameEnd).1) done).2
  rw [clock_finishFrame]
  exact (spent.endFrame valid).2

/-- Whatever the host does, the flash phase of a machine is the one after the changes that its
frames have brought. -/
theorem inPhase_performAll {cpu : σ} {start machine : Machine ℚ σ}
    (built : build config cpu = .ok start) {history : List (Operation ℚ)} {replies : List Reply}
    (reached : start.performAll history = some (replies, machine)) :
    machine.clock.InPhase config := by
  obtain ⟨valid, -, new⟩ := clock_of_build built
  refine ((kept_inPhase valid).performAll (new ▸ Clock.inPhase_ofConfig config) ?_).2 _ _ reached
  exact fun _ _ inPhase _ returned => inPhase_stepFrame valid inPhase returned

end Machine

namespace Clock

variable {config : Config ℚ}

/-! ### The period -/

/-- Whatever the clock of a configuration is called for, the flash phase changes at the ends of
frames, with `changes` the number of changes up to each: every change is reported once, with the
phase that it leads to, before the end of its frame; the phase that the clock shows is the one after
these changes, and each has used up a period. -/
def FlashFollows (config : Config ℚ) (changes : Nat → Nat) : Prop :=
  ∀ calls : List (Call ℚ),
    let (events, clock) := (ofConfig config).performAll calls
    let frames := calls.countP Call.isEndFrame
    clock.frameCount = frames ∧
      events = (List.range frames).flatMap (frameEvents changes) ∧
      events.countP Event.isFlashToggled = changes frames ∧
      clock.flashInverted = phaseAfter (changes frames) ∧
      clock.flashElapsed = frames * config.frameTime - changes frames * config.flashPeriod

/-- The flash phase changes once for each flash period: the changes are those that are due, and less
than a period is left. -/
structure KeepsFlashPeriod (config : Config ℚ) : Prop where
  /-- The changes are those that are due. -/
  due : FlashFollows config config.dueChanges
  /-- Less than a period is left. -/
  left (calls : List (Call ℚ)) :
    0 ≤ ((ofConfig config).performAll calls).2.flashElapsed ∧
      ((ofConfig config).performAll calls).2.flashElapsed < config.flashPeriod

/-- The changes of the flash phase are those due, but one in a frame. -/
theorem flashFollows_flashChanges (valid : config.Valid) :
    FlashFollows config config.flashChanges := by
  intro calls
  obtain ⟨inPhase, counted, events⟩ := (inPhase_ofConfig config).performAll valid calls
  have frames : ((ofConfig config).performAll calls).2.frameCount =
      calls.countP Call.isEndFrame := counted.trans (Nat.zero_add _)
  have ranged : ((ofConfig config).performAll calls).1 =
      (List.range (calls.countP Call.isEndFrame)).flatMap (frameEvents config.flashChanges) := by
    rw [List.range_eq_range']
    exact events
  have elapsed := inPhase.flashElapsed
  have inverted := inPhase.flashInverted
  rw [frames] at elapsed inverted
  refine ⟨frames, ranged, ?_, inverted, elapsed⟩
  rw [ranged, countP_frameEvents config.flashChanges_zero (Config.monotone_flashChanges valid)]

/-- The flash phase of a valid configuration changes with each flash period that is over, but once
in a frame. So it keeps the period exactly if a period is no shorter than a frame. -/
theorem keepsFlashPeriod_iff (config : Config ℚ) (valid : config.Valid) :
    FlashFollows config config.flashChanges ∧
      (KeepsFlashPeriod config ↔ config.frameTime ≤ config.flashPeriod) := by
  have follows := flashFollows_flashChanges valid
  refine ⟨follows, fun keeps => ?_, fun long => ?_⟩
  · -- If a frame were longer, then each frame would leave something over.
    by_contra short
    rw [not_le] at short
    obtain ⟨frames, many⟩ :=
      exists_nat_gt (config.flashPeriod / (config.frameTime - config.flashPeriod))
    rw [div_lt_iff₀ (sub_pos.2 short)] at many
    have all : (List.replicate frames (.endFrame : Call ℚ)).countP Call.isEndFrame = frames := by
      rw [List.countP_replicate]
      rfl
    have elapsed := (follows (List.replicate frames .endFrame)).2.2.2.2
    have left := (keeps.left (List.replicate frames .endFrame)).2
    rw [all, Config.flashChanges_eq_self valid short] at elapsed
    rw [elapsed] at left
    linarith
  · rw [Config.flashChanges_eq_dueChanges valid long] at follows
    refine ⟨follows, fun calls => ?_⟩
    rw [(follows calls).2.2.2.2]
    exact (Config.eq_dueChanges_iff valid).1 rfl

/-- On the real machine the flash phase changes once for each flash period. -/
theorem keepsFlashPeriod_of_standard : KeepsFlashPeriod (Config.standard : Config ℚ) :=
  (keepsFlashPeriod_iff Config.standard (by decide +kernel)).2.2 (by decide +kernel)

/-- A flash period of half a frame: two changes are due with the first frame, but it brings one, and
a whole period is left over. -/
theorem flash_of_shortPeriod :
    let config : Config ℚ := { Config.standard with flashPeriod := 10 }
    config.Valid ∧
      config.dueChanges 1 = 2 ∧
      ((ofConfig config).performAll [.endFrame]).1 = [.flashToggled true, .frameEnd 1] ∧
      ((ofConfig config).performAll [.endFrame]).2.flashInverted = true ∧
      ((ofConfig config).performAll [.endFrame]).2.flashElapsed = config.flashPeriod ∧
      ¬KeepsFlashPeriod config := by
  intro config
  have valid : config.Valid := by decide +kernel
  have left : ((ofConfig config).performAll [.endFrame]).2.flashElapsed = config.flashPeriod := by
    decide +kernel
  refine ⟨valid, ?_, by decide +kernel, by decide +kernel, left, fun keeps => ?_⟩
  · symm
    rw [Config.eq_dueChanges_iff valid]
    decide +kernel
  · exact (keeps.left [.endFrame]).2.ne left

end Clock

end Spectrum48
