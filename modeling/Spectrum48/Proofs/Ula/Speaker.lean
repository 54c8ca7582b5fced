import Spectrum48.Proofs.Beeper.Level
import Spectrum48.Ula

/-!
# The speaker bit and the level

The speaker bit of the circuit and the level of its beeper are two bits in two places. The bit
changes at once, the level only when the host plays the toggle. What keeps them together is the
level once all queued points are played: it is the speaker bit at all times, through toggles that
cancel, points that are dropped, and new places found in the queue.
-/

namespace Spectrum48.Ula

variable {τ : Type} [Scalar τ]

/-- What the program and the host can do with a circuit. -/
inductive Operation (τ : Type) where
  /-- The program writes a port at an instant. -/
  | write (port : UInt16) (value : UInt8) (time : τ)
  /-- The program reads a port. -/
  | read (port : UInt16)
  /-- The host presses or releases the key of a host code. -/
  | code (code : UInt32) (down : Bool)
  /-- The host presses or releases a key. -/
  | key (key : Key) (down : Bool)
  /-- The host releases all keys. -/
  | releaseAll
  /-- The host sets the border colour. -/
  | setBorder (value : UInt8)
  /-- The host asks for sound samples. -/
  | render (count : Nat)

/-- The circuit after an operation, unless it never returns. -/
def perform (ula : Ula τ) : Operation τ → Option (Ula τ)
  | .write port value time => some (ula.write port value time)
  | .read _ => some ula
  | .code code down => some (ula.setCode code down).2
  | .key key down => some { ula with keyboard := ula.keyboard.setKey key down }
  | .releaseAll => some { ula with keyboard := ula.keyboard.releaseAll }
  | .setBorder value => some (ula.setBorder value)
  | .render count =>
    (ula.beeper.render count).after?.map fun beeper => { ula with beeper := beeper }

/-- The circuit after operations, one after the other. -/
def performAll (ula : Ula τ) (history : List (Operation τ)) : Option (Ula τ) :=
  history.foldlM perform ula

/-- The speaker bit is the level of the beeper once all queued points are played. -/
def InStep (ula : Ula τ) : Prop := ula.speaker = ula.beeper.levelAtEnd

/-- A new circuit is in step. -/
theorem inStep_ofBeeper (config : Config τ) (border : UInt8) :
    (ofBeeper (.ofConfig config) border).InStep := by
  simp [InStep, ofBeeper, Beeper.ofConfig, Beeper.levelAtEnd, Beeper.flipped, Beeper.Queue.empty,
    Beeper.Queue.size]

/-- A write to a port changes the bit and toggles the speaker together, or does neither. -/
theorem inStep_write {ula : Ula τ} (inStep : ula.InStep) (port : UInt16) (value : UInt8)
    (time : τ) : (ula.write port value time).InStep := by
  unfold write
  split
  · unfold setSpeaker
    split
    · exact inStep
    · next changed =>
      have turned : speakerOf value = !ula.speaker := by
        cases written : speakerOf value <;> cases bit : ula.speaker <;>
          simp_all [setBorder]
      change speakerOf value = (ula.beeper.toggleAt _).levelAtEnd
      rw [Beeper.levelAtEnd_toggleAt, turned, inStep]
  · exact inStep

/-- Every operation keeps a circuit in step, and its beeper's properties. -/
theorem inStep_perform {ula after : Ula τ} (inStep : ula.InStep) {operation : Operation τ}
    (performed : ula.perform operation = some after) :
    after.InStep ∧ after.beeper.settings = ula.beeper.settings := by
  cases operation with
  | write port value time =>
    cases performed
    refine ⟨inStep_write inStep port value time, ?_⟩
    unfold write
    split
    · unfold setSpeaker
      split
      · rfl
      · exact Beeper.settings_toggleAt _ _
    · rfl
  | read _ | code _ _ | key _ _ | releaseAll | setBorder _ =>
    -- What is heard and the speaker bit are left alone.
    cases performed
    exact ⟨inStep, rfl⟩
  | render count =>
    obtain ⟨beeper, returned, rfl⟩ := Option.map_eq_some_iff.1 performed
    refine ⟨?_, Beeper.settings_render returned⟩
    change ula.speaker = beeper.levelAtEnd
    rw [Beeper.levelAtEnd_render returned]
    exact inStep

/-- Every history keeps a circuit in step, and its beeper's properties. -/
theorem inStep_performAll {ula after : Ula τ} (inStep : ula.InStep)
    {history : List (Operation τ)} (performed : ula.performAll history = some after) :
    after.InStep ∧ after.beeper.settings = ula.beeper.settings := by
  induction history generalizing ula with
  | nil =>
    cases performed
    exact ⟨inStep, rfl⟩
  | cons operation rest ih =>
    rw [performAll, List.foldlM_cons] at performed
    obtain ⟨middle, first, later⟩ := Option.bind_eq_some_iff.1 performed
    obtain ⟨inStep, same⟩ := inStep_perform inStep first
    obtain ⟨inStep, same'⟩ := ih inStep later
    exact ⟨inStep, same'.trans same⟩

/-- After every history of a new circuit the speaker bit is the level of the beeper, turned over
if an odd number of points is queued. So while nothing is queued, the samples asked for next all
lie at the amplitude on the side that the speaker bit tells. -/
theorem speaker_eq_level (config : Config τ) (border : UInt8) (history : List (Operation τ))
    (ula : Ula τ) (reached : (ofBeeper (.ofConfig config) border).performAll history = some ula) :
    ula.speaker = (ula.beeper.high ^^ (ula.beeper.pending.size % 2 == 1)) ∧
    (ula.beeper.pending.size = 0 → ∀ count, ∃ after,
      ula.beeper.render count =
        .heard
          (Array.replicate count (if ula.speaker then config.amplitude else -config.amplitude))
          after) := by
  obtain ⟨inStep, same⟩ := inStep_performAll (inStep_ofBeeper config border) reached
  refine ⟨inStep, ?_⟩
  intro nothing count
  have silent : ula.beeper.pending.isEmpty = true := by
    rw [Beeper.Queue.isEmpty_iff, ← List.length_eq_zero_iff, Beeper.Queue.length_toList, nothing]
  have amplitude : ula.beeper.settings.amplitude = config.amplitude := by
    rw [same]
    rfl
  refine ⟨ula.beeper.countSilence, ?_⟩
  rw [Beeper.render_of_isEmpty silent, amplitude, ← inStep]
  rfl

/-- A timeline with one point to the millisecond, of which ten are kept. -/
def coarseConfig : Config Float :=
  { Config.standard with sampleRate := 1000, supersampleFactor := 1, maxBacklog := 10 }

/-- Two toggles that cancel, one that is dropped, a new place, and two that are played. -/
def busyHistory : List (Operation Float) :=
  [.write 0xFE 0x10 1, .write 0xFE 0x00 1, .write 0xFE 0x17 2, .read 0x7FFE, .write 0xFE 0x00 30,
   .code 65 true, .setBorder 3, .write 0xFF 0x00 30, .write 0xFE 0x10 31, .render 4, .render 8]

/-- A busy history ends silent, with the level on the side of the speaker bit. -/
theorem speaker_eq_level_of_busyHistory :
    ∃ ula, (ofBeeper (.ofConfig coarseConfig) 7).performAll busyHistory = some ula ∧
      ula.beeper.pending.size = 0 ∧ ula.speaker = true ∧
      ula.speaker = (ula.beeper.high ^^ (ula.beeper.pending.size % 2 == 1)) ∧
      ∀ count, ∃ after,
        ula.beeper.render count = .heard (Array.replicate count (0.125 : Float32)) after := by
  have ends : ((ofBeeper (.ofConfig coarseConfig) 7).performAll busyHistory).any
      (fun ula => ula.speaker && ula.beeper.pending.size == 0) = true := by
    decide +kernel
  obtain ⟨ula, reached, ended⟩ := (Option.any_eq_true _ _).1 ends
  rw [Bool.and_eq_true, beq_iff_eq] at ended
  obtain ⟨same, silent⟩ := speaker_eq_level _ _ _ _ reached
  refine ⟨ula, reached, ended.2, ended.1, same, ?_⟩
  intro count
  obtain ⟨after, heard⟩ := silent ended.2 count
  rw [ended.1] at heard
  exact ⟨after, heard⟩

end Spectrum48.Ula
