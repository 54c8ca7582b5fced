import Spectrum48.Proofs.Machine.Stages
import Spectrum48.Proofs.Video.Painting

/-!
# What a machine shows

A machine shows the frame that it completed last, as memory, border and flash phase stood when that
frame was closed, whatever happens to them afterwards; and it is white as long as no frame was
completed. Drawing is never skipped, and it can as well be done over what was shown before.
-/

namespace Spectrum48

/-- A white picture is made of full bytes. -/
theorem Video.Picture.bytes_plain_white (width height : Nat) :
    (Video.Picture.plain width height .white).bytes.toList =
      List.replicate (4 * (width * height)) 255 := by
  rw [Video.Picture.toList_bytes]
  change (Array.replicate (width * height) Video.Colour.white).toList.flatMap _ = _
  rw [Array.toList_replicate, List.eq_replicate_iff]
  constructor
  · have sized : ∀ colour : Video.Colour, colour.rgba.bytes.length = 4 := fun _ => rfl
    rw [Video.length_flatMap_of_length sized, List.length_replicate, Nat.mul_comm]
  · intro byte inside
    obtain ⟨colour, white, part⟩ := List.mem_flatMap.1 inside
    have all : ∀ byte ∈ Video.Colour.white.rgba.bytes, byte = 255 := by decide +kernel
    rw [List.eq_of_mem_replicate white] at part
    exact all byte part

namespace Machine

variable {τ σ : Type}

/-! ### Ends of frames -/

/-- The screen is always drawn, with the configured border around it. -/
theorem draw_of_redraw (machine : Machine τ σ) :
    Video.draw machine.border machine.bus.memory.screen machine.clock.flashInverted =
      .ok machine.redraw.picture := by
  obtain ⟨picture, drawn⟩ :=
    Video.draw_returns machine.border machine.bus.memory.size_screen machine.clock.flashInverted
  rw [redraw, drawn]
  rfl

/-- Showing what was drawn leaves the configuration alone. -/
theorem config_showDrawn (machine : Machine τ σ) (drawn : Except Fault Video.Picture) :
    (machine.showDrawn drawn).config = machine.config := by
  cases drawn <;> rfl

/-- Another bus leaves the picture alone. -/
theorem picture_withBus (machine : Machine τ σ) (bus : Bus τ) :
    (machine.withBus bus).picture = machine.picture := rfl

/-- Another bus leaves the configuration alone. -/
theorem config_withBus (machine : Machine τ σ) (bus : Bus τ) :
    (machine.withBus bus).config = machine.config := rfl

/-- The measures of the picture are the configured ones. -/
def Measured (machine : Machine τ σ) : Prop :=
  machine.picture.width = machine.config.frameWidth ∧
    machine.picture.height = machine.config.frameHeight

/-- What happens between two machines as far as pictures are concerned: frames end, each with the
same configuration, and are counted; the picture is that of the last one, or stays. -/
structure Shown (machine : Machine τ σ) (ends : List (Machine τ σ)) (after : Machine τ σ) :
    Prop where
  /-- The configuration stays. -/
  config : after.config = machine.config
  /-- Every frame has the configuration. -/
  configs : ∀ last ∈ ends, last.config = machine.config
  /-- The frames are counted. -/
  counted : after.clock.frameCount = machine.clock.frameCount + ends.length
  /-- The picture is drawn at the end of the last frame. -/
  picture : after.picture = ends.getLast?.elim machine.picture fun last => last.redraw.picture

namespace Shown

variable {machine middle after : Machine τ σ} {ends more : List (Machine τ σ)}

/-- Where no frame ends, the picture stays. -/
theorem still (config : after.config = machine.config)
    (counted : after.clock.frameCount = machine.clock.frameCount)
    (picture : after.picture = machine.picture) : machine.Shown [] after :=
  ⟨config, List.forall_mem_nil _, counted, picture⟩

/-- One thing happens after the other. -/
theorem append (first : machine.Shown ends middle) (second : middle.Shown more after) :
    machine.Shown (ends ++ more) after where
  config := second.config.trans first.config
  configs := List.forall_mem_append.2
    ⟨first.configs, fun last inside => (second.configs last inside).trans first.config⟩
  counted := by
    rw [second.counted, first.counted, List.length_append, Nat.add_assoc]
  picture := by
    rw [second.picture, List.getLast?_append]
    cases more.getLast? with
    | none => exact first.picture
    | some last => rfl

/-- Pictures that are shown have the configured measures. -/
theorem measured (shown : machine.Shown ends after) (measured : machine.Measured) :
    after.Measured := by
  have picture := shown.picture
  unfold Measured
  rw [shown.config]
  cases ended : ends.getLast? with
  | none =>
    rw [ended, Option.elim_none] at picture
    rw [picture]
    exact measured
  | some last =>
    rw [ended, Option.elim_some] at picture
    have drawn := Video.measures_of_draw (draw_of_redraw last)
    rw [picture, ← shown.configs last (List.mem_of_getLast? ended)]
    exact drawn

end Shown

variable [Scalar τ] [Processor σ]

/-- The machine at the end of the frame that starts now: its instructions were run, and the flash
phase is that of the closed frame. -/
def frameEnd? (machine : Machine τ σ) : Option (Machine τ σ) :=
  (runInstructions machine.instructionLimit machine).map closeFrame

/-- The machines at the ends of a history's frames. -/
def historyEnds (machine : Machine τ σ) (history : List (Operation τ)) : List (Machine τ σ) :=
  (machine.historyFrames history).filterMap frameEnd?

omit [Scalar τ] in
/-- An interrupt leaves the picture alone. -/
theorem picture_interrupt (machine : Machine τ σ) : machine.interrupt.picture = machine.picture :=
  rfl

omit [Scalar τ] in
/-- An interrupt leaves the configuration alone. -/
theorem config_interrupt (machine : Machine τ σ) : machine.interrupt.config = machine.config := rfl

/-- A frame shows the picture of its end. -/
theorem shown_stepFrame {machine after : Machine τ σ} (returned : machine.stepFrame = some after) :
    machine.Shown machine.frameEnd?.toList after := by
  obtain ⟨ran, done, rfl⟩ := stepFrame_eq_some.1 returned
  have kept := (keeps_runInstructions
    (fun middle => middle.config = machine.config ∧
      middle.clock.frameCount = machine.clock.frameCount) ⟨rfl, rfl⟩
    (fun _ _ _ same => same) (fun _ _ _ same => same) done).2
  rw [frameEnd?, done, Option.map_some, Option.toList_some]
  refine ⟨?_, List.forall_mem_singleton.2 kept.1, ?_, ?_⟩
  · rw [finishFrame, config_interrupt, redraw, config_showDrawn]
    exact kept.1
  · rw [clock_finishFrame, Clock.frameCount_endFrame, kept.2, List.length_singleton]
  · rw [finishFrame, picture_interrupt, List.getLast?_singleton, Option.elim_some]

/-- The frames that are due show the picture of the last one. -/
theorem shown_runDueFrames {limit frames count : Nat} {machine after : Machine τ σ}
    (returned : runDueFrames limit frames machine = some (count, after)) :
    machine.Shown ((dueFrames limit machine).filterMap frameEnd?) after := by
  induction limit generalizing machine frames with
  | zero =>
    unfold runDueFrames at returned
    split at returned
    · cases returned
    · cases returned
      exact .still rfl rfl rfl
  | succ limit ih =>
    unfold runDueFrames at returned
    unfold dueFrames
    split
    · next due =>
      rw [if_pos due] at returned
      cases stepped : machine.stepFrame with
      | none =>
        rw [stepped] at returned
        cases returned
      | some next =>
        rw [stepped] at returned
        have both := (shown_stepFrame stepped).append (ih returned)
        rw [List.filterMap_cons]
        cases closed : machine.frameEnd? with
        | none =>
          rw [closed] at both
          exact both
        | some last =>
          rw [closed] at both
          exact both
    · next early =>
      rw [if_neg early] at returned
      cases returned
      exact .still rfl rfl rfl

/-! ### Histories -/

/-- Host time that passes shows the picture of the last frame that was due. -/
theorem shown_advance {machine after : Machine τ σ} {pass : Clock τ → Clock τ}
    (same : (pass machine.clock).frameCount = machine.clock.frameCount)
    {result : Except Fault Nat} (returned : machine.advance pass = some (result, after)) :
    machine.Shown ((machine.advanceFrames pass).filterMap frameEnd?) after := by
  by_cases running : machine.state = .running
  · rw [advance_of_running running] at returned
    rw [advanceFrames_of_running running]
    obtain ⟨⟨count, next⟩, caughtUp, returned⟩ := Option.map_eq_some_iff.1 returned
    cases returned
    have passed : machine.Shown [] { machine with clock := pass machine.clock } :=
      .still rfl same rfl
    exact passed.append (shown_runDueFrames caughtUp)
  · rw [advanceFrames_of_idle running]
    unfold advance at returned
    split at returned
    · next ran => exact absurd ran running
    · cases returned
      exact .still rfl rfl rfl
    · cases returned
      exact .still rfl rfl rfl

/-- An operation that runs no frames leaves the picture alone. -/
theorem Outcome.shown {machine after : Machine τ σ} {operation : Operation τ} {reply : Reply}
    (outcome : machine.Outcome operation reply after) (timeless : operation.pass? = none)
    (other : operation ≠ .stepFrame) : machine.Shown [] after := by
  cases outcome with
  | caughtUp running passes =>
    rw [timeless] at passes
    cases passes
  | waited paused passes =>
    rw [timeless] at passes
    cases passes
  | stepped => exact absurd rfl other
  | started fits =>
    apply Shown.still
    · rw [config_started]
    · rw [clock_started]
      rfl
    · rw [picture_started]
  | restored data live =>
    apply Shown.still
    · rw [restore, config_withBus]
    · rw [restore, clock_withBus]
    · rw [restore, picture_withBus]
  | poked | filled =>
    apply Shown.still
    · rw [config_withBus]
    · rw [clock_withBus]
    · rw [picture_withBus]
  | refused | paused | resumed | wentOn | reset | typed | attached => exact .still rfl rfl rfl
  | rendered => exact .still rfl rfl rfl

/-- An operation shows the picture of its last frame. -/
theorem shown_perform {machine after : Machine τ σ} (between : machine.state ≠ .loading)
    {operation : Operation τ} {reply : Reply}
    (performed : machine.perform operation = some (reply, after)) :
    machine.Shown ((machine.operationFrames operation).filterMap frameEnd?) after := by
  cases operation with
  | tick delta =>
    obtain ⟨⟨result, next⟩, passed, returned⟩ := Option.map_eq_some_iff.1 performed
    cases returned
    exact shown_advance rfl passed
  | tickAt timestamp =>
    obtain ⟨⟨result, next⟩, passed, returned⟩ := Option.map_eq_some_iff.1 performed
    cases returned
    refine shown_advance ?_ passed
    obtain ⟨unspent, only⟩ := machine.clock.elapseTo_eq timestamp
    rw [only]
  | stepFrame =>
    obtain ⟨next, stepped, returned⟩ := Option.map_eq_some_iff.1 performed
    cases returned
    have shown := shown_stepFrame stepped
    change machine.Shown ([machine].filterMap frameEnd?) _
    rw [List.filterMap_cons]
    cases closed : machine.frameEnd? <;> rwa [closed] at shown
  | _ => exact (outcome_of_perform between performed).shown rfl (by simp)

/-- A history shows the picture of its last frame. -/
theorem shown_performAll {machine after : Machine τ σ} (settled : machine.Settled)
    {history : List (Operation τ)} {replies : List Reply}
    (reached : machine.performAll history = some (replies, after)) :
    machine.Shown (machine.historyEnds history) after := by
  induction history generalizing machine replies with
  | nil =>
    cases reached
    exact .still rfl rfl rfl
  | cons operation rest ih =>
    obtain ⟨reply, next, more, performed, done, rfl⟩ := performAll_cons_eq_some.1 reached
    have both := (shown_perform settled.between performed).append
      (ih (settled.perform performed) done)
    unfold historyEnds historyFrames
    rw [performed, List.filterMap_append]
    exact both

/-- After every history of a new machine, as many frames have ended as are counted, and the picture
has the configured size. It is white as long as no frame has ended. Otherwise it is what painting
the screen of the last end of a frame leaves in any buffer of that size, with the border's colour
and the flash phase of that moment. At no end of a frame is drawing refused. -/
theorem picture_of_history (config : Config τ) (cpu : σ) {machine : Machine τ σ}
    (built : build config cpu = .ok machine) {history : List (Operation τ)}
    {replies : List Reply} {after : Machine τ σ}
    (reached : machine.performAll history = some (replies, after)) :
    (machine.historyEnds history).length = after.clock.frameCount ∧
    (after.picture.width = config.frameWidth ∧ after.picture.height = config.frameHeight ∧
      after.picture.bytes.size = 4 * (config.frameWidth * config.frameHeight)) ∧
    (∀ last ∈ machine.historyEnds history,
      last.bus.memory.screen = last.bus.memory.bytes.toArray.extract 0x4000 0x5B00 ∧
      Video.draw ⟨config.xBorder, config.yBorder, .ofBorder last.bus.ula.border⟩
          last.bus.memory.screen last.clock.flashInverted = .ok last.redraw.picture) ∧
    match (machine.historyEnds history).getLast? with
    | none => ∀ byte ∈ after.picture.bytes, byte = 255
    | some last =>
      Video.draw ⟨config.xBorder, config.yBorder, .ofBorder last.bus.ula.border⟩
          last.bus.memory.screen last.clock.flashInverted = .ok after.picture ∧
      ∀ buffer : Array UInt8, buffer.size = 4 * (config.frameWidth * config.frameHeight) →
        ∃ brush, Video.Painter.paint config.xBorder config.yBorder last.bus.memory.screen
            last.bus.ula.border last.clock.flashInverted buffer = pure (.ok brush) ∧
          brush.buffer = after.picture.bytes := by
  have new := eq_new_of_build built
  have settled : machine.Settled := by
    left
    rw [new]
    rfl
  have shown := shown_performAll settled reached
  have start : machine.config = config ∧ machine.clock.frameCount = 0 ∧
      machine.picture = .plain config.frameWidth config.frameHeight .white := by
    rw [new]
    exact ⟨rfl, rfl, rfl⟩
  obtain ⟨same, zero, white⟩ := start
  have drawn : ∀ last ∈ machine.historyEnds history,
      Video.draw ⟨config.xBorder, config.yBorder, .ofBorder last.bus.ula.border⟩
        last.bus.memory.screen last.clock.flashInverted = .ok last.redraw.picture := by
    intro last ended
    have drawn := draw_of_redraw last
    rw [border, shown.configs last ended, same] at drawn
    exact drawn
  have picture := shown.picture
  have measures : after.Measured := by
    apply shown.measured
    rw [Measured, white, same]
    exact ⟨rfl, rfl⟩
  rw [Measured, shown.config, same] at measures
  refine ⟨?_, ⟨measures.1, measures.2, ?_⟩, fun last ended => ⟨rfl, drawn last ended⟩, ?_⟩
  · rw [shown.counted, zero, Nat.zero_add]
  · rw [after.picture.size_bytes, measures.1, measures.2]
  · cases ended : (machine.historyEnds history).getLast? with
    | none =>
      rw [ended, Option.elim_none, white] at picture
      intro byte inside
      rw [picture, ← Array.mem_toList_iff, Video.Picture.bytes_plain_white] at inside
      exact List.eq_of_mem_replicate inside
    | some last =>
      rw [ended, Option.elim_some] at picture
      have shows := drawn last (List.mem_of_getLast? ended)
      rw [← picture] at shows
      refine ⟨shows, fun buffer sized => ?_⟩
      have painted := Video.Painter.paint_eq
        ⟨config.xBorder, config.yBorder, .ofBorder last.bus.ula.border⟩ last.bus.ula.border rfl
        last.bus.memory.screen last.clock.flashInverted sized
      rw [shows] at painted
      exact ⟨_, painted, rfl⟩

/-- A processor that writes to the screen, sets the border, and halts. -/
def decorating : Scripted :=
  .ofScript #[⟨4, [.write 0x4000 0x55, .output 0xFE 2, .halt]⟩] true true

/-- What a frame drew is shown after the host has written to the screen and reset the processor. -/
theorem picture_of_history_of_decorating :
    ∃ (machine last : Machine Float Scripted) (replies : List Reply)
      (after : Machine Float Scripted),
      build contendedFrames decorating = .ok machine ∧
      machine.performAll [.stepFrame, .poke 0x4000 0xFF, .reset] = some (replies, after) ∧
      machine.historyEnds [.stepFrame, .poke 0x4000 0xFF, .reset] = [last] ∧
      last.bus.memory.read 0x4000 = 0x55 ∧ last.bus.ula.border = 2 ∧
      after.bus.memory.read 0x4000 = 0xFF ∧
      ∃ brush, Video.Painter.paint 32 24 last.bus.memory.screen last.bus.ula.border
          last.clock.flashInverted (Array.replicate (4 * (320 * 240)) 0) = pure (.ok brush) ∧
        brush.buffer = after.picture.bytes := by
  have built := build_eq_new (show contendedFrames.Valid by decide +kernel) decorating
  have returns : (new contendedFrames decorating).frameEnd?.any (fun last =>
      last.bus.memory.read 0x4000 == 0x55 && last.bus.ula.border == 2) = true := by
    decide +kernel
  generalize new contendedFrames decorating = start at built returns
  obtain ⟨last, closed, marked⟩ := (Option.any_eq_true _ _).1 returns
  rw [Bool.and_eq_true, beq_iff_eq, beq_iff_eq] at marked
  obtain ⟨ran, run, rfl⟩ := Option.map_eq_some_iff.1 closed
  have first : start.perform .stepFrame = some (.done, ran.finishFrame) := by
    rw [perform, stepFrame, run, Option.map_some, Option.map_some]
  obtain ⟨poked, second, memory⟩ : ∃ poked,
      ran.finishFrame.perform (.poke 0x4000 0xFF) = some (.flag true, poked) ∧
        poked.bus.memory = ran.finishFrame.bus.memory.write 0x4000 0xFF := ⟨_, rfl, rfl⟩
  have third : poked.perform .reset = some (.done, poked.reset) := rfl
  have reached : start.performAll [.stepFrame, .poke 0x4000 0xFF, .reset] =
      some ([.done, .flag true, .done], poked.reset) := by
    simp only [performAll, first, second, third]
  have ends : start.historyEnds [.stepFrame, .poke 0x4000 0xFF, .reset] = [ran.closeFrame] := by
    simp only [historyEnds, historyFrames, operationFrames, first, second, third]
    simp [closed]
  obtain ⟨-, -, -, shown⟩ := picture_of_history _ _ built reached
  rw [ends] at shown
  obtain ⟨brush, painted, same⟩ := shown.2 (Array.replicate (4 * (320 * 240)) 0)
    Array.size_replicate
  refine ⟨start, ran.closeFrame, _, _, built, reached, ends, marked.1, marked.2, ?_, brush, painted,
    same⟩
  have written := Memory.read_write ran.finishFrame.bus.memory 0x4000 0x4000 0xFF
  rw [if_pos ⟨by decide, rfl⟩, ← memory] at written
  exact written

end Machine

end Spectrum48
