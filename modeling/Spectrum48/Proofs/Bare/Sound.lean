import Spectrum48.Beeper.Basic
import Spectrum48.Proofs.Checked.Basic

/-!
# Sound in bare buffers

A request for samples comes with the buffer that they are put into. The levels of the timeline are
cut into blocks, one for each sample, as far as there are samples, and the mean of a block is its
sum divided by the points of a sample. As long as a sample has points, there is a block for every
sample, whatever size the buffer has.
-/

namespace Spectrum48

namespace Beeper

variable {τ : Type}

/-- The samples of a request and the beeper after them, if there are some. -/
def Playback.heard? : Playback τ → Option (Array Float32 × Beeper τ)
  | .heard samples after => some (samples, after)
  | .unmixable _ => none
  | .endless => none

/-- As many levels are heard as points are played. -/
theorem size_play {points : Nat} {beeper after : Beeper τ} {heard levels : Array Bool}
    (played : play points beeper heard = some (levels, after)) :
    levels.size = heard.size + points := by
  induction points generalizing beeper heard with
  | zero =>
    cases played
    rfl
  | succ points ih =>
    rw [play] at played
    split at played
    · cases played
    · rw [ih played, Array.size_push]
      omega

/-- Samples that have points can be mixed. -/
theorem render_ne_unmixable {beeper : Beeper τ} (points : beeper.settings.factor ≠ 0) (count : Nat)
    (after : Beeper τ) : beeper.render count ≠ .unmixable after := by
  intro unmixable
  unfold render at unmixable
  split at unmixable
  · cases unmixable
  · rw [renderQueued, if_neg points] at unmixable
    split at unmixable <;> cases unmixable

end Beeper

namespace Bare

open Beeper

variable {τ : Type} [Scalar τ]

/-- The unchanging properties of a beeper. -/
def settings (config : Config τ) : Checked (Beeper.Settings τ) := do
  let pace ← Checked.quotient
    (Scalar.ofNat config.supersampleFactor * Scalar.ofNat config.sampleRate) (Scalar.ofNat 1000)
  let buffers ← Checked.quotient (config.resyncAfter * Scalar.ofNat config.sampleRate)
    (Scalar.ofNat config.bufferSize)
  pure
    { supersamplesPerMs := pace
      factor := config.supersampleFactor
      amplitude := config.amplitude
      resyncThreshold := Scalar.whole buffers
      backlogSpan := max (Scalar.nearest (config.maxBacklog * pace)) 1 }

/-- The mean of the levels of a block, which has as many points as a sample. -/
def mean (amplitude : Float32) (factor : Nat) (block : Array Bool) : Checked Float32 :=
  if factor = 0 then throw .division
  else
    pure (block.toList.foldl (fun sum high => sum + level amplitude high) (-Sample.ofNat 0)
      / Sample.ofNat factor)

/-- Put the means of levels into a buffer of samples; samples without a block stay. -/
def mixInto (amplitude : Float32) (factor : Nat) (levels : Array Bool) (samples : Array Float32) :
    Checked (Array Float32) := do
  let blocks ← Checked.chunks factor false levels
  let means ← (blocks.take samples.size).mapM (mean amplitude factor)
  pure (means.toArray ++ samples.extract means.length samples.size)

/-- Answer a request for samples. -/
def render (beeper : Beeper τ) (samples : Array Float32) :
    Checked (Array Float32 × Beeper τ) :=
  if beeper.pending.isEmpty then
    pure (samples.map fun _ => level beeper.settings.amplitude beeper.high, beeper.countSilence)
  else do
    let points := samples.size * beeper.settings.factor
    let placed := ({ beeper with silentBuffers := 0 } : Beeper τ).resync points
    let (levels, after) ←
      Checked.ofOption (play points placed (Array.emptyWithCapacity points))
    let samples ← mixInto beeper.settings.amplitude beeper.settings.factor levels samples
    pure (samples, after)

/-- The properties of a beeper whose buffers have samples are reckoned. -/
theorem settings_eq {config : Config τ} (thousand : Checked.IsDivisor (Scalar.ofNat 1000 : τ))
    (buffer : Checked.IsDivisor (Scalar.ofNat config.bufferSize : τ)) :
    settings config = pure (Beeper.Settings.ofConfig config) := by
  rw [settings, Checked.quotient_eq thousand, pure_bind, Checked.quotient_eq buffer, pure_bind]
  rfl

/-- Levels for every sample of a buffer are mixed into it, whatever it held. -/
theorem mixInto_eq {amplitude : Float32} {factor : Nat} (points : factor ≠ 0)
    {levels : Array Bool} {samples : Array Float32}
    (enough : levels.size = samples.size * factor) :
    mixInto amplitude factor levels samples =
      pure (mix amplitude factor samples.size levels) := by
  have count : (levels.size + if false = true then factor - 1 else 0) / factor = samples.size := by
    rw [enough]
    exact Nat.mul_div_cancel _ (Nat.pos_of_ne_zero points)
  have means : mean amplitude factor = fun block => pure
      (block.toList.foldl (fun sum high => sum + level amplitude high) (-Sample.ofNat 0)
        / Sample.ofNat factor) :=
    funext fun block => if_neg points
  have block (index : Nat) (inside : index < samples.size) :
      (levels.extract (index * factor) (index * factor + factor)).toList.length = factor := by
    have last := Nat.mul_le_mul_right factor (Nat.succ_le_of_lt inside)
    rw [Nat.succ_mul] at last
    rw [Array.length_toList, Array.size_extract]
    omega
  rw [mixInto, Checked.chunks_eq points, pure_bind, count, List.take_of_length_le (by simp), means,
    List.mapM_pure, pure_bind]
  have nothing : samples.extract samples.size samples.size = #[] := by simp
  rw [List.map_map, List.length_map, List.length_range, nothing, Array.append_empty]
  refine congrArg pure (Array.ext_getElem? fun index => ?_)
  rw [List.getElem?_toArray, List.getElem?_map, mix, Array.getElem?_ofFn]
  by_cases inside : index < samples.size
  · rw [List.getElem?_range inside, dif_pos inside, Option.map_some, Function.comp_apply,
      Beeper.mean, block index inside]
  · rw [List.getElem?_eq_none (by simpa using inside), dif_neg inside, Option.map_none]

omit [Scalar τ] in
/-- A request for samples is answered as long as a sample has points. -/
theorem render_eq {beeper : Beeper τ} (points : beeper.settings.factor ≠ 0)
    (samples : Array Float32) :
    render beeper samples = Checked.ofOption (beeper.render samples.size).heard? := by
  unfold render Beeper.render
  by_cases silent : beeper.pending.isEmpty = true
  · rw [if_pos silent, if_pos silent, Playback.heard?, Checked.ofOption_some, Array.map_const']
  · rw [if_neg silent, if_neg silent, renderQueued]
    dsimp only
    rw [if_neg points]
    cases played : play (samples.size * beeper.settings.factor)
        (({ beeper with silentBuffers := 0 } : Beeper τ).resync
          (samples.size * beeper.settings.factor))
        (Array.emptyWithCapacity (samples.size * beeper.settings.factor)) with
    | none => rfl
    | some result =>
      obtain ⟨levels, after⟩ := result
      have enough := size_play played
      rw [Array.emptyWithCapacity_eq, Array.size_empty, Nat.zero_add] at enough
      rw [Checked.ofOption_some, pure_bind]
      dsimp only
      rw [mixInto_eq points enough]
      rfl

end Bare

end Spectrum48
