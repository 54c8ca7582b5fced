import Spectrum48.Proofs.Bare.Sound
import Spectrum48.Proofs.Beeper.Request

/-!
# Levels in a buffer that is used again

The levels of a request are put into slots, one for each point that it plays, before they are mixed
to samples. The slots are kept from request to request, and are made more or fewer where a request
needs it. What an earlier request has left in them is never heard: every slot is written before it
is read.

With this the answer to one request is told in full: the level in every slot, the mean in every
sample, and the beeper that is left.
-/

namespace Spectrum48

namespace Bare

open Beeper

variable {τ : Type}

/-- A buffer that is cut, or filled up with a value, to a size. -/
def resized {α : Type} (size : Nat) (filler : α) (buffer : Array α) : Array α :=
  buffer.extract 0 size ++ Array.replicate (size - buffer.size) filler

/-- Put the levels of consecutive points into slots, whatever these held; nothing when the cursor
cannot get away. -/
def fillSlots : (slots : List Float32) → Beeper τ → Option (List Float32 × Beeper τ)
  | [], beeper => some ([], beeper)
  | _ :: rest, beeper =>
    match beeper.catchUp with
    | none => none
    | some caught =>
      (fillSlots rest caught.advance).map fun (filled, after) =>
        (level caught.settings.amplitude caught.high :: filled, after)

/-- The mean of a block of levels, which has as many as a sample has points. -/
def slotMean (factor : Nat) (block : Array Float32) : Checked Float32 :=
  if factor = 0 then throw .division
  else pure (block.toList.foldl (· + ·) (-Sample.ofNat 0) / Sample.ofNat factor)

/-- Put the means of the levels in slots into a buffer of samples; samples without a block stay. -/
def mixSlots (factor : Nat) (slots : Array Float32) (samples : Array Float32) :
    Checked (Array Float32) := do
  let blocks ← Checked.chunks factor false slots
  let means ← (blocks.take samples.size).mapM (slotMean factor)
  pure (means.toArray ++ samples.extract means.length samples.size)

/-- Answer a request for samples with the slots of an earlier one: the samples, the slots and the
beeper after it. -/
def renderOver (beeper : Beeper τ) (slots samples : Array Float32) :
    Checked (Array Float32 × Array Float32 × Beeper τ) :=
  if beeper.pending.isEmpty then
    pure (samples.map fun _ => level beeper.settings.amplitude beeper.high, slots,
      beeper.countSilence)
  else do
    let points := samples.size * beeper.settings.factor
    let placed := ({ beeper with silentBuffers := 0 } : Beeper τ).resync points
    let (filled, after) ←
      Checked.ofOption (fillSlots (resized points (Sample.ofNat 0) slots).toList placed)
    let samples ← mixSlots beeper.settings.factor filled.toArray samples
    pure (samples, filled.toArray, after)

/-- A buffer is given the size asked for. -/
theorem size_resized {α : Type} (size : Nat) (filler : α) (buffer : Array α) :
    (resized size filler buffer).size = size := by
  simp only [resized, Array.size_append, Array.size_extract, Array.size_replicate]
  omega

/-- Filling slots plays as many points, and gives their levels, whatever the slots held. -/
theorem fillSlots_eq (slots : List Float32) (beeper : Beeper τ) (heard : Array Bool) :
    (fillSlots slots beeper).map (fun (filled, after) =>
        (heard.map (level beeper.settings.amplitude) ++ filled.toArray, after)) =
      (play slots.length beeper heard).map fun (levels, after) =>
        (levels.map (level beeper.settings.amplitude), after) := by
  induction slots generalizing beeper heard with
  | nil => simp [fillSlots, play]
  | cons slot rest ih =>
    simp only [fillSlots, List.length_cons, play]
    cases caughtUp : beeper.catchUp with
    | none => rfl
    | some caught =>
      have same : caught.advance.settings = beeper.settings := (movedOn_advance caughtUp).settings_eq
      have kept : caught.settings = beeper.settings := same
      have step := ih caught.advance (heard.push caught.high)
      rw [same] at step
      dsimp only
      rw [← step, kept, Option.map_map]
      congr 1
      funext result
      simp

/-- The mean of a block of slots is the mean of the levels that they hold. -/
theorem slotMean_map (amplitude : Float32) (factor : Nat) (block : Array Bool) :
    slotMean factor (block.map (level amplitude)) = mean amplitude factor block := by
  simp only [slotMean, mean, Array.toList_map, List.foldl_map]

/-- Slots are mixed like the levels that they hold. -/
theorem mixSlots_map {amplitude : Float32} {factor : Nat} (points : factor ≠ 0)
    (levels : Array Bool) (samples : Array Float32) :
    mixSlots factor (levels.map (level amplitude)) samples =
      mixInto amplitude factor levels samples := by
  simp only [mixSlots, mixInto, Checked.chunks_eq points, pure_bind, Array.size_map,
    ← Array.map_extract, ← List.map_take, List.mapM_map, Function.comp_def, slotMean_map]

/-- Filling slots for a stretch that can be played gives its levels. -/
theorem fillSlots_of_play {slots : List Float32} {beeper after : Beeper τ} {levels : Array Bool}
    (played : play slots.length beeper #[] = some (levels, after)) :
    fillSlots slots beeper =
      some ((levels.map (level beeper.settings.amplitude)).toList, after) := by
  have filled := fillSlots_eq slots beeper #[]
  rw [played, Option.map_some] at filled
  obtain ⟨⟨written, left⟩, fills, same⟩ := Option.map_eq_some_iff.1 filled
  simp only [Array.map_empty, Array.empty_append, Prod.mk.injEq] at same
  rw [fills, ← same.1, ← same.2]

/-- A request that can be played has its levels in the slots and its samples in the buffer, whatever
these held. -/
theorem renderOver_of_play {beeper after : Beeper τ} (mixable : beeper.settings.factor ≠ 0)
    (queued : beeper.pending.isEmpty = false) {samples : Array Float32} {points : Nat}
    (covers : points = samples.size * beeper.settings.factor) {levels : Array Bool}
    (played : play points (({ beeper with silentBuffers := 0 } : Beeper τ).resync points)
      (Array.emptyWithCapacity points) = some (levels, after)) (slots : Array Float32) :
    renderOver beeper slots samples =
      pure (mix beeper.settings.amplitude beeper.settings.factor samples.size levels,
        levels.map (level beeper.settings.amplitude), after) := by
  have enough : levels.size = samples.size * beeper.settings.factor := by
    have counted := size_play played
    rwa [Array.emptyWithCapacity_eq, Array.size_empty, Nat.zero_add, covers] at counted
  have many : (resized points (Sample.ofNat 0) slots : Array Float32).toList.length = points := by
    rw [Array.length_toList, size_resized]
  rw [← many, Array.emptyWithCapacity_eq] at played
  have filled := fillSlots_of_play played
  rw [many, settings_resync] at filled
  simp only [renderOver, queued, Bool.false_eq_true, if_false]
  rw [← covers, filled, Checked.ofOption_some, pure_bind]
  dsimp only
  rw [Array.toArray_toList, mixSlots_map mixable, mixInto_eq mixable enough, pure_bind]

end Bare

namespace Beeper

variable {τ : Type}

/-- The levels of the points of one sample, the first of which is at `first`. -/
def block (levelAt : Int → Bool) (first : Int) (factor : Nat) : List Bool :=
  (List.range factor).map fun point : Nat => levelAt (first + point)

/-- A block has as many levels as a sample has points. -/
theorem length_block (levelAt : Int → Bool) (first : Int) (factor : Nat) :
    (block levelAt first factor).length = factor := by
  simp [block]

/-- The blocks of a waveform are the levels of consecutive stretches. -/
theorem extract_waveform (levelAt : Int → Bool) (start : Int) {factor count index : Nat}
    (inside : index < count) :
    ((waveform levelAt start (count * factor)).extract
        (index * factor) (index * factor + factor)).toList =
      block levelAt (start + (index * factor : Nat)) factor := by
  have last := Nat.mul_le_mul_right factor (Nat.succ_le_of_lt inside)
  rw [Nat.succ_mul] at last
  apply List.ext_getElem
  · rw [length_block, Array.length_toList, Array.size_extract, waveform, Array.size_ofFn]
    omega
  · intro point _ _
    simp [waveform, block, Int.add_assoc]

/-- A sample of a waveform is the mean of the levels of its points. -/
theorem getElem?_mix_waveform {α : Type} [Sample α] (amplitude : α) (levelAt : Int → Bool)
    (start : Int) {factor count index : Nat} (inside : index < count) :
    (mix amplitude factor count (waveform levelAt start (count * factor)))[index]? =
      some (mean amplitude (block levelAt (start + (index * factor : Nat)) factor)) := by
  rw [mix, Array.getElem?_ofFn, dif_pos inside]
  dsimp only
  rw [extract_waveform levelAt start inside]

/-- A request for samples, over queued points that increase strictly, is answered in full. It gives
as many samples as asked for. The slot of each of its points has the level that the queue has
decided there, whatever the slots and samples held before; from slot to slot the level turns over
exactly at a queued point, and the points before the second slot all count in the first. Each
sample is the mean of the levels of its points, in exact numbers what the high ones among them are
more than the low ones. The points beyond the stretch stay queued, and the beeper knows its
place. -/
theorem request_answered {beeper : Beeper τ} (mixable : 1 ≤ beeper.settings.factor)
    (increasing : beeper.pending.toList.Pairwise (· < ·)) {newest : Int}
    (isNewest : beeper.pending.toList.getLast? = some newest) {count points : Nat}
    (covers : points = count * beeper.settings.factor)
    (within : beeper.startOf newest points + points ≤ timelineEnd) :
    ∃ samples after,
      beeper.render count = .heard samples after ∧
      samples.size = count ∧
      (∀ slots old : Array Float32, old.size = count →
        Bare.renderOver beeper slots old =
          pure (samples,
            (Array.ofFn fun slot : Fin points =>
              level beeper.settings.amplitude
                (flipped beeper.high
                  (beeper.pending.toList.countP (· ≤ beeper.startOf newest points + slot)))),
            after)) ∧
      (∀ slot, slot + 1 < points →
        (beeper.levelAt (beeper.startOf newest points + (slot + 1 : Nat)) ≠
            beeper.levelAt (beeper.startOf newest points + slot) ↔
          beeper.startOf newest points + (slot + 1 : Nat) ∈ beeper.pending.toList)) ∧
      (∀ index < count, ∃ levels,
        levels = block beeper.levelAt
          (beeper.startOf newest points + (index * beeper.settings.factor : Nat))
          beeper.settings.factor ∧
        samples[index]? = some (mean beeper.settings.amplitude levels) ∧
        ∀ amplitude : Rat,
          mean amplitude levels =
            amplitude * (2 * levels.count true - beeper.settings.factor) /
              beeper.settings.factor) ∧
      PlayedFrom (beeper.startOf newest points) points beeper after := by
  have factor : beeper.settings.factor ≠ 0 := by omega
  have newest? : beeper.pending.newest? = some newest := by
    rw [Queue.newest?_eq]
    exact isNewest
  obtain ⟨after, played, left⟩ := play_of_newest (increasing.imp Int.le_of_lt) within
  refine ⟨_, after, render_of_play factor newest? covers played, size_mix _ _ _ _, ?_, ?_, ?_,
    left⟩
  · intro slots old size
    rw [← resync_eq newest?] at played
    rw [← size] at covers ⊢
    rw [Bare.renderOver_of_play factor (isEmpty_of_newest? newest?) covers played, waveform,
      Array.map_ofFn]
    rfl
  · intro slot _
    have next := levelAt_succ_ne_iff increasing (beeper.startOf newest points + slot)
    push_cast
    rw [← Int.add_assoc]
    exact next
  · intro index inside
    refine ⟨_, rfl, ?_, fun amplitude => ?_⟩
    · rw [covers]
      exact getElem?_mix_waveform _ _ _ inside
    · rw [mean_rat, length_block]

/-- A beeper that has lost its place, with points before, in and beyond the stretch that a request
for four samples plays. -/
def crossed : Beeper Float where
  settings :=
    { supersamplesPerMs := 8, factor := 2, amplitude := 0.5, resyncThreshold := 3,
      backlogSpan := 100 }
  pending := ⟨[3, 8, 10], [20, 16, 15, 11]⟩
  high := true
  cursor := 0
  mustSync := true
  silentBuffers := 2

/-- The two points before the second slot cancel, two fall into the second sample, one is at the
last slot, and one just beyond it. -/
theorem request_answered_of_crossed :
    ∃ samples after,
      crossed.render 4 = .heard samples after ∧
      samples.size = 4 ∧
      Bare.renderOver crossed #[9, 9, 9] #[7, 7, 7, 7] =
        pure (samples, #[0.5, 0.5, -0.5, 0.5, 0.5, 0.5, 0.5, -0.5], after) ∧
      samples[1]? = some (mean (0.5 : Float32) [false, true]) ∧
      after.cursor = 16 ∧ after.pending.toList = [16, 20] ∧ after.high = false ∧
      after.mustSync = false ∧ after.silentBuffers = 0 := by
  have covers : 8 = 4 * crossed.settings.factor := rfl
  obtain ⟨samples, after, rendered, size, reused, _, means, left⟩ :=
    request_answered (by decide : 1 ≤ crossed.settings.factor)
      (by decide : crossed.pending.toList.Pairwise (· < ·))
      (rfl : crossed.pending.toList.getLast? = some 20)
      covers (by decide : crossed.startOf 20 8 + (8 : Nat) ≤ timelineEnd)
  obtain ⟨levels, rfl, second, _⟩ := means 1 (by decide)
  have kept : after.pending.toList = [16, 20] := left.pending_eq
  refine ⟨samples, after, rendered, size, ?_, second, left.cursor_eq, kept, ?_, left.mustSync_eq,
    left.silentBuffers_eq⟩
  · rw [reused #[9, 9, 9] #[7, 7, 7, 7] rfl]
    rfl
  · rw [left.high_eq, kept]
    rfl

end Beeper

end Spectrum48
