import Spectrum48.Proofs.Beeper.Level

/-!
# The waveform of a request

A request for samples that starts with queued points plays a stretch of the timeline. Over an
ordered queue the levels it plays are those that the queue has decided: at each point the level
due there. What is left of the queue decides the rest of the timeline as before.
-/

namespace Spectrum48.Beeper

variable {τ : Type}

/-- The levels of consecutive points of a timeline. -/
def waveform (levelAt : Int → Bool) (first : Int) (points : Nat) : Array Bool :=
  Array.ofFn fun slot : Fin points => levelAt (first + slot)

/-- A waveform depends only on the levels of the points that it covers. -/
theorem waveform_congr {levelAt levelAt' : Int → Bool} {first : Int} {points : Nat}
    (same : ∀ point, first ≤ point → levelAt point = levelAt' point) :
    waveform levelAt first points = waveform levelAt' first points := by
  unfold waveform
  congr 1
  funext slot
  exact same _ (by omega)

/-- A waveform starts with the level of its first point. -/
theorem waveform_succ (levelAt : Int → Bool) (first : Int) (points : Nat) :
    waveform levelAt first (points + 1)
      = #[levelAt first] ++ waveform levelAt (first + 1) points := by
  have next (slot : Fin points) : first + (slot.succ.val : Int) = first + 1 + slot.val := by
    rw [Fin.val_succ]
    omega
  simp only [waveform, Array.ofFn_succ', next, Fin.val_zero, Int.natCast_zero, Int.add_zero]

/-- A beeper whose cursor has moved on by a number of points, with the timeline beyond decided as
before. -/
structure MovedOn (points : Nat) (beeper after : Beeper τ) : Prop where
  cursor_eq : after.cursor = beeper.cursor + points
  settings_eq : after.settings = beeper.settings
  mustSync_eq : after.mustSync = beeper.mustSync
  silentBuffers_eq : after.silentBuffers = beeper.silentBuffers
  sublist : after.pending.toList.Sublist beeper.pending.toList
  levelAt_eq : ∀ point, beeper.cursor + points ≤ point →
    after.levelAt point = beeper.levelAt point

/-- A beeper that stays where it is has moved on by nothing. -/
theorem MovedOn.refl (beeper : Beeper τ) : MovedOn 0 beeper beeper where
  cursor_eq := by simp
  settings_eq := rfl
  mustSync_eq := rfl
  silentBuffers_eq := rfl
  sublist := List.Sublist.refl _
  levelAt_eq _ _ := rfl

/-- Moving on twice moves on by both numbers of points. -/
theorem MovedOn.trans {first second : Nat} {beeper middle after : Beeper τ}
    (one : MovedOn first beeper middle) (two : MovedOn second middle after) :
    MovedOn (first + second) beeper after where
  cursor_eq := by
    rw [two.cursor_eq, one.cursor_eq]
    push_cast
    omega
  settings_eq := two.settings_eq.trans one.settings_eq
  mustSync_eq := two.mustSync_eq.trans one.mustSync_eq
  silentBuffers_eq := two.silentBuffers_eq.trans one.silentBuffers_eq
  sublist := two.sublist.trans one.sublist
  levelAt_eq point ahead := by
    have middleCursor := one.cursor_eq
    push_cast at ahead
    rw [two.levelAt_eq point (by omega), one.levelAt_eq point (by omega)]

/-- Playing one point moves on by one point. -/
theorem movedOn_advance {beeper caught : Beeper τ} (ended : beeper.catchUp = some caught) :
    MovedOn 1 beeper caught.advance where
  cursor_eq := by
    rw [catchUp_eq_some ended]
    rfl
  settings_eq := by
    rw [catchUp_eq_some ended]
    rfl
  mustSync_eq := by
    rw [catchUp_eq_some ended]
    rfl
  silentBuffers_eq := by
    rw [catchUp_eq_some ended]
    rfl
  sublist := by
    rw [catchUp_eq_some ended]
    exact Queue.sublist_dropOldest _ _
  levelAt_eq point ahead := levelAt_catchUp ended (by omega)

/-- Playing a stretch before the end of the timeline gives the levels decided by an ordered queue,
and moves on by the stretch. -/
theorem play_eq_some (points : Nat) (beeper : Beeper τ)
    (ordered : beeper.pending.toList.Pairwise (· ≤ ·))
    (within : beeper.cursor + points ≤ timelineEnd) (heard : Array Bool) :
    ∃ after,
      play points beeper heard
        = some (heard ++ waveform beeper.levelAt beeper.cursor points, after) ∧
      MovedOn points beeper after := by
  induction points generalizing beeper heard with
  | zero => exact ⟨beeper, by simp [play, waveform], MovedOn.refl beeper⟩
  | succ points ih =>
    push_cast at within
    obtain ⟨caught, caughtUp⟩ : ∃ caught, beeper.catchUp = some caught :=
      ⟨_, catchUp_of_lt (by omega)⟩
    have moved := movedOn_advance caughtUp
    have cursor : caught.advance.cursor = beeper.cursor + 1 := moved.cursor_eq
    obtain ⟨after, played, movedOn⟩ :=
      ih caught.advance (ordered.sublist moved.sublist) (by omega) (heard.push caught.high)
    refine ⟨after, ?_, by rw [Nat.add_comm]; exact moved.trans movedOn⟩
    have level : caught.high = beeper.levelAt beeper.cursor := high_of_catchUp ordered caughtUp
    have later : waveform caught.advance.levelAt (beeper.cursor + 1) points
        = waveform beeper.levelAt (beeper.cursor + 1) points :=
      waveform_congr fun point ahead => moved.levelAt_eq point ahead
    simp only [play, caughtUp, played]
    rw [cursor, later, level, waveform_succ, ← Array.append_assoc, Array.push_eq_append]

/-! ### Requests -/

/-- Silence changes nothing but its own count and the resolve to find a new place. -/
theorem countSilence_eq (beeper : Beeper τ) :
    beeper.countSilence =
      { beeper with
        mustSync := beeper.countSilence.mustSync
        silentBuffers := beeper.countSilence.silentBuffers } := by
  unfold countSilence
  dsimp only
  split <;> rfl

/-- A beeper that knows its place has no need to find one. -/
theorem resync_of_synced {beeper : Beeper τ} (synced : beeper.mustSync = false) (points : Nat) :
    ({ beeper with silentBuffers := 0 } : Beeper τ).resync points =
      { beeper with silentBuffers := 0 } := by
  simp [resync, synced]

/-- A request in a beeper that knows its place plays the levels that an ordered queue has decided
from the cursor on. -/
theorem play_of_synced {beeper : Beeper τ} (synced : beeper.mustSync = false)
    (ordered : beeper.pending.toList.Pairwise (· ≤ ·)) {points : Nat}
    (within : beeper.cursor + points ≤ timelineEnd) :
    ∃ after,
      play points (({ beeper with silentBuffers := 0 } : Beeper τ).resync points)
          (Array.emptyWithCapacity points) =
        some (waveform beeper.levelAt beeper.cursor points, after) ∧
      MovedOn points { beeper with silentBuffers := 0 } after := by
  obtain ⟨after, played, moved⟩ :=
    play_eq_some points { beeper with silentBuffers := 0 } ordered within
      (Array.emptyWithCapacity points)
  refine ⟨after, ?_, moved⟩
  rw [resync_of_synced synced, played, Array.emptyWithCapacity_eq, Array.empty_append]
  rfl

/-- A request that starts with queued points is answered with the means of the levels that it plays,
as far as they can be mixed. -/
theorem render_eq_mix {beeper after : Beeper τ} (queued : beeper.pending.isEmpty = false)
    {count points : Nat} (covers : points = count * beeper.settings.factor) {levels : Array Bool}
    (played : play points (({ beeper with silentBuffers := 0 } : Beeper τ).resync points)
      (Array.emptyWithCapacity points) = some (levels, after)) :
    beeper.render count =
      if beeper.settings.factor = 0 then .unmixable after
      else .heard (mix beeper.settings.amplitude beeper.settings.factor count levels) after := by
  subst covers
  simp only [render, queued, renderQueued, Bool.false_eq_true, if_false, played]
  split
  · next unmixable =>
    -- Without points there is nothing to play, and the beeper is left where it was placed.
    rw [unmixable, Nat.mul_zero] at played ⊢
    cases played
    rfl
  · rfl

end Spectrum48.Beeper
