import Mathlib.Data.List.Nodup
import Mathlib.Tactic.Ring
import Spectrum48.Proofs.Beeper.Order
import Spectrum48.Proofs.Beeper.Waveform

/-!
# One request

A request for samples that starts with queued points begins where the last one ended, or, if the
place is lost, one and a half requests before the newest point. It plays the levels that the queue
has decided for the stretch from there on, leaves the points beyond the stretch in the queue, and
knows its place afterwards. The level turns over exactly at the points of the queue, except that
those before the stretch all count at its first point.
-/

namespace Spectrum48.Beeper

variable {τ : Type}

/-! ### Where a request begins -/

/-- The point at which a request for a number of points begins, with `newest` the newest point of
the queue. -/
def startOf (beeper : Beeper τ) (newest : Int) (points : Nat) : Int :=
  if beeper.mustSync then newest - (3 * points / 2 : Nat) else beeper.cursor

/-- A beeper that has found its place at a point. -/
def placedAt (beeper : Beeper τ) (start : Int) : Beeper τ :=
  { beeper with mustSync := false, silentBuffers := 0, cursor := start }

/-- A request with queued points begins at its start, knowing its place. -/
theorem resync_eq {beeper : Beeper τ} {newest : Int}
    (isNewest : beeper.pending.newest? = some newest) (points : Nat) :
    ({ beeper with silentBuffers := 0 } : Beeper τ).resync points =
      beeper.placedAt (beeper.startOf newest points) := by
  cases lost : beeper.mustSync with
  | true => simp [resync, startOf, placedAt, lost, isNewest]
  | false => simp [resync, startOf, placedAt, lost]

/-- A queue with a newest point is not empty. -/
theorem isEmpty_of_newest? {queue : Queue} {newest : Int} (isNewest : queue.newest? = some newest) :
    queue.isEmpty = false := by
  rw [Queue.newest?_eq] at isNewest
  apply Bool.eq_false_iff.2
  intro empty
  rw [Queue.isEmpty_iff.1 empty] at isNewest
  cases isNewest

/-- A queue that is not empty has a newest point. -/
theorem exists_newest? {queue : Queue} (queued : queue.isEmpty = false) :
    ∃ newest, queue.newest? = some newest := by
  rw [Queue.newest?_eq]
  apply Option.ne_none_iff_exists'.1
  rw [Ne, List.getLast?_eq_none_iff, ← Queue.isEmpty_iff, queued]
  exact Bool.false_ne_true

/-- A request with queued points is that of a beeper which has found its place at the start. -/
theorem render_eq_placedAt {beeper : Beeper τ} {newest : Int}
    (isNewest : beeper.pending.newest? = some newest) (count : Nat) :
    beeper.render count =
      (beeper.placedAt
        (beeper.startOf newest (count * beeper.settings.factor))).render count := by
  have empty := isEmpty_of_newest? isNewest
  have placed (start : Int) : (beeper.placedAt start).pending.isEmpty = false := empty
  have found (start : Int) (points : Nat) :
      ({ beeper.placedAt start with silentBuffers := 0 } : Beeper τ).resync points =
        beeper.placedAt start := by
    simp [resync, placedAt]
  unfold render
  rw [empty, placed]
  unfold renderQueued
  dsimp only
  rw [resync_eq isNewest, found]
  rfl

/-! ### What a request leaves in the queue -/

/-- In an ordered queue the points that stay are those beyond the bound. -/
theorem Queue.toList_dropOldest_of_ordered {queue : Queue}
    (ordered : queue.toList.Pairwise (· ≤ ·)) (bound : Int) :
    (queue.dropOldest bound).2.toList = queue.toList.filter (bound < ·) := by
  rw [toList_dropOldest]
  revert ordered
  induction queue.toList with
  | nil => simp
  | cons oldest rest ih =>
    intro ordered
    obtain ⟨first, ordered⟩ := List.pairwise_cons.1 ordered
    by_cases early : oldest ≤ bound
    · simp [early, ih ordered]
    · -- Nothing is removed, since all that follows lies beyond the oldest point.
      rw [List.dropWhile_cons_of_neg (by simpa using early), List.filter_eq_self.2]
      intro entry member
      have := List.mem_cons.1 member
      simp only [decide_eq_true_eq]
      rcases this with rfl | later
      · omega
      · have := first entry later
        omega

/-- Playing a stretch takes the points up to its last one from an ordered queue. -/
theorem toList_play {points : Nat} {beeper after : Beeper τ} {heard levels : Array Bool}
    (ordered : beeper.pending.toList.Pairwise (· ≤ ·))
    (played : play (points + 1) beeper heard = some (levels, after)) :
    after.pending.toList = beeper.pending.toList.filter (beeper.cursor + points < ·) := by
  induction points generalizing beeper heard with
  | zero =>
    simp only [play] at played
    split at played
    · cases played
    · next caught caughtUp =>
      cases played
      rw [catchUp_eq_some caughtUp]
      simpa [advance] using Queue.toList_dropOldest_of_ordered ordered beeper.cursor
  | succ points ih =>
    rw [play] at played
    split at played
    · cases played
    · next caught caughtUp =>
      have moved := movedOn_advance caughtUp
      have left : caught.advance.pending.toList
          = beeper.pending.toList.filter (beeper.cursor < ·) := by
        rw [catchUp_eq_some caughtUp]
        exact Queue.toList_dropOldest_of_ordered ordered beeper.cursor
      rw [ih (ordered.sublist moved.sublist) played, left, moved.cursor_eq, List.filter_filter]
      apply List.filter_congr
      intro entry _
      rw [← Bool.decide_and]
      congr 1
      push_cast
      apply propext
      omega

/-- Playing keeps the level once all queued points are played. -/
theorem levelAtEnd_play {points : Nat} {beeper after : Beeper τ} {heard levels : Array Bool}
    (played : play points beeper heard = some (levels, after)) :
    after.levelAtEnd = beeper.levelAtEnd :=
  keeps_play (fun other => other.levelAtEnd = beeper.levelAtEnd)
    (fun caughtUp same => (levelAtEnd_catchUp caughtUp).trans same) rfl played

/-- Levels that the same number of flips makes equal are equal. -/
theorem flipped_inj {high high' : Bool} {flips : Nat}
    (same : flipped high flips = flipped high' flips) : high = high' := by
  simpa [flipped] using same

/-- The level of a beeper differs from that of another one with the same last level by the points
that it has queued fewer. -/
theorem high_of_levelAtEnd {beeper after : Beeper τ} (same : after.levelAtEnd = beeper.levelAtEnd)
    (fewer : after.pending.size ≤ beeper.pending.size) :
    after.high = flipped beeper.high (beeper.pending.size - after.pending.size) := by
  have turned : flipped after.high after.pending.size =
      flipped (flipped beeper.high (beeper.pending.size - after.pending.size))
        after.pending.size := by
    rw [flipped_flipped, Nat.sub_add_cancel fewer]
    exact same
  exact flipped_inj turned

/-- How a beeper with queued points is left by a request that began at `start`. -/
structure PlayedFrom (start : Int) (points : Nat) (beeper after : Beeper τ) : Prop where
  /-- The cursor stands at the end of the stretch. -/
  cursor_eq : after.cursor = start + points
  /-- The points beyond the stretch are left. -/
  pending_eq : after.pending.toList =
    if points = 0 then beeper.pending.toList
    else beeper.pending.toList.filter (start + points - 1 < ·)
  /-- The level has turned over with every point that has left. -/
  high_eq : after.high =
    flipped beeper.high (beeper.pending.toList.length - after.pending.toList.length)
  /-- The place is known. -/
  mustSync_eq : after.mustSync = false
  /-- Silence is counted anew. -/
  silentBuffers_eq : after.silentBuffers = 0
  /-- The unchanging properties are the same. -/
  settings_eq : after.settings = beeper.settings

/-- A request takes points from the queue and adds none. -/
theorem PlayedFrom.sublist {start : Int} {points : Nat} {beeper after : Beeper τ}
    (left : PlayedFrom start points beeper after) :
    after.pending.toList.Sublist beeper.pending.toList := by
  rw [left.pending_eq]
  split
  · exact List.Sublist.refl _
  · exact List.filter_sublist

/-- Playing the stretch of a request that stays on the timeline gives the levels from its start
on. -/
theorem play_of_newest {beeper : Beeper τ} (ordered : beeper.pending.toList.Pairwise (· ≤ ·))
    {newest : Int} {points : Nat}
    (within : beeper.startOf newest points + points ≤ timelineEnd) :
    ∃ after,
      play points (beeper.placedAt (beeper.startOf newest points))
          (Array.emptyWithCapacity points) =
        some (waveform beeper.levelAt (beeper.startOf newest points) points, after) ∧
      PlayedFrom (beeper.startOf newest points) points beeper after := by
  let placed := beeper.placedAt (beeper.startOf newest points)
  have inOrder : placed.pending.toList.Pairwise (· ≤ ·) := ordered
  obtain ⟨after, played, moved⟩ :=
    play_eq_some points placed inOrder within (Array.emptyWithCapacity points)
  refine ⟨after, ?_, moved.cursor_eq, ?_, ?_, moved.mustSync_eq, moved.silentBuffers_eq,
    moved.settings_eq⟩
  · rw [Array.emptyWithCapacity_eq, Array.empty_append] at played
    exact played
  · cases points with
    | zero =>
      simp only [play, Option.some.injEq, Prod.mk.injEq] at played
      rw [← played.2]
      exact (if_pos rfl).symm
    | succ points =>
      rw [toList_play inOrder played, if_neg (Nat.succ_ne_zero points)]
      push_cast
      simp only [← Int.add_assoc, Int.add_sub_cancel]
      rfl
  · have kept : after.levelAtEnd = placed.levelAtEnd := levelAtEnd_play played
    have fewer := moved.sublist.length_le
    simp only [Queue.length_toList] at fewer ⊢
    exact high_of_levelAtEnd kept fewer

/-- A request with queued points is answered with the means of the levels that it plays. -/
theorem render_of_play {beeper after : Beeper τ} (mixable : beeper.settings.factor ≠ 0)
    {newest : Int} (isNewest : beeper.pending.newest? = some newest) {count points : Nat}
    (covers : points = count * beeper.settings.factor) {levels : Array Bool}
    (played : play points (beeper.placedAt (beeper.startOf newest points))
      (Array.emptyWithCapacity points) = some (levels, after)) :
    beeper.render count =
      .heard (mix beeper.settings.amplitude beeper.settings.factor count levels) after := by
  rw [← resync_eq isNewest] at played
  rw [render_eq_mix (isEmpty_of_newest? isNewest) covers played, if_neg mixable]

/-- A request with queued points that stays on the timeline is answered with the means of the
levels from its start on. -/
theorem render_of_newest {beeper : Beeper τ} (mixable : beeper.settings.factor ≠ 0)
    (ordered : beeper.pending.toList.Pairwise (· ≤ ·)) {newest : Int}
    (isNewest : beeper.pending.newest? = some newest) {count points : Nat}
    (covers : points = count * beeper.settings.factor)
    (within : beeper.startOf newest points + points ≤ timelineEnd) :
    ∃ after,
      beeper.render count =
        .heard
          (mix beeper.settings.amplitude beeper.settings.factor count
            (waveform beeper.levelAt (beeper.startOf newest points) points))
          after ∧
      PlayedFrom (beeper.startOf newest points) points beeper after := by
  obtain ⟨after, played, left⟩ := play_of_newest ordered within
  exact ⟨after, render_of_play mixable isNewest covers played, left⟩

/-- The points of a timeline that is reckoned in doubles do not lie beyond its end. -/
theorem pointAt_le_timelineEnd (settings : Settings Float) (time : Float) :
    settings.pointAt time ≤ timelineEnd :=
  (Numeric.toRange_mem Numeric.nearestNat (by decide) (by decide) _).2

/-! ### Where the level turns over -/

/-- From one point to the next the level turns over exactly if the next point is queued. -/
theorem levelAt_succ_ne_iff {beeper : Beeper τ}
    (increasing : beeper.pending.toList.Pairwise (· < ·)) (point : Int) :
    beeper.levelAt (point + 1) ≠ beeper.levelAt point ↔ point + 1 ∈ beeper.pending.toList := by
  have counted : beeper.pending.toList.countP (· ≤ point + 1) =
      beeper.pending.toList.countP (· ≤ point) + beeper.pending.toList.count (point + 1) := by
    induction beeper.pending.toList with
    | nil => rfl
    | cons entry rest ih =>
      simp only [List.countP_cons, List.count_cons, ih, decide_eq_true_eq, beq_iff_eq]
      split <;> split <;> split <;> omega
  have distinct : beeper.pending.toList.Nodup := increasing.imp Int.ne_of_lt
  unfold levelAt
  rw [counted, distinct.count]
  by_cases queued : point + 1 ∈ beeper.pending.toList
  · simp [queued, flipped_succ]
  · simp [queued]

/-! ### Means -/

/-- The mean of levels in exact numbers, told by how many of them are high. -/
theorem mean_rat (amplitude : Rat) (levels : List Bool) :
    mean amplitude levels =
      amplitude * (2 * levels.count true - levels.length) / levels.length := by
  have summed (sum : Rat) :
      levels.foldl (fun sum high => sum + level amplitude high) sum =
        sum + amplitude * (2 * levels.count true - levels.length) := by
    induction levels generalizing sum with
    | nil => simp
    | cons high rest ih =>
      rw [List.foldl_cons, ih]
      cases high with
      | true =>
        simp [level]
        ring
      | false =>
        simp [level]
        ring
  have start : (-Sample.ofNat 0 : Rat) = 0 := neg_zero
  have length : (Sample.ofNat levels.length : Rat) = levels.length := rfl
  rw [mean, start, length, summed, zero_add]

end Spectrum48.Beeper
