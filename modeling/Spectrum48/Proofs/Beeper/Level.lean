import Mathlib.Data.List.TakeWhile
import Spectrum48.Beeper.Basic

/-!
# The level to come

What is queued decides what will be heard. Two observations of a beeper carry the proofs: its level
once all queued points are played, and its level at a point of the timeline if nothing more is
queued. A toggle turns over the first, and the second from its point on. Playing changes neither:
each point that leaves the queue turns the present level over.
-/

namespace Spectrum48.Beeper

variable {τ : Type} [Scalar τ]

/-- No flips leave a level alone. -/
theorem flipped_zero (high : Bool) : flipped high 0 = high := by
  simp [flipped]

/-- Flips add up. -/
theorem flipped_flipped (high : Bool) (first second : Nat) :
    flipped (flipped high first) second = flipped high (first + second) := by
  unfold flipped
  rw [Bool.xor_assoc]
  congr 1
  rcases Nat.mod_two_eq_zero_or_one first with even | odd <;>
    rcases Nat.mod_two_eq_zero_or_one second with even' | odd' <;>
    simp [Nat.add_mod, *]

/-- One more flip turns a level over. -/
theorem flipped_succ (high : Bool) (flips : Nat) :
    flipped high (flips + 1) = !flipped high flips := by
  rw [← flipped_flipped]
  simp [flipped]

/-! ### Removing points -/

namespace Queue

/-- The newest point follows all that stay when it is removed. -/
theorem toList_of_newest? {queue : Queue} {point : Int} (newest : queue.newest? = some point) :
    queue.toList = queue.dropNewest.toList ++ [point] := by
  rw [newest?_eq, List.getLast?_eq_some_iff] at newest
  obtain ⟨older, whole⟩ := newest
  rw [toList_dropNewest, whole, List.dropLast_concat]

/-- What leaves a queue and what stays in it is all of it. -/
theorem fst_add_size_dropOldest (queue : Queue) (bound : Int) :
    (queue.dropOldest bound).1 + (queue.dropOldest bound).2.size = queue.size := by
  have whole := congrArg List.length
    (List.takeWhile_append_dropWhile (p := (· ≤ bound)) (l := queue.toList))
  rw [List.length_append] at whole
  rw [fst_dropOldest, ← length_toList, toList_dropOldest, ← length_toList]
  exact whole

/-- Up to a point that is not before the bound, the points that leave a queue are counted like
those that stay. -/
theorem fst_add_countP_dropOldest (queue : Queue) {bound point : Int} (within : bound ≤ point) :
    (queue.dropOldest bound).1 + (queue.dropOldest bound).2.toList.countP (· ≤ point)
      = queue.toList.countP (· ≤ point) := by
  have taken : (queue.toList.takeWhile (· ≤ bound)).countP (· ≤ point)
      = (queue.toList.takeWhile (· ≤ bound)).length := by
    rw [List.countP_eq_length]
    intro entry member
    have early := List.mem_takeWhile_imp member
    simp only [decide_eq_true_eq] at early ⊢
    omega
  rw [fst_dropOldest, toList_dropOldest, ← taken, ← List.countP_append,
    List.takeWhile_append_dropWhile]

/-- In an ordered queue only points beyond the bound stay. -/
theorem lt_of_mem_dropOldest {queue : Queue} (ordered : queue.toList.Pairwise (· ≤ ·))
    {bound entry : Int} (member : entry ∈ (queue.dropOldest bound).2.toList) : bound < entry := by
  rw [toList_dropOldest] at member
  revert ordered member
  induction queue.toList with
  | nil => simp
  | cons oldest rest ih =>
    intro ordered member
    obtain ⟨first, ordered⟩ := List.pairwise_cons.1 ordered
    by_cases early : oldest ≤ bound
    · rw [List.dropWhile_cons_of_pos (by simpa using early)] at member
      exact ih ordered member
    · rw [List.dropWhile_cons_of_neg (by simpa using early)] at member
      rcases List.mem_cons.1 member with rfl | later
      · omega
      · have := first entry later
        omega

/-- Points stay in their order. -/
theorem sublist_dropOldest (queue : Queue) (bound : Int) :
    (queue.dropOldest bound).2.toList.Sublist queue.toList := by
  rw [toList_dropOldest]
  exact List.dropWhile_sublist _

end Queue

/-! ### What a request keeps -/

/-- The beeper after a request for samples, unless the request never returns. -/
def Playback.after? : Playback τ → Option (Beeper τ)
  | .heard _ after => some after
  | .unmixable after => some after
  | .endless => none

omit [Scalar τ] in
/-- What playing each point keeps is kept by playing many. -/
theorem keeps_play (holds : Beeper τ → Prop)
    (point : ∀ {beeper caught : Beeper τ}, beeper.catchUp = some caught →
      holds beeper → holds caught.advance)
    {points : Nat} {beeper after : Beeper τ} (start : holds beeper) {heard levels : Array Bool}
    (ended : play points beeper heard = some (levels, after)) : holds after := by
  induction points generalizing beeper heard with
  | zero =>
    simp only [play, Option.some.injEq, Prod.mk.injEq] at ended
    exact ended.2 ▸ start
  | succ points ih =>
    simp only [play] at ended
    split at ended
    · cases ended
    · next caught caughtUp => exact ih (point caughtUp start) ended

omit [Scalar τ] in
/-- What silence, a new place and playing each point keep is kept by a request for samples. -/
theorem keeps_render (holds : Beeper τ → Prop)
    (silence : ∀ beeper : Beeper τ, holds beeper → holds beeper.countSilence)
    (place : ∀ (beeper : Beeper τ) (points : Nat), holds beeper →
      holds (({ beeper with silentBuffers := 0 } : Beeper τ).resync points))
    (point : ∀ {beeper caught : Beeper τ}, beeper.catchUp = some caught →
      holds beeper → holds caught.advance)
    {beeper after : Beeper τ} (start : holds beeper) {count : Nat}
    (returned : (beeper.render count).after? = some after) : holds after := by
  simp only [render] at returned
  split at returned
  · cases returned
    exact silence beeper start
  · simp only [renderQueued] at returned
    split at returned
    · cases returned
      exact place beeper _ start
    · split at returned
      · cases returned
      · next levels played ended =>
        cases returned
        exact keeps_play holds point (place beeper _ start) ended

omit [Scalar τ] in
/-- What silence, a new place and playing each point leave alone, a request for samples does. -/
theorem observe_render {α : Type} (observe : Beeper τ → α)
    (silence : ∀ beeper : Beeper τ, observe beeper.countSilence = observe beeper)
    (place : ∀ (beeper : Beeper τ) (points : Nat),
      observe (({ beeper with silentBuffers := 0 } : Beeper τ).resync points) = observe beeper)
    (point : ∀ {beeper caught : Beeper τ}, beeper.catchUp = some caught →
      observe caught.advance = observe beeper)
    {beeper after : Beeper τ} {count : Nat}
    (returned : (beeper.render count).after? = some after) : observe after = observe beeper :=
  keeps_render (fun other => observe other = observe beeper)
    (fun other same => (silence other).trans same)
    (fun other points same => (place other points).trans same)
    (fun caughtUp same => (point caughtUp).trans same) rfl returned

/-! ### The level once all is played -/

/-- The level once all queued points have been played. -/
def levelAtEnd (beeper : Beeper τ) : Bool := flipped beeper.high beeper.pending.size

omit [Scalar τ] in
/-- A toggle at the newest point takes that point back. -/
theorem toggleAt_of_newest {beeper : Beeper τ} {point : Int}
    (newest : beeper.pending.newest? = some point) :
    beeper.toggleAt point = { beeper with pending := beeper.pending.dropNewest } := by
  simp [toggleAt, newest]

omit [Scalar τ] in
/-- A toggle anywhere else is queued, and what lies too far back counts as played. -/
theorem toggleAt_of_not_newest {beeper : Beeper τ} {point : Int}
    (other : beeper.pending.newest? ≠ some point) :
    beeper.toggleAt point =
      let kept := (beeper.pending.push point).dropOldest (point - beeper.settings.backlogSpan - 1)
      { beeper with
        pending := kept.2
        high := flipped beeper.high kept.1
        mustSync := beeper.mustSync || kept.1 != 0 } := by
  simp [toggleAt, other]

omit [Scalar τ] in
/-- A toggle turns the last level over, whether it is queued or takes a point back, and whatever
is dropped with it. -/
theorem levelAtEnd_toggleAt (beeper : Beeper τ) (point : Int) :
    (beeper.toggleAt point).levelAtEnd = !beeper.levelAtEnd := by
  by_cases newest : beeper.pending.newest? = some point
  · have removed : beeper.pending.dropNewest.size + 1 = beeper.pending.size := by
      rw [← Queue.length_toList, ← Queue.length_toList, Queue.toList_of_newest? newest,
        List.length_append, List.length_singleton]
    rw [toggleAt_of_newest newest]
    simp only [levelAtEnd]
    rw [← removed, flipped_succ, Bool.not_not]
  · have pushed : (beeper.pending.push point).size = beeper.pending.size + 1 := by
      rw [← Queue.length_toList, Queue.toList_push, List.length_append, Queue.length_toList]
      rfl
    rw [toggleAt_of_not_newest newest]
    simp only [levelAtEnd]
    rw [flipped_flipped, Queue.fst_add_size_dropOldest, pushed, flipped_succ]

omit [Scalar τ] in
/-- Before the end of the timeline the cursor can always be caught up with. -/
theorem catchUp_of_lt {beeper : Beeper τ} (within : beeper.cursor < timelineEnd) :
    beeper.catchUp = some
      { beeper with
        pending := (beeper.pending.dropOldest beeper.cursor).2
        high := flipped beeper.high (beeper.pending.dropOldest beeper.cursor).1 } := by
  have inside : ¬ timelineEnd ≤ beeper.cursor := by omega
  simp [catchUp, inside]

omit [Scalar τ] in
/-- Catching up, where it ends, takes the points up to the cursor from the queue. -/
theorem catchUp_eq_some {beeper caught : Beeper τ} (ended : beeper.catchUp = some caught) :
    caught =
      { beeper with
        pending := (beeper.pending.dropOldest beeper.cursor).2
        high := flipped beeper.high (beeper.pending.dropOldest beeper.cursor).1 } := by
  simp only [catchUp] at ended
  split at ended
  · cases ended
  · exact (Option.some.inj ended).symm

omit [Scalar τ] in
/-- Catching up plays points and keeps the last level. -/
theorem levelAtEnd_catchUp {beeper caught : Beeper τ} (ended : beeper.catchUp = some caught) :
    caught.levelAtEnd = beeper.levelAtEnd := by
  rw [catchUp_eq_some ended]
  simp only [levelAtEnd]
  rw [flipped_flipped, Queue.fst_add_size_dropOldest]

omit [Scalar τ] in
/-- A new place keeps the queue and the level. -/
theorem levelAtEnd_resync (beeper : Beeper τ) (points : Nat) :
    (({ beeper with silentBuffers := 0 } : Beeper τ).resync points).levelAtEnd =
      beeper.levelAtEnd := by
  unfold resync
  split
  · split <;> rfl
  · rfl

omit [Scalar τ] in
/-- Silence keeps the queue and the level. -/
theorem levelAtEnd_countSilence (beeper : Beeper τ) :
    beeper.countSilence.levelAtEnd = beeper.levelAtEnd := by
  unfold countSilence
  dsimp only
  split <;> rfl

omit [Scalar τ] in
/-- A request for samples keeps the last level. -/
theorem levelAtEnd_render {beeper after : Beeper τ} {count : Nat}
    (returned : (beeper.render count).after? = some after) :
    after.levelAtEnd = beeper.levelAtEnd := by
  apply observe_render levelAtEnd levelAtEnd_countSilence levelAtEnd_resync ?_ returned
  intro middle caught caughtUp
  change caught.levelAtEnd = middle.levelAtEnd
  exact levelAtEnd_catchUp caughtUp

omit [Scalar τ] in
/-- With nothing queued, the last level is the present one, and a request for samples holds it. -/
theorem render_of_isEmpty {beeper : Beeper τ} (silent : beeper.pending.isEmpty = true)
    (count : Nat) :
    beeper.render count =
      .heard (Array.replicate count (level beeper.settings.amplitude beeper.levelAtEnd))
        beeper.countSilence := by
  have nothing : beeper.pending.size = 0 := by
    rw [← Queue.length_toList, Queue.isEmpty_iff.1 silent]
    rfl
  simp [render, silent, levelAtEnd, nothing, flipped_zero]

/-! ### What never changes -/

omit [Scalar τ] in
/-- Toggling leaves the unchanging properties alone. -/
theorem settings_toggleAt (beeper : Beeper τ) (point : Int) :
    (beeper.toggleAt point).settings = beeper.settings := by
  unfold toggleAt
  split <;> rfl

omit [Scalar τ] in
/-- A new place leaves the unchanging properties alone. -/
theorem settings_resync (beeper : Beeper τ) (points : Nat) :
    (({ beeper with silentBuffers := 0 } : Beeper τ).resync points).settings =
      beeper.settings := by
  unfold resync
  split
  · split <;> rfl
  · rfl

omit [Scalar τ] in
/-- Silence leaves the unchanging properties alone. -/
theorem settings_countSilence (beeper : Beeper τ) :
    beeper.countSilence.settings = beeper.settings := by
  unfold countSilence
  dsimp only
  split <;> rfl

omit [Scalar τ] in
/-- A request for samples leaves the unchanging properties alone. -/
theorem settings_render {beeper after : Beeper τ} {count : Nat}
    (returned : (beeper.render count).after? = some after) :
    after.settings = beeper.settings := by
  apply observe_render settings settings_countSilence settings_resync ?_ returned
  intro middle caught caughtUp
  rw [catchUp_eq_some caughtUp]
  rfl

/-! ### The level at a point -/

/-- The level at a point of the timeline, if nothing more is queued. -/
def levelAt (beeper : Beeper τ) (point : Int) : Bool :=
  flipped beeper.high (beeper.pending.toList.countP (· ≤ point))

omit [Scalar τ] in
/-- A toggle that drops nothing turns the level over from its point on. -/
theorem levelAt_toggleAt {beeper : Beeper τ} {point : Int}
    (kept : (beeper.toggleAt point).mustSync = false) (other : Int) :
    (beeper.toggleAt point).levelAt other = (beeper.levelAt other ^^ decide (point ≤ other)) := by
  by_cases newest : beeper.pending.newest? = some point
  · rw [toggleAt_of_newest newest]
    simp only [levelAt]
    rw [Queue.toList_of_newest? newest, List.countP_append, List.countP_singleton]
    by_cases reached : point ≤ other
    · simp [reached, flipped_succ]
    · simp [reached]
  · rw [toggleAt_of_not_newest newest] at kept ⊢
    simp only [Bool.or_eq_false_iff, bne_eq_false_iff_eq] at kept
    have nothing := kept.2
    rw [Queue.fst_dropOldest, List.length_eq_zero_iff] at nothing
    have all := List.takeWhile_append_dropWhile
      (p := (· ≤ point - beeper.settings.backlogSpan - 1)) (l := (beeper.pending.push point).toList)
    rw [nothing, List.nil_append] at all
    simp only [levelAt]
    rw [kept.2, flipped_zero, Queue.toList_dropOldest, all, Queue.toList_push, List.countP_append,
      List.countP_singleton]
    by_cases reached : point ≤ other
    · simp [reached, flipped_succ]
    · simp [reached]

omit [Scalar τ] in
/-- Catching up keeps the level at the cursor and beyond it. -/
theorem levelAt_catchUp {beeper caught : Beeper τ} (ended : beeper.catchUp = some caught)
    {point : Int} (ahead : beeper.cursor ≤ point) :
    caught.levelAt point = beeper.levelAt point := by
  rw [catchUp_eq_some ended]
  simp only [levelAt]
  rw [flipped_flipped, Queue.fst_add_countP_dropOldest _ ahead]

omit [Scalar τ] in
/-- Catching up reaches the level at the cursor. -/
theorem high_of_catchUp {beeper caught : Beeper τ}
    (ordered : beeper.pending.toList.Pairwise (· ≤ ·)) (ended : beeper.catchUp = some caught) :
    caught.high = beeper.levelAt beeper.cursor := by
  rw [catchUp_eq_some ended]
  have beyond : (beeper.pending.dropOldest beeper.cursor).2.toList.countP (· ≤ beeper.cursor)
      = 0 := by
    rw [List.countP_eq_zero]
    intro entry member
    have := Queue.lt_of_mem_dropOldest ordered member
    simp only [decide_eq_true_eq]
    omega
  simp only [levelAt]
  rw [← Queue.fst_add_countP_dropOldest _ (Int.le_refl _), beyond, Nat.add_zero]

end Spectrum48.Beeper
