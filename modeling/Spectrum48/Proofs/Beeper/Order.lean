import Spectrum48.Proofs.Beeper.Level

/-!
# The order of the queue

The queued points increase strictly, and span no more than the backlog, as long as no toggle lies
before a queued point: one at the newest point takes it back, one beyond it is queued after what has
fallen too far behind is dropped. Playing only takes the oldest points away.
-/

namespace Spectrum48.Beeper

variable {τ : Type}

/-- The queued points increase strictly, and the newest one is no further from the oldest one than
the backlog spans. -/
structure Ordered (beeper : Beeper τ) : Prop where
  /-- Each point is beyond the older ones. -/
  increasing : beeper.pending.toList.Pairwise (· < ·)
  /-- No two points are further apart than the backlog spans. -/
  within : ∀ older ∈ beeper.pending.toList, ∀ newer ∈ beeper.pending.toList,
    newer - older ≤ beeper.settings.backlogSpan

/-- An empty queue is ordered. -/
theorem Ordered.of_isEmpty {beeper : Beeper τ} (silent : beeper.pending.toList = []) :
    beeper.Ordered := by
  constructor
  · rw [silent]
    exact .nil
  · rw [silent]
    exact List.forall_mem_nil _

/-- What is left of an ordered queue is ordered. -/
theorem Ordered.of_sublist {beeper after : Beeper τ} (ordered : beeper.Ordered)
    (left : after.pending.toList.Sublist beeper.pending.toList)
    (same : after.settings = beeper.settings) : after.Ordered := by
  refine ⟨ordered.increasing.sublist left, fun older old newer new => ?_⟩
  rw [same]
  exact ordered.within older (left.subset old) newer (left.subset new)

/-- After a toggle, what is queued was queued before or is the point of the toggle. -/
theorem mem_toggleAt {beeper : Beeper τ} {point entry : Int}
    (queued : entry ∈ (beeper.toggleAt point).pending.toList) :
    entry ∈ beeper.pending.toList ∨ entry = point := by
  by_cases newest : beeper.pending.newest? = some point
  · rw [toggleAt_of_newest newest] at queued
    rw [Queue.toList_of_newest? newest]
    exact .inl (List.mem_append_left _ queued)
  · rw [toggleAt_of_not_newest newest] at queued
    have queued := (Queue.sublist_dropOldest _ _).subset queued
    rw [Queue.toList_push, List.mem_append, List.mem_singleton] at queued
    exact queued

/-- In an increasing queue, a point that none lies beyond is the newest one. -/
theorem newest?_of_increasing {queue : Queue} (increasing : queue.toList.Pairwise (· < ·))
    {point : Int} (queued : point ∈ queue.toList) (latest : ∀ entry ∈ queue.toList, entry ≤ point) :
    queue.newest? = some point := by
  rw [Queue.newest?_eq]
  obtain ⟨older, newer, whole⟩ := List.append_of_mem queued
  rw [whole] at increasing latest ⊢
  cases newer with
  | nil => exact List.getLast?_concat
  | cons next rest =>
    have beyond : point < next :=
      (List.pairwise_cons.1 (List.pairwise_append.1 increasing).2.1).1 next List.mem_cons_self
    exact absurd (latest next (by simp)) (Int.not_le.2 beyond)

/-- A toggle that does not lie before a queued point keeps the queue ordered. -/
theorem Ordered.toggleAt {beeper : Beeper τ} (ordered : beeper.Ordered) {point : Int}
    (latest : ∀ entry ∈ beeper.pending.toList, entry ≤ point) :
    (beeper.toggleAt point).Ordered := by
  by_cases newest : beeper.pending.newest? = some point
  · rw [toggleAt_of_newest newest]
    refine ordered.of_sublist ?_ rfl
    rw [Queue.toList_of_newest? newest]
    exact List.sublist_append_left _ _
  · rw [toggleAt_of_not_newest newest]
    -- The newest queued point is another one, so all of them lie before the toggle.
    have before : ∀ entry ∈ beeper.pending.toList, entry < point := by
      intro entry queued
      have other : entry ≠ point := by
        rintro rfl
        exact newest (newest?_of_increasing ordered.increasing queued latest)
      have := latest entry queued
      omega
    have increasing : (beeper.pending.push point).toList.Pairwise (· < ·) := by
      rw [Queue.toList_push, List.pairwise_append]
      exact ⟨ordered.increasing, List.pairwise_singleton _ _, fun entry queued other same =>
        List.mem_singleton.1 same ▸ before entry queued⟩
    have early : ∀ entry ∈ (beeper.pending.push point).toList, entry ≤ point := by
      rw [Queue.toList_push]
      exact List.forall_mem_append.2 ⟨latest, List.forall_mem_singleton.2 (Int.le_refl _)⟩
    refine ⟨increasing.sublist (Queue.sublist_dropOldest _ _), ?_⟩
    intro older old newer new
    have above := Queue.lt_of_mem_dropOldest (increasing.imp Int.le_of_lt) old
    have below := early newer ((Queue.sublist_dropOldest _ _).subset new)
    dsimp only
    omega

/-! ### Toggles in order -/

section Notify

variable [Scalar τ]

/-- Toggles leave the unchanging properties alone. -/
theorem settings_foldl_notify (told : List τ) (beeper : Beeper τ) :
    (told.foldl notify beeper).settings = beeper.settings := by
  induction told generalizing beeper with
  | nil => rfl
  | cons time rest ih => exact (ih _).trans (settings_toggleAt _ _)

/-- Toggles whose points neither decrease nor lie before a queued point keep the queue ordered. What
is queued after them was queued before or is one of their points. -/
theorem Ordered.foldl_notify {beeper : Beeper τ} (ordered : beeper.Ordered) {told : List τ}
    (forward : told.Pairwise fun time later =>
      beeper.settings.pointAt time ≤ beeper.settings.pointAt later)
    (latest : ∀ entry ∈ beeper.pending.toList, ∀ time ∈ told,
      entry ≤ beeper.settings.pointAt time) :
    (told.foldl notify beeper).Ordered ∧
    ∀ entry ∈ (told.foldl notify beeper).pending.toList,
      entry ∈ beeper.pending.toList ∨ ∃ time ∈ told, entry = beeper.settings.pointAt time := by
  induction told generalizing beeper with
  | nil => exact ⟨ordered, fun entry queued => .inl queued⟩
  | cons time rest ih =>
    obtain ⟨first, forward⟩ := List.pairwise_cons.1 forward
    have same : (beeper.notify time).settings = beeper.settings := settings_toggleAt _ _
    have toggled : (beeper.notify time).Ordered :=
      ordered.toggleAt fun entry queued => latest entry queued time List.mem_cons_self
    have before : ∀ entry ∈ (beeper.notify time).pending.toList, ∀ later ∈ rest,
        entry ≤ beeper.settings.pointAt later := by
      intro entry queued later told
      obtain queued | rfl := mem_toggleAt queued
      · exact latest entry queued later (List.mem_cons_of_mem _ told)
      · exact first later told
    rw [← same] at forward before
    obtain ⟨done, left⟩ := ih toggled forward before
    refine ⟨done, fun entry queued => ?_⟩
    obtain queued | ⟨later, told, point⟩ := left entry queued
    · obtain queued | point := mem_toggleAt queued
      · exact .inl queued
      · exact .inr ⟨time, List.mem_cons_self, point⟩
    · rw [same] at point
      exact .inr ⟨later, List.mem_cons_of_mem _ told, point⟩

end Notify

/-! ### Playing -/

/-- A new place leaves the queue alone. -/
theorem pending_resync (beeper : Beeper τ) (points : Nat) :
    (({ beeper with silentBuffers := 0 } : Beeper τ).resync points).pending = beeper.pending := by
  unfold resync
  split
  · split <;> rfl
  · rfl

/-- Silence leaves the queue alone. -/
theorem pending_countSilence (beeper : Beeper τ) :
    beeper.countSilence.pending = beeper.pending := by
  unfold countSilence
  dsimp only
  split <;> rfl

/-- A request for samples takes points from the queue and adds none. -/
theorem sublist_render {beeper after : Beeper τ} {count : Nat}
    (returned : (beeper.render count).after? = some after) :
    after.pending.toList.Sublist beeper.pending.toList := by
  refine keeps_render (fun other => other.pending.toList.Sublist beeper.pending.toList)
    ?_ ?_ ?_ (List.Sublist.refl _) returned
  · intro other left
    rw [pending_countSilence]
    exact left
  · intro other points left
    rw [pending_resync]
    exact left
  · intro other caught caughtUp left
    rw [catchUp_eq_some caughtUp]
    exact (Queue.sublist_dropOldest _ _).trans left

end Spectrum48.Beeper
