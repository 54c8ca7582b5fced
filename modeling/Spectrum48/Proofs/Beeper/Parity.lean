import Mathlib.Algebra.BigOperators.Ring.Nat
import Mathlib.Algebra.Order.Ring.Canonical
import Mathlib.Data.Finset.Sort
import Mathlib.Data.Int.ConditionallyCompleteOrder
import Spectrum48.Proofs.Beeper.Backlog
import Spectrum48.Proofs.Beeper.Request

/-!
# Toggles that nobody listens to

While the host asks for no samples, what is queued depends on the toggled points alone. A point
that was toggled an even number of times is as if it had never been toggled, and one that lies
further back than the backlog spans has been dropped. Each dropped point has turned the level over.
So the queue holds, in order, the points toggled an odd number of times that lie within the backlog
before the last toggle, and the level has turned over with every such point before that.
-/

namespace Spectrum48.Beeper

variable {τ : Type}

/-- The points that were toggled an odd number of times. -/
def oddPoints (toggled : List Int) : Finset Int :=
  toggled.toFinset.filter fun point => Odd (toggled.count point)

/-- A point is toggled an odd number of times if it is counted so. -/
theorem mem_oddPoints {toggled : List Int} {point : Int} :
    point ∈ oddPoints toggled ↔ Odd (toggled.count point) := by
  simp only [oddPoints, Finset.mem_filter, List.mem_toFinset, and_iff_right_iff_imp]
  intro odd
  exact List.count_pos_iff.1 odd.pos

/-- One more toggle at a point changes for this point alone whether it is toggled an odd number of
times. -/
theorem mem_oddPoints_append {toggled : List Int} {point other : Int} :
    other ∈ oddPoints (toggled ++ [point]) ↔
      if other = point then other ∉ oddPoints toggled else other ∈ oddPoints toggled := by
  simp only [mem_oddPoints, List.count_append]
  split
  · next same =>
    subst same
    rw [List.count_singleton_self, Nat.odd_add_one]
  · next different =>
    rw [List.count_singleton, beq_eq_false_iff_ne.2 (Ne.symm different)]
    simp

/-- All toggles are odd in number together if an odd number of points is toggled oddly. -/
theorem odd_card_oddPoints (toggled : List Int) :
    Odd (oddPoints toggled).card ↔ Odd toggled.length := by
  rw [← List.sum_toFinset_count_eq_length, Finset.odd_sum_iff_odd_card_odd]
  rfl

/-- Whether a level is turned over depends on whether the number of flips is odd. -/
theorem flipped_congr {flips flips' : Nat} (same : Odd flips ↔ Odd flips') {high : Bool} :
    flipped high flips = flipped high flips' := by
  rw [Nat.odd_iff, Nat.odd_iff] at same
  unfold flipped
  congr 1
  rw [Bool.eq_iff_iff]
  simpa using same

/-- An odd number of flips turns a level over. -/
theorem flipped_ne_iff {high : Bool} {flips : Nat} : flipped high flips ≠ high ↔ Odd flips := by
  rw [Nat.odd_iff]
  unfold flipped
  cases high <;> simp

/-! ### The queue -/

/-- After a toggle that lies before no queued point, its own point is queued if it was not, and of
the others those are left that the backlog reaches. -/
theorem Ordered.mem_toggleAt_iff {beeper : Beeper τ} (ordered : beeper.Ordered)
    (nonneg : 0 ≤ beeper.settings.backlogSpan) {point : Int}
    (latest : ∀ entry ∈ beeper.pending.toList, entry ≤ point) (other : Int) :
    other ∈ (beeper.toggleAt point).pending.toList ↔
      (if other = point then other ∉ beeper.pending.toList else other ∈ beeper.pending.toList) ∧
        point - beeper.settings.backlogSpan ≤ other := by
  by_cases newest : beeper.pending.newest? = some point
  · -- The point is taken back, and all others lie within the backlog before it already.
    have whole := Queue.toList_of_newest? newest
    have within := ordered.within
    have increasing := ordered.increasing
    rw [toggleAt_of_newest newest]
    rw [whole] at within increasing ⊢
    have before : ∀ entry ∈ beeper.pending.dropNewest.toList, entry < point := by
      intro entry older
      exact (List.pairwise_append.1 increasing).2.2 entry older point (List.mem_singleton_self _)
    constructor
    · intro left
      have earlier := before other left
      have reached := within other (List.mem_append_left _ left) point (by simp)
      rw [if_neg (by omega)]
      exact ⟨List.mem_append_left _ left, by omega⟩
    · rintro ⟨queued, -⟩
      split at queued
      · next same => simp [same] at queued
      · next different => simpa [different] using queued
  · rw [toggleAt_of_not_newest newest]
    have absent : point ∉ beeper.pending.toList := fun queued =>
      newest (newest?_of_increasing ordered.increasing queued latest)
    have inOrder : (beeper.pending.push point).toList.Pairwise (· ≤ ·) := by
      rw [Queue.toList_push, List.pairwise_append]
      exact ⟨ordered.increasing.imp Int.le_of_lt, List.pairwise_singleton _ _,
        fun entry queued other same => List.mem_singleton.1 same ▸ latest entry queued⟩
    dsimp only
    rw [Queue.toList_dropOldest_of_ordered inOrder, Queue.toList_push]
    simp only [List.mem_filter, List.mem_append, List.mem_singleton, decide_eq_true_eq]
    by_cases same : other = point
    · have beyond : point - beeper.settings.backlogSpan - 1 < point := by omega
      have reached : point - beeper.settings.backlogSpan ≤ point := by omega
      simp only [same, absent, beyond, reached, or_true, if_true, not_false_eq_true, true_and]
    · simp only [same, or_false, if_false]
      constructor
      · rintro ⟨queued, within⟩
        exact ⟨queued, by omega⟩
      · rintro ⟨queued, within⟩
        exact ⟨queued, by omega⟩

/-- Of the points toggled so far, those are queued that were toggled an odd number of times and lie
within the backlog before the last toggle; and the level at the end has turned over with every
toggle. -/
structure Gathers (beeper : Beeper τ) (toggled : List Int) : Prop where
  /-- The queue is ordered. -/
  ordered : beeper.Ordered
  /-- The queue holds the points toggled oddly that the backlog reaches. -/
  mem_iff : ∀ point, point ∈ beeper.pending.toList ↔
    point ∈ oddPoints toggled ∧
      ∀ last ∈ toggled.getLast?, last - beeper.settings.backlogSpan ≤ point
  /-- All toggles are played in the end. -/
  levelAtEnd_eq : beeper.levelAtEnd = flipped false toggled.length

/-- A toggle that lies before no earlier one is gathered like them. -/
theorem Gathers.toggleAt {beeper : Beeper τ} {toggled : List Int}
    (gathers : beeper.Gathers toggled) (nonneg : 0 ≤ beeper.settings.backlogSpan) {point : Int}
    (latest : ∀ earlier ∈ toggled, earlier ≤ point) :
    (beeper.toggleAt point).Gathers (toggled ++ [point]) := by
  have behind : ∀ entry ∈ beeper.pending.toList, entry ≤ point := by
    intro entry queued
    have odd := mem_oddPoints.1 ((gathers.mem_iff entry).1 queued).1
    exact latest entry (List.count_pos_iff.1 odd.pos)
  refine ⟨gathers.ordered.toggleAt behind, ?_, ?_⟩
  · intro other
    rw [gathers.ordered.mem_toggleAt_iff nonneg behind, mem_oddPoints_append, settings_toggleAt]
    simp only [List.getLast?_concat, Option.mem_some_iff, forall_eq']
    -- What the backlog before this toggle reaches, it reached before the earlier ones.
    apply and_congr_left
    intro reached
    have same : other ∈ beeper.pending.toList ↔ other ∈ oddPoints toggled := by
      rw [gathers.mem_iff]
      apply and_iff_left
      intro last isLast
      have := latest last (List.mem_of_getLast? isLast)
      omega
    rw [same]
  · rw [levelAtEnd_toggleAt, gathers.levelAtEnd_eq, List.length_append, List.length_singleton,
      flipped_succ]

/-- What is gathered is queued in order. -/
theorem Gathers.pending_eq {beeper : Beeper τ} {toggled : List Int}
    (gathers : beeper.Gathers toggled) {last : Int} (isLast : toggled.getLast? = some last) :
    beeper.pending.toList =
      ((oddPoints toggled).filter (last - beeper.settings.backlogSpan ≤ ·)).sort (· ≤ ·) := by
  have increasing := gathers.ordered.increasing
  have same : (oddPoints toggled).filter (last - beeper.settings.backlogSpan ≤ ·) =
      beeper.pending.toList.toFinset := by
    ext point
    simp [gathers.mem_iff, isLast]
  rw [same]
  have distinct : beeper.pending.toList.Nodup := increasing.imp Int.ne_of_lt
  exact ((List.toFinset_sort (· ≤ ·) distinct).2 (increasing.imp Int.le_of_lt)).symm

/-- What was toggled oddly but is not queued has turned the level over. -/
theorem Gathers.high_eq {beeper : Beeper τ} {toggled : List Int}
    (gathers : beeper.Gathers toggled) {last : Int} (isLast : toggled.getLast? = some last) :
    beeper.high =
      flipped false
        ((oddPoints toggled).filter (· < last - beeper.settings.backlogSpan)).card := by
  have counted : beeper.pending.size =
      ((oddPoints toggled).filter (last - beeper.settings.backlogSpan ≤ ·)).card := by
    rw [← Queue.length_toList, gathers.pending_eq isLast, Finset.length_sort]
  have whole := Finset.card_filter_add_card_filter_not (s := oddPoints toggled)
    (last - beeper.settings.backlogSpan ≤ ·)
  simp only [Int.not_le] at whole
  have turned : flipped beeper.high beeper.pending.size =
      flipped (flipped false
        ((oddPoints toggled).filter (· < last - beeper.settings.backlogSpan)).card)
        beeper.pending.size :=
    calc flipped beeper.high beeper.pending.size
      _ = flipped false toggled.length := gathers.levelAtEnd_eq
      _ = flipped false (oddPoints toggled).card :=
          flipped_congr (odd_card_oddPoints toggled).symm
      _ = _ := by rw [flipped_flipped, counted, Nat.add_comm, whole]
  exact flipped_inj turned

section Notify

variable [Scalar τ]

/-- Toggles whose points do not decrease, and lie before no earlier one, are gathered like them. -/
theorem Gathers.foldl_notify {beeper : Beeper τ} {toggled : List Int}
    (gathers : beeper.Gathers toggled) (nonneg : 0 ≤ beeper.settings.backlogSpan) {times : List τ}
    (forward : (toggled ++ times.map beeper.settings.pointAt).Pairwise (· ≤ ·)) :
    (times.foldl notify beeper).Gathers (toggled ++ times.map beeper.settings.pointAt) := by
  induction times generalizing beeper toggled with
  | nil => simpa using gathers
  | cons time rest ih =>
    have same : (beeper.notify time).settings = beeper.settings := settings_toggleAt _ _
    have latest : ∀ earlier ∈ toggled, earlier ≤ beeper.settings.pointAt time := by
      intro earlier told
      exact (List.pairwise_append.1 forward).2.2 earlier told _ List.mem_cons_self
    have next : (beeper.notify time).Gathers (toggled ++ [beeper.settings.pointAt time]) :=
      gathers.toggleAt nonneg latest
    rw [List.map_cons, List.append_cons] at forward ⊢
    rw [← same] at nonneg forward next ⊢
    exact ih next nonneg forward

/-- A new beeper has gathered nothing. -/
theorem gathers_ofConfig (config : Config τ) : (ofConfig config).Gathers [] where
  ordered := .of_isEmpty rfl
  mem_iff point := by simp [ofConfig, Queue.toList_empty, oddPoints]
  levelAtEnd_eq := rfl

/-- Toggles of a new beeper whose points do not decrease are gathered. -/
theorem gathers_foldl_notify (config : Config τ) {times : List τ}
    (forward : (times.map (Settings.ofConfig config).pointAt).Pairwise (· ≤ ·)) :
    (times.foldl notify (ofConfig config)).Gathers
      (times.map (Settings.ofConfig config).pointAt) :=
  (gathers_ofConfig config).foldl_notify (Int.le_trans (by decide) (Int.le_max_right _ 1)) forward

/-- After toggles of a new beeper whose points do not decrease, and no request for samples, the
queue holds in increasing order the points that were toggled an odd number of times and lie no
further before the last one than the backlog spans. The level has turned over exactly if the number
of the other points that were toggled an odd number of times is odd. -/
theorem pending_foldl_notify (config : Config τ) {times : List τ}
    (forward : (times.map (Settings.ofConfig config).pointAt).Pairwise (· ≤ ·)) {last : Int}
    (isLast : (times.map (Settings.ofConfig config).pointAt).getLast? = some last) :
    (times.foldl notify (ofConfig config)).pending.toList =
      ((oddPoints (times.map (Settings.ofConfig config).pointAt)).filter
        (last - config.backlogSpan ≤ ·)).sort (· ≤ ·) ∧
    ((times.foldl notify (ofConfig config)).high ≠ (ofConfig config).high ↔
      Odd ((oddPoints (times.map (Settings.ofConfig config).pointAt)).filter
        (· < last - config.backlogSpan)).card) := by
  have gathers := gathers_foldl_notify config forward
  have span : (times.foldl notify (ofConfig config)).settings.backlogSpan = config.backlogSpan := by
    rw [settings_foldl_notify]
    rfl
  refine ⟨?_, ?_⟩
  · rw [gathers.pending_eq isLast, span]
  · rw [gathers.high_eq isLast, span]
    exact flipped_ne_iff

/-- Toggles of which some cancel, some are dropped, and the last takes back the one that dropped
them. -/
def unheardTimes : List Float := [2, 3, 3, 5, 9, 9, 9, 12, 14, 20, 20]

/-- A toggle that is taken back has dropped what lies too far before it. -/
theorem pending_foldl_notify_of_unheardTimes :
    (unheardTimes.map (Settings.ofConfig shallowConfig).pointAt).getLast? = some 20 ∧
    (unheardTimes.foldl notify (ofConfig shallowConfig)).pending.toList = [12, 14] ∧
    (unheardTimes.foldl notify (ofConfig shallowConfig)).high ≠ (ofConfig shallowConfig).high := by
  have isLast : (unheardTimes.map (Settings.ofConfig shallowConfig).pointAt).getLast? = some 20 := by
    decide +kernel
  obtain ⟨queued, turned⟩ := pending_foldl_notify shallowConfig
    (by decide +kernel :
      (unheardTimes.map (Settings.ofConfig shallowConfig).pointAt).Pairwise (· ≤ ·)) isLast
  have kept : (oddPoints (unheardTimes.map (Settings.ofConfig shallowConfig).pointAt)).filter
      (20 - shallowConfig.backlogSpan ≤ ·) = [12, 14].toFinset := by
    decide +kernel
  refine ⟨isLast, ?_, turned.2 (by decide +kernel)⟩
  rw [queued, kept]
  exact (List.toFinset_sort (· ≤ ·) (by decide)).2 (by decide)

end Notify

end Spectrum48.Beeper
