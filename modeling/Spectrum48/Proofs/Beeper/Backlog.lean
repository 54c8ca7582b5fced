import Mathlib.Data.Int.Interval
import Spectrum48.Proofs.Beeper.Order
import Spectrum48.Proofs.Beeper.Streaming

/-!
# The size of the queue

While the program toggles the speaker at points that do not decrease, the queue stays ordered and
lies behind the last of these points, however the host asks for samples in between. The newest
queued point alone does not tell how far the program has come, since a toggle may have taken the
last point back; the points toggled so far do. An ordered queue cannot hold more points than fit
into the span of the backlog, so it stays small even if the host never asks for a sample.
-/

namespace Spectrum48.Beeper

variable {τ : Type}

/-- A row of increasing numbers is no longer than the stretch that it spans. -/
theorem length_le_of_increasing {entries : List Int} (increasing : entries.Pairwise (· < ·))
    {span : Int} (nonneg : 0 ≤ span)
    (within : ∀ older ∈ entries, ∀ newer ∈ entries, newer - older ≤ span) :
    (entries.length : Int) ≤ span + 1 := by
  cases entries with
  | nil =>
    simp only [List.length_nil]
    omega
  | cons oldest rest =>
    have stretch : (oldest :: rest).toFinset ⊆ Finset.Icc oldest (oldest + span) := by
      intro entry member
      rw [List.mem_toFinset] at member
      have above : oldest ≤ entry := by
        obtain rfl | later := List.mem_cons.1 member
        · exact Int.le_refl _
        · exact Int.le_of_lt ((List.pairwise_cons.1 increasing).1 entry later)
      have below := within oldest List.mem_cons_self entry member
      rw [Finset.mem_Icc]
      omega
    have distinct : (oldest :: rest).Nodup := increasing.imp Int.ne_of_lt
    have counted := Finset.card_le_card stretch
    rw [List.toFinset_card_of_nodup distinct, Int.card_Icc] at counted
    omega

/-- The queue of an ordered beeper is no longer than its backlog spans. -/
theorem Ordered.size_le {beeper : Beeper τ} (ordered : beeper.Ordered)
    (nonneg : 0 ≤ beeper.settings.backlogSpan) :
    (beeper.pending.size : Int) ≤ beeper.settings.backlogSpan + 1 := by
  rw [← Queue.length_toList]
  exact length_le_of_increasing ordered.increasing nonneg ordered.within

/-- No queued point lies beyond the last of the points toggled so far. -/
def Behind (beeper : Beeper τ) (toggled : List Int) : Prop :=
  ∀ entry ∈ beeper.pending.toList, ∃ last ∈ toggled.getLast?, entry ≤ last

variable [Scalar τ]

/-- An event whose point, if it has one, lies before none of the points toggled so far keeps the
queue ordered and behind the points toggled. -/
theorem Ordered.perform {beeper after : Beeper τ} (ordered : beeper.Ordered) {toggled : List Int}
    (behind : beeper.Behind toggled) {event : Event τ}
    (forward : (toggled ++ beeper.settings.toggles [event]).Pairwise (· ≤ ·))
    (performed : beeper.perform event = some after) :
    after.Ordered ∧ after.Behind (toggled ++ beeper.settings.toggles [event]) ∧
      after.settings = beeper.settings := by
  cases event with
  | notify time =>
    cases performed
    have latest : ∀ entry ∈ beeper.pending.toList, entry ≤ beeper.settings.pointAt time := by
      intro entry queued
      obtain ⟨last, isLast, before⟩ := behind entry queued
      have across := (List.pairwise_append.1 forward).2.2 last (List.mem_of_getLast? isLast)
      exact before.trans (across _ (List.mem_singleton_self _))
    refine ⟨ordered.toggleAt latest, ?_, settings_toggleAt _ _⟩
    intro entry queued
    refine ⟨beeper.settings.pointAt time, List.getLast?_concat, ?_⟩
    obtain queued | rfl := mem_toggleAt queued
    · exact latest entry queued
    · exact Int.le_refl _
  | render count =>
    have nothing : toggled ++ beeper.settings.toggles [Event.render count] = toggled :=
      List.append_nil _
    have left := sublist_render performed
    have same := settings_render performed
    rw [nothing]
    exact ⟨ordered.of_sublist left same, fun entry queued => behind entry (left.subset queued),
      same⟩

/-- A history whose points do not decrease, and lie before none of those toggled so far, keeps the
queue ordered and behind the points toggled. -/
theorem Ordered.performAll {beeper after : Beeper τ} (ordered : beeper.Ordered)
    {toggled : List Int} (behind : beeper.Behind toggled) {history : List (Event τ)}
    (forward : (toggled ++ beeper.settings.toggles history).Pairwise (· ≤ ·))
    (performed : beeper.performAll history = some after) :
    after.Ordered ∧ after.Behind (toggled ++ beeper.settings.toggles history) ∧
      after.settings = beeper.settings := by
  induction history generalizing beeper toggled with
  | nil =>
    cases performed
    have nothing : toggled ++ after.settings.toggles [] = toggled := List.append_nil _
    rw [nothing]
    exact ⟨ordered, behind, rfl⟩
  | cons event rest ih =>
    rw [Beeper.performAll, List.foldlM_cons] at performed
    obtain ⟨middle, first, later⟩ := Option.bind_eq_some_iff.1 performed
    rw [Settings.toggles_cons, ← List.append_assoc] at forward ⊢
    obtain ⟨ordered, behind, same⟩ :=
      ordered.perform behind (forward.sublist (List.sublist_append_left _ _)) first
    rw [← same] at forward behind ⊢
    exact ih ordered behind forward later

/-- At every step of a history of a new beeper whose toggled points do not decrease, the queued
points increase strictly, no two of them are further apart than the backlog spans, none lies beyond
the last toggled point, and there are at most as many as the backlog has points. -/
theorem pending_after_history (config : Config τ) {history : List (Event τ)}
    (forward : ((Settings.ofConfig config).toggles history).Pairwise (· ≤ ·))
    {earlier : List (Event τ)} (step : earlier <+: history) {after : Beeper τ}
    (reached : (ofConfig config).performAll earlier = some after) :
    after.pending.toList.Pairwise (· < ·) ∧
    (∀ older ∈ after.pending.toList, ∀ newer ∈ after.pending.toList,
      newer - older ≤ config.backlogSpan) ∧
    (∀ entry ∈ after.pending.toList,
      ∃ last ∈ ((Settings.ofConfig config).toggles earlier).getLast?, entry ≤ last) ∧
    (after.pending.size : Int) ≤ config.backlogSpan + 1 := by
  have sofar : ((Settings.ofConfig config).toggles earlier).Pairwise (· ≤ ·) :=
    forward.sublist (step.sublist.filterMap _)
  have fresh : (ofConfig config).pending.toList = [] := rfl
  have nothing : (ofConfig config).Behind [] := List.forall_mem_nil _
  obtain ⟨ordered, behind, same⟩ := (Ordered.of_isEmpty fresh).performAll nothing sofar reached
  have span : after.settings.backlogSpan = config.backlogSpan := by
    rw [same]
    rfl
  have nonneg : 0 ≤ after.settings.backlogSpan := by
    rw [span]
    exact Int.le_trans (by decide) (Int.le_max_right _ 1)
  have size := ordered.size_le nonneg
  have within := ordered.within
  rw [span] at size within
  exact ⟨ordered.increasing, within, behind, size⟩

/-- A timeline with one point to the millisecond, of which ten are kept. -/
def shallowConfig : Config Float :=
  { Config.standard with sampleRate := 1000, supersampleFactor := 1, maxBacklog := 10 }

/-- Toggles that go on for longer than the backlog, two of which cancel, and a request halfway. -/
def crowdedHistory : List (Event Float) :=
  [.notify 1, .notify 2, .notify 3, .notify 3, .render 2, .notify 9, .notify 10, .notify 11,
   .notify 12, .notify 13, .notify 14, .notify 15, .notify 16, .notify 17, .notify 18, .notify 19,
   .notify 20]

/-- A crowded queue holds as many points as the backlog has. -/
theorem pending_after_crowdedHistory :
    ∃ after, (ofConfig shallowConfig).performAll crowdedHistory = some after ∧
      after.pending.size = 11 ∧ after.pending.toList.Pairwise (· < ·) ∧
      (∀ older ∈ after.pending.toList, ∀ newer ∈ after.pending.toList, newer - older ≤ 10) ∧
      (∀ entry ∈ after.pending.toList, entry ≤ 20) ∧
      (after.pending.size : Int) ≤ 10 + 1 := by
  have ends : ((ofConfig shallowConfig).performAll crowdedHistory).any
      (fun after => after.pending.size == 11) = true := by
    decide +kernel
  obtain ⟨after, reached, full⟩ := (Option.any_eq_true _ _).1 ends
  obtain ⟨increasing, within, behind, size⟩ :=
    pending_after_history shallowConfig
      (by decide +kernel :
        ((Settings.ofConfig shallowConfig).toggles crowdedHistory).Pairwise (· ≤ ·))
      (List.prefix_refl _) reached
  have span : shallowConfig.backlogSpan = 10 := by decide +kernel
  have last : ((Settings.ofConfig shallowConfig).toggles crowdedHistory).getLast? = some 20 := by
    decide +kernel
  rw [span] at within size
  refine ⟨after, reached, beq_iff_eq.1 full, increasing, within, fun entry queued => ?_, size⟩
  obtain ⟨latest, isLast, before⟩ := behind entry queued
  rw [last] at isLast
  exact Option.mem_some_iff.1 isLast ▸ before

end Spectrum48.Beeper
