import Mathlib.Data.List.Pairwise
import Spectrum48.Proofs.Beeper.Termination

/-!
# Finding a place

A request that finds queued points begins where the last such request ended, unless the place has
been lost since then. It is lost when points are dropped because of the backlog, and when too many
requests find nothing queued, in a row or not; and it has yet to be found before the first request
that finds queued points. So the history since the last such request tells whether the next one
finds a new place. A new place is chosen so that the newest point is played halfway through the
request after the next.
-/

namespace Spectrum48.Beeper

variable {τ : Type}

/-! ### The steps of a history -/

/-- A step of a history: an event and the beeper that it happens to. -/
structure Step (τ : Type) where
  /-- The beeper before the event. -/
  beeper : Beeper τ
  /-- The event. -/
  event : Event τ

namespace Step

/-- Whether a step is a request that finds queued points. -/
def isHeard (step : Step τ) : Bool :=
  match step.event with
  | .notify _ => false
  | .render _ => !step.beeper.pending.isEmpty

/-- Whether a step is a request that finds nothing queued. -/
def isSilent (step : Step τ) : Bool :=
  match step.event with
  | .notify _ => false
  | .render _ => step.beeper.pending.isEmpty

/-- Whether points are dropped in a step: its toggle is queued, and leaves the oldest queued point
farther behind than the backlog spans. -/
def drops [Scalar τ] (step : Step τ) : Bool :=
  match step.event with
  | .notify time =>
    let point := step.beeper.settings.pointAt time
    step.beeper.pending.newest? != some point &&
      (step.beeper.pending.toList ++ [point]).head?.any
        (· < point - step.beeper.settings.backlogSpan)
  | .render _ => false

end Step

/-- The steps of a history, as far as its events return. -/
def steps [Scalar τ] (beeper : Beeper τ) : List (Event τ) → List (Step τ)
  | [] => []
  | event :: rest =>
    ⟨beeper, event⟩ :: match beeper.perform event with
      | none => []
      | some after => after.steps rest

/-- The last of some steps that is a request with queued points. -/
def lastHeard? (steps : List (Step τ)) : Option (Step τ) := steps.reverse.find? Step.isHeard

/-- The steps after the last request with queued points, the latest first. -/
def sinceHeard (steps : List (Step τ)) : List (Step τ) :=
  steps.reverse.takeWhile fun step => !step.isHeard

/-- Whether the place is lost after some steps: no request has found queued points so far, or since
the last one that did points were dropped, or more requests than a threshold were silent. -/
def LosesPlace [Scalar τ] (threshold : Nat) (steps : List (Step τ)) : Prop :=
  lastHeard? steps = none ∨ (∃ step ∈ sinceHeard steps, step.drops = true) ∨
    threshold < (sinceHeard steps).countP Step.isSilent

/-- Whether the place is lost is decided by looking through the steps. -/
instance [Scalar τ] (threshold : Nat) (steps : List (Step τ)) :
    Decidable (LosesPlace threshold steps) :=
  inferInstanceAs (Decidable (_ ∨ _ ∨ _))

/-- A request with queued points is the last one once it was made. -/
theorem lastHeard?_append_of_isHeard (steps : List (Step τ)) {step : Step τ}
    (heard : step.isHeard = true) : lastHeard? (steps ++ [step]) = some step := by
  simp [lastHeard?, heard]

/-- Any other step leaves the last request with queued points as it was. -/
theorem lastHeard?_append_of_not_isHeard (steps : List (Step τ)) {step : Step τ}
    (other : step.isHeard = false) : lastHeard? (steps ++ [step]) = lastHeard? steps := by
  simp [lastHeard?, other]

/-- No step has come after a request with queued points that was just made. -/
theorem sinceHeard_append_of_isHeard (steps : List (Step τ)) {step : Step τ}
    (heard : step.isHeard = true) : sinceHeard (steps ++ [step]) = [] := by
  simp [sinceHeard, heard]

/-- Any other step is one of those after the last request with queued points. -/
theorem sinceHeard_append_of_not_isHeard (steps : List (Step τ)) {step : Step τ}
    (other : step.isHeard = false) :
    sinceHeard (steps ++ [step]) = step :: sinceHeard steps := by
  simp [sinceHeard, other]

variable [Scalar τ]

/-- The place is known after a request with queued points. -/
theorem not_losesPlace_append_of_isHeard (threshold : Nat) (steps : List (Step τ))
    {step : Step τ} (heard : step.isHeard = true) :
    ¬ LosesPlace threshold (steps ++ [step]) := by
  simp [LosesPlace, lastHeard?_append_of_isHeard, sinceHeard_append_of_isHeard, heard]

/-- After any other step the place is lost if it was lost before, if points are dropped in it, or if
it is silent once too often. -/
theorem losesPlace_append_of_not_isHeard (threshold : Nat) (steps : List (Step τ))
    {step : Step τ} (other : step.isHeard = false) :
    LosesPlace threshold (steps ++ [step]) ↔
      LosesPlace threshold steps ∨ step.drops = true ∨
        (step.isSilent = true ∧ threshold ≤ (sinceHeard steps).countP Step.isSilent) := by
  have more : threshold < (sinceHeard steps).countP Step.isSilent +
        (if step.isSilent = true then 1 else 0) ↔
      threshold < (sinceHeard steps).countP Step.isSilent ∨
        (step.isSilent = true ∧ threshold ≤ (sinceHeard steps).countP Step.isSilent) := by
    cases step.isSilent with
    | false => simp
    | true =>
      simp only [if_true, true_and]
      omega
  unfold LosesPlace
  rw [lastHeard?_append_of_not_isHeard steps other, sinceHeard_append_of_not_isHeard steps other,
    List.countP_cons, more]
  simp only [List.mem_cons, exists_eq_or_imp, or_assoc, or_left_comm]

/-! ### What an event does to the place -/

/-- Points are dropped exactly if the oldest one is too far behind. -/
theorem Queue.fst_dropOldest_ne_zero_iff (queue : Queue) (bound : Int) :
    (queue.dropOldest bound).1 ≠ 0 ↔ queue.toList.head?.any (· ≤ bound) = true := by
  rw [fst_dropOldest]
  cases queue.toList with
  | nil => simp
  | cons oldest rest =>
    by_cases early : oldest ≤ bound
    · simp [early]
    · simp [early]

/-- A toggle loses the place if points are dropped in it. -/
theorem mustSync_notify (beeper : Beeper τ) (time : τ) :
    (beeper.notify time).mustSync =
      (beeper.mustSync || Step.drops ⟨beeper, .notify time⟩) := by
  unfold notify Step.drops
  dsimp only
  generalize beeper.settings.pointAt time = point
  by_cases newest : beeper.pending.newest? = some point
  · simp [toggleAt_of_newest newest, newest]
  · have dropped := (beeper.pending.push point).fst_dropOldest_ne_zero_iff
      (point - beeper.settings.backlogSpan - 1)
    simp only [Queue.toList_push, Int.le_sub_one_iff] at dropped
    rw [toggleAt_of_not_newest newest, bne_iff_ne.2 newest, Bool.true_and]
    dsimp only
    rw [Bool.eq_iff_iff, Bool.or_eq_true, Bool.or_eq_true, bne_iff_ne, dropped]

/-- A toggle does not count as silence. -/
theorem silentBuffers_notify (beeper : Beeper τ) (time : τ) :
    (beeper.notify time).silentBuffers = beeper.silentBuffers := by
  unfold notify toggleAt
  split <;> rfl

omit [Scalar τ] in
/-- The place is known after a request with queued points, and silence is counted anew. -/
theorem synced_of_render {beeper after : Beeper τ} (queued : beeper.pending.isEmpty = false)
    {count : Nat} (returned : (beeper.render count).after? = some after) :
    after.mustSync = false ∧ after.silentBuffers = 0 := by
  obtain ⟨newest, isNewest⟩ := exists_newest? queued
  simp only [render, queued, renderQueued, resync_eq isNewest, Bool.false_eq_true,
    if_false] at returned
  split at returned
  · cases returned
    exact ⟨rfl, rfl⟩
  · split at returned
    · cases returned
    · next levels played ended =>
      cases returned
      refine keeps_play (fun other => other.mustSync = false ∧ other.silentBuffers = 0) ?_
        ⟨rfl, rfl⟩ ended
      intro middle caught caughtUp known
      rw [catchUp_eq_some caughtUp]
      exact known

/-! ### What a history does to the place -/

/-- A beeper with given properties, after some steps, with its place lost if they tell so. -/
structure Reflects (settings : Settings τ) (steps : List (Step τ)) (beeper : Beeper τ) :
    Prop where
  /-- The unchanging properties are those given. -/
  settings_eq : beeper.settings = settings
  /-- What is queued has been toggled. -/
  exists_pointAt : ∀ entry ∈ beeper.pending.toList, ∃ time, entry = settings.pointAt time
  /-- The place is lost if the steps tell so. -/
  mustSync_iff : beeper.mustSync = true ↔ LosesPlace settings.resyncThreshold steps
  /-- The count of silent requests stays within the threshold. -/
  silentBuffers_le : beeper.silentBuffers ≤ settings.resyncThreshold
  /-- As long as the place is known, all silent requests since the last other one are counted. -/
  silentBuffers_eq : beeper.mustSync = false →
    beeper.silentBuffers = (sinceHeard steps).countP Step.isSilent
  /-- The cursor is where the last request with queued points has left it. -/
  cursor_eq : ∀ step ∈ lastHeard? steps,
    ∃ left, step.beeper.perform step.event = some left ∧ beeper.cursor = left.cursor

namespace Reflects

variable {settings : Settings τ} {steps : List (Step τ)} {beeper after : Beeper τ}

/-- A toggle loses the place if points are dropped in it. -/
theorem notify (reflects : beeper.Reflects settings steps) (time : τ) :
    (beeper.notify time).Reflects settings (steps ++ [⟨beeper, .notify time⟩]) where
  settings_eq := (settings_toggleAt _ _).trans reflects.settings_eq
  exists_pointAt entry queued := by
    obtain queued | point := mem_toggleAt queued
    · exact reflects.exists_pointAt entry queued
    · rw [reflects.settings_eq] at point
      exact ⟨time, point⟩
  mustSync_iff := by
    rw [losesPlace_append_of_not_isHeard _ _ rfl, mustSync_notify, Bool.or_eq_true,
      reflects.mustSync_iff]
    simp [Step.isSilent]
  silentBuffers_le := by
    rw [silentBuffers_notify]
    exact reflects.silentBuffers_le
  silentBuffers_eq known := by
    rw [mustSync_notify, Bool.or_eq_false_iff] at known
    rw [silentBuffers_notify, sinceHeard_append_of_not_isHeard _ rfl, List.countP_cons,
      reflects.silentBuffers_eq known.1]
    rfl
  cursor_eq := by
    rw [lastHeard?_append_of_not_isHeard _ rfl, Beeper.notify, cursor_toggleAt]
    exact reflects.cursor_eq

/-- A silent request is counted, and loses the place if it is one too many. -/
theorem countSilence (reflects : beeper.Reflects settings steps)
    (silent : beeper.pending.isEmpty = true) (count : Nat) :
    beeper.countSilence.Reflects settings (steps ++ [⟨beeper, .render count⟩]) := by
  have other : Step.isHeard ⟨beeper, .render count⟩ = false := by
    simp [Step.isHeard, silent]
  have counts : Step.isSilent ⟨beeper, .render count⟩ = true := silent
  have lost : LosesPlace settings.resyncThreshold (steps ++ [⟨beeper, .render count⟩]) ↔
      beeper.mustSync = true ∨
        settings.resyncThreshold ≤ (sinceHeard steps).countP Step.isSilent := by
    rw [losesPlace_append_of_not_isHeard _ _ other, reflects.mustSync_iff, counts]
    simp [Step.drops]
  have counted := reflects.silentBuffers_eq
  have cursor := reflects.cursor_eq
  rw [← lastHeard?_append_of_not_isHeard steps other] at cursor
  unfold Beeper.countSilence
  dsimp only
  rw [reflects.settings_eq]
  -- The count is that of the steps only while the place is known; if it is lost, it stays lost.
  split
  · next many =>
    refine ⟨rfl, reflects.exists_pointAt, iff_of_true rfl (lost.2 ?_), Nat.zero_le _, nofun,
      cursor⟩
    cases known : beeper.mustSync with
    | true => exact .inl rfl
    | false =>
      right
      have := counted known
      omega
  · next few =>
    refine ⟨rfl, reflects.exists_pointAt, ?_, Nat.le_of_not_lt few, fun known => ?_, cursor⟩
    · rw [lost]
      constructor
      · exact .inl
      · rintro (already | many)
        · exact already
        · cases known : beeper.mustSync with
          | true => rfl
          | false =>
            have := counted known
            omega
    · rw [sinceHeard_append_of_not_isHeard _ other, List.countP_cons, counts, if_pos rfl]
      exact congrArg (· + 1) (counted known)

/-- A request with queued points knows its place afterwards. -/
theorem render (reflects : beeper.Reflects settings steps)
    (queued : beeper.pending.isEmpty = false) {count : Nat}
    (returned : (beeper.render count).after? = some after) :
    after.Reflects settings (steps ++ [⟨beeper, .render count⟩]) := by
  have heard : Step.isHeard ⟨beeper, .render count⟩ = true := by
    simp [Step.isHeard, queued]
  obtain ⟨known, anew⟩ := synced_of_render queued returned
  refine ⟨(settings_render returned).trans reflects.settings_eq, fun entry left => ?_, ?_, ?_,
    fun _ => ?_, ?_⟩
  · exact reflects.exists_pointAt entry ((sublist_render returned).subset left)
  · rw [known]
    exact iff_of_false Bool.false_ne_true (not_losesPlace_append_of_isHeard _ _ heard)
  · rw [anew]
    exact Nat.zero_le _
  · rw [anew, sinceHeard_append_of_isHeard _ heard]
    rfl
  · rw [lastHeard?_append_of_isHeard _ heard]
    rintro step ⟨⟩
    exact ⟨after, returned, rfl⟩

/-- After an event, a beeper reflects it as well. -/
theorem perform (reflects : beeper.Reflects settings steps) {event : Event τ}
    (performed : beeper.perform event = some after) :
    after.Reflects settings (steps ++ [⟨beeper, event⟩]) := by
  cases event with
  | notify time =>
    cases performed
    exact reflects.notify time
  | render count =>
    cases queued : beeper.pending.isEmpty with
    | true =>
      simp only [Beeper.perform, Beeper.render_of_isEmpty queued, Playback.after?] at performed
      cases performed
      exact reflects.countSilence queued count
    | false => exact reflects.render queued performed

/-- After a history, a beeper reflects the steps of it as well. -/
theorem performAll (reflects : beeper.Reflects settings steps) {history : List (Event τ)}
    (performed : beeper.performAll history = some after) :
    after.Reflects settings (steps ++ beeper.steps history) := by
  -- The history is taken from its start, so the steps before it grow at their end.
  induction history generalizing beeper steps with
  | nil =>
    cases performed
    rw [Beeper.steps, List.append_nil]
    exact reflects
  | cons event rest ih =>
    rw [Beeper.performAll, List.foldlM_cons] at performed
    obtain ⟨middle, first, later⟩ := Option.bind_eq_some_iff.1 performed
    rw [Beeper.steps, first, List.append_cons]
    exact ih (reflects.perform first) later

end Reflects

/-- A new beeper has yet to find its place. -/
theorem reflects_ofConfig (config : Config τ) :
    (ofConfig config).Reflects (Settings.ofConfig config) [] where
  settings_eq := rfl
  exists_pointAt := List.forall_mem_nil _
  mustSync_iff := iff_of_true rfl (.inl rfl)
  silentBuffers_le := Nat.zero_le _
  silentBuffers_eq := nofun
  cursor_eq := nofun

/-! ### The request after a new place -/

omit [Scalar τ] in
/-- A request that finds a new place leaves the newest point queued, half a request ahead. -/
theorem render_of_lost {beeper : Beeper τ} (lost : beeper.mustSync = true)
    (mixable : beeper.settings.factor ≠ 0) (increasing : beeper.pending.toList.Pairwise (· < ·))
    {newest : Int} (isNewest : beeper.pending.newest? = some newest) (within : newest ≤ timelineEnd)
    {count points : Nat} (covers : points = count * beeper.settings.factor)
    (positive : 1 ≤ points) :
    ∃ samples first older,
      beeper.render count = .heard samples first ∧
      first.pending.toList = older ++ [newest] ∧
      newest = first.cursor + (points / 2 : Nat) ∧
      PlayedFrom (newest - (3 * points / 2 : Nat)) points beeper first := by
  have start : beeper.startOf newest points = newest - (3 * points / 2 : Nat) := if_pos lost
  obtain ⟨first, rendered, left⟩ := render_of_newest mixable (increasing.imp Int.le_of_lt) isNewest
    covers (by omega)
  rw [start] at left
  refine ⟨_, first,
    beeper.pending.dropNewest.toList.filter (newest - (3 * points / 2 : Nat) + points - 1 < ·),
    rendered, ?_, ?_, left⟩
  · have ahead : newest - (3 * points / 2 : Nat) + points - 1 < newest := by omega
    rw [left.pending_eq, if_neg (by omega), Queue.toList_of_newest? isNewest, List.filter_append,
      List.filter_singleton, decide_eq_true ahead]
    rfl
  · rw [left.cursor_eq]
    omega

omit [Scalar τ] in
/-- A request that knows its place, with the newest point half a request ahead, flips the level
there after all other points, and empties the queue. -/
theorem render_of_halfway {beeper : Beeper τ} (synced : beeper.mustSync = false)
    (mixable : beeper.settings.factor ≠ 0) (increasing : beeper.pending.toList.Pairwise (· < ·))
    {older : List Int} {newest : Int} (queued : beeper.pending.toList = older ++ [newest])
    {count points : Nat} (covers : points = count * beeper.settings.factor)
    (positive : 1 ≤ points) (halfway : newest = beeper.cursor + (points / 2 : Nat))
    (within : beeper.cursor + points ≤ timelineEnd) :
    ∃ after,
      beeper.render count =
        .heard
          (mix beeper.settings.amplitude beeper.settings.factor count
            (Array.ofFn fun slot : Fin points =>
              flipped beeper.high (older.countP (· ≤ beeper.cursor + slot)) ^^
                decide (points / 2 ≤ slot)))
          after ∧
      after.pending.toList = [] := by
  have isNewest : beeper.pending.newest? = some newest := by
    rw [Queue.newest?_eq, queued, List.getLast?_concat]
  have start : beeper.startOf newest points = beeper.cursor := by
    simp [startOf, synced]
  obtain ⟨after, rendered, left⟩ := render_of_newest mixable (increasing.imp Int.le_of_lt) isNewest
    covers (by rw [start]; exact within)
  rw [start] at rendered left
  have levels : waveform beeper.levelAt beeper.cursor points =
      Array.ofFn fun slot : Fin points =>
        flipped beeper.high (older.countP (· ≤ beeper.cursor + slot)) ^^
          decide (points / 2 ≤ slot) := by
    unfold waveform
    congr 1
    funext slot
    have reached : newest ≤ beeper.cursor + slot ↔ points / 2 ≤ slot := by omega
    unfold levelAt
    rw [queued, List.countP_append, List.countP_singleton]
    by_cases passed : points / 2 ≤ slot
    · simp [reached, passed, flipped_succ]
    · simp [reached, passed]
  rw [levels] at rendered
  refine ⟨after, rendered, ?_⟩
  rw [left.pending_eq, if_neg (by omega), List.filter_eq_nil_iff]
  intro entry member
  have behind : entry ≤ newest := by
    have ordered := increasing.imp Int.le_of_lt
    rw [queued] at ordered member
    simpa using ordered.rel_getLast member
  simp only [decide_eq_true_eq]
  omega

/-- After a history of a new beeper, the place is lost exactly if the steps of the history tell so,
and the count of silent requests stays within the threshold. A request that finds queued points
begins, if the place is lost, one and a half requests before the newest point, and otherwise where
the last such request has left the cursor. After a new place, over points that increase strictly,
the newest point is still queued. If nothing comes in between, the same request again flips the
level for that point from its middle slot on and empties the queue, as long as the timeline goes on
for it, that is, as long as the cursor at its end is a number of 64 bits. Otherwise it hangs at the
end of the timeline. -/
theorem place_after_history (config : Config Float) {history : List (Event Float)}
    {before : Beeper Float} (reached : (ofConfig config).performAll history = some before) :
    before.silentBuffers ≤ config.resyncThreshold ∧
    (before.mustSync = true ↔
      LosesPlace config.resyncThreshold ((ofConfig config).steps history)) ∧
    ∀ newest ∈ before.pending.newest?, ∀ count points,
      points = count * config.supersampleFactor →
      (LosesPlace config.resyncThreshold ((ofConfig config).steps history) →
        before.render count =
          (before.placedAt (newest - (3 * points / 2 : Nat))).render count) ∧
      (¬ LosesPlace config.resyncThreshold ((ofConfig config).steps history) →
        ∃ last left, lastHeard? ((ofConfig config).steps history) = some last ∧
          last.beeper.perform last.event = some left ∧
          before.render count = (before.placedAt left.cursor).render count) ∧
      (LosesPlace config.resyncThreshold ((ofConfig config).steps history) → 1 ≤ points →
        before.pending.toList.Pairwise (· < ·) →
        ∃ samples first older,
          before.render count = .heard samples first ∧
          first.pending.toList = older ++ [newest] ∧
          (first.HasRoom count ↔ first.cursor + points ≤ Numeric.greatestInt64) ∧
          (first.HasRoom count →
            ∃ second,
              first.render count =
                .heard
                  (mix config.amplitude config.supersampleFactor count
                    (Array.ofFn fun slot : Fin points =>
                      flipped first.high (older.countP (· ≤ first.cursor + slot)) ^^
                        decide (points / 2 ≤ slot)))
                  second ∧
              second.pending.toList = []) ∧
          (¬ first.HasRoom count → first.Hangs count)) := by
  have reflects := (reflects_ofConfig config).performAll reached
  rw [List.nil_append] at reflects
  generalize (ofConfig config).steps history = steps at reflects
  have factor : before.settings.factor = config.supersampleFactor := by
    rw [reflects.settings_eq]
    rfl
  refine ⟨reflects.silentBuffers_le, reflects.mustSync_iff, ?_⟩
  intro newest isNewest count points covers
  rw [← factor] at covers
  have placed := render_eq_placedAt isNewest count
  rw [← covers] at placed
  refine ⟨fun loses => ?_, fun knows => ?_, fun loses positive increasing => ?_⟩
  · rwa [startOf, if_pos (reflects.mustSync_iff.2 loses)] at placed
  · rw [startOf, if_neg (mt reflects.mustSync_iff.1 knows)] at placed
    obtain ⟨last, isLast⟩ : ∃ last, lastHeard? steps = some last :=
      Option.ne_none_iff_exists'.1 fun none => knows (.inl none)
    obtain ⟨left, performed, cursor⟩ := reflects.cursor_eq last isLast
    exact ⟨last, left, isLast, performed, cursor ▸ placed⟩
  · have mixable : before.settings.factor ≠ 0 := by
      intro none
      rw [none, Nat.mul_zero] at covers
      omega
    have onTimeline : ∀ entry ∈ before.pending.toList, entry ≤ timelineEnd := by
      intro entry queued
      obtain ⟨time, rfl⟩ := reflects.exists_pointAt entry queued
      exact pointAt_le_timelineEnd _ time
    have within : newest ≤ timelineEnd := by
      rw [Option.mem_def, Queue.newest?_eq] at isNewest
      exact onTimeline newest (List.mem_of_getLast? isNewest)
    obtain ⟨samples, first, older, rendered, kept, halfway, left⟩ :=
      render_of_lost (reflects.mustSync_iff.2 loses) mixable increasing isNewest within covers
        positive
    have same : first.settings = before.settings := left.settings_eq
    rw [← same] at mixable covers factor
    have queued : first.pending.isEmpty = false := by
      rw [Bool.eq_false_iff, Ne, Queue.isEmpty_iff, kept]
      exact List.append_ne_nil_of_right_ne_nil _ (List.cons_ne_nil _ _)
    have some_samples : 1 ≤ count := by
      rw [covers] at positive
      exact Nat.pos_of_mul_pos_right positive
    have room : first.HasRoom count ↔ first.cursor + points ≤ Numeric.greatestInt64 := by
      rw [covers]
      exact hasRoom_iff_of_synced left.mustSync_eq queued some_samples
    refine ⟨samples, first, older, rendered, kept, room, fun stays => ?_,
      (finishes_or_hangs mixable
        (fun entry member => onTimeline entry (left.sublist.subset member)) count).2⟩
    obtain ⟨second, again, emptied⟩ :=
      render_of_halfway left.mustSync_eq mixable (increasing.sublist left.sublist) kept covers
        positive halfway (room.1 stays)
    rw [same, reflects.settings_eq] at again
    exact ⟨second, again, emptied⟩

/-- A timeline with one point to the millisecond, of which ten are kept, and a beeper that loses its
place after more than two silent requests. -/
def forgetfulConfig : Config Float :=
  { Config.standard with
    sampleRate := 500, supersampleFactor := 2, bufferSize := 50, maxBacklog := 10 }

/-- Two requests that play a point, a number of silent ones, two toggles that cancel, an empty
request, and more toggles. -/
def quietHistory (silent : Nat) : List (Event Float) :=
  [.notify 1, .render 2, .render 2] ++ List.replicate silent (.render 1) ++
    [.notify 30, .notify 30, .render 0, .notify 40, .notify 42, .notify 43]

/-- With two silent requests in all the place is kept, with three it is lost. -/
theorem place_after_quietHistory :
    (∃ before, (ofConfig forgetfulConfig).performAll (quietHistory 1) = some before ∧
      before.render 2 = (before.placedAt 3).render 2) ∧
    ∃ before samples first second,
      (ofConfig forgetfulConfig).performAll (quietHistory 2) = some before ∧
      before.render 2 = (before.placedAt 37).render 2 ∧
      before.render 2 = .heard samples first ∧
      first.pending.toList = [42, 43] ∧
      first.render 2 = .heard (mix 0.125 2 2 #[false, true, false, false]) second ∧
      second.pending.toList = [] := by
  constructor
  · have ends : ((ofConfig forgetfulConfig).performAll (quietHistory 1)).any
        (fun before => before.pending.newest? == some 43) = true := by
      decide +kernel
    obtain ⟨before, reached, isNewest⟩ := (Option.any_eq_true _ _).1 ends
    obtain ⟨_, _, requests⟩ := place_after_history forgetfulConfig reached
    have knows : ¬ LosesPlace forgetfulConfig.resyncThreshold
        ((ofConfig forgetfulConfig).steps (quietHistory 1)) := by
      decide +kernel
    obtain ⟨last, left, isLast, performed, continues⟩ :=
      (requests 43 (beq_iff_eq.1 isNewest) 2 4 rfl).2.1 knows
    have place : (lastHeard? ((ofConfig forgetfulConfig).steps (quietHistory 1))).any
        (fun last => (last.beeper.perform last.event).any fun left => left.cursor == 3) = true := by
      decide +kernel
    rw [isLast, Option.any_some, performed, Option.any_some, beq_iff_eq] at place
    rw [place] at continues
    exact ⟨before, reached, continues⟩
  · have ends : ((ofConfig forgetfulConfig).performAll (quietHistory 2)).any
        (fun before => before.pending.newest? == some 43 &&
          decide (before.pending.toList.Pairwise (· < ·)) &&
          (before.render 2).after?.any fun first =>
            first.cursor == 41 && !first.high && first.pending.toList == [42, 43]) = true := by
      decide +kernel
    obtain ⟨before, reached, shape⟩ := (Option.any_eq_true _ _).1 ends
    simp only [Bool.and_eq_true, beq_iff_eq, decide_eq_true_eq] at shape
    obtain ⟨⟨isNewest, increasing⟩, next⟩ := shape
    obtain ⟨_, _, requests⟩ := place_after_history forgetfulConfig reached
    have loses : LosesPlace forgetfulConfig.resyncThreshold
        ((ofConfig forgetfulConfig).steps (quietHistory 2)) := by
      decide +kernel
    obtain ⟨found, _, halfway⟩ := requests 43 isNewest 2 4 rfl
    obtain ⟨samples, first, older, rendered, kept, again⟩ :=
      halfway loses (by decide) increasing
    rw [rendered] at next
    simp only [Playback.after?, Option.any_some, Bool.and_eq_true, beq_iff_eq,
      Bool.not_eq_true'] at next
    obtain ⟨⟨cursor, low⟩, left⟩ := next
    obtain rfl : older = [42] := List.append_cancel_right (kept.symm.trans left)
    obtain ⟨room, flipping, -⟩ := again
    rw [cursor] at room
    rw [cursor, low] at flipping
    obtain ⟨second, flips, emptied⟩ := flipping (room.2 (by decide))
    exact ⟨before, samples, first, second, reached, found loses, rendered, left, flips, emptied⟩

end Spectrum48.Beeper
