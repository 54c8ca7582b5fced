import Spectrum48.Config.Validity
import Spectrum48.Proofs.Beeper.Request
import Spectrum48.Proofs.Beeper.Streaming

/-!
# Requests that end

At each of its points a request compares the cursor with the next queued point, or with the end of
the timeline once nothing is queued, and as long as the cursor has reached it, the level flips and
the oldest queued point is removed. Before the end of the timeline this goes on for no more passes
than there are queued points. At the end of the timeline the cursor reaches what stands for an empty
queue, and the passes never end.
-/

namespace Spectrum48.Beeper

variable {τ : Type}

/-! ### Passes -/

/-- The point that the cursor is compared with: the oldest queued one, or the end of the timeline if
nothing is queued. -/
def nextPoint (beeper : Beeper τ) : Int := beeper.pending.toList.headD timelineEnd

/-- One pass: the level flips, and the oldest queued point is removed, if there is one. -/
def playOldest (beeper : Beeper τ) : Beeper τ :=
  { beeper with pending := ⟨beeper.pending.toList.tail, []⟩, high := !beeper.high }

/-- Passes are made as long as the cursor has reached the next point. -/
inductive Passes : (passes : Nat) → (beeper after : Beeper τ) → Prop
  /-- The next point is ahead of the cursor. -/
  | done {beeper : Beeper τ} (ahead : beeper.cursor < beeper.nextPoint) : Passes 0 beeper beeper
  /-- The cursor has reached the next point. -/
  | pass {passes : Nat} {beeper after : Beeper τ} (reached : beeper.nextPoint ≤ beeper.cursor)
    (later : Passes passes beeper.playOldest after) : Passes (passes + 1) beeper after

/-- The entries after a pass. -/
theorem toList_playOldest (beeper : Beeper τ) :
    beeper.playOldest.pending.toList = beeper.pending.toList.tail := List.append_nil _

/-- Where points beyond the cursor are queued, or the timeline goes on, the passes end. They remove
the points up to the cursor, one each. -/
theorem exists_passes {beeper : Beeper τ}
    (open_ended : beeper.pending.toList.dropWhile (· ≤ beeper.cursor) ≠ [] ∨
      beeper.cursor < timelineEnd) :
    ∃ after,
      Passes (beeper.pending.toList.takeWhile (· ≤ beeper.cursor)).length beeper after ∧
      after.pending.toList = beeper.pending.toList.dropWhile (· ≤ beeper.cursor) ∧
      after =
        { beeper with
          pending := after.pending
          high := flipped beeper.high
            (beeper.pending.toList.takeWhile (· ≤ beeper.cursor)).length } := by
  -- The beeper of each pass is another one, so the induction is on the queued points alone.
  generalize entries_eq : beeper.pending.toList = entries at open_ended ⊢
  induction entries generalizing beeper with
  | nil =>
    have ahead : beeper.cursor < beeper.nextPoint := by
      rw [nextPoint, entries_eq]
      exact open_ended.resolve_left fun some_left => some_left rfl
    refine ⟨beeper, .done ahead, entries_eq, ?_⟩
    rw [List.takeWhile_nil, List.length_nil, flipped_zero]
  | cons oldest rest ih =>
    have next : beeper.nextPoint = oldest := by
      rw [nextPoint, entries_eq, List.headD_cons]
    by_cases reached : oldest ≤ beeper.cursor
    · rw [List.dropWhile_cons_of_pos (by simpa using reached)] at open_ended ⊢
      rw [List.takeWhile_cons_of_pos (by simpa using reached), List.length_cons]
      have left : beeper.playOldest.pending.toList = rest := by
        rw [toList_playOldest, entries_eq, List.tail_cons]
      obtain ⟨after, passes, kept, same⟩ := ih left open_ended
      refine ⟨after, .pass (next ▸ reached) passes, kept, ?_⟩
      have turned (flips : Nat) :
          flipped (!beeper.high) flips = flipped beeper.high (flips + 1) := by
        rw [Nat.add_comm, ← flipped_flipped, flipped_succ beeper.high 0, flipped_zero]
      rw [same, ← turned]
      rfl
    · have ahead : beeper.cursor < beeper.nextPoint := by
        rw [next]
        omega
      rw [List.dropWhile_cons_of_neg (by simpa using reached),
        List.takeWhile_cons_of_neg (by simpa using reached)]
      refine ⟨beeper, .done ahead, entries_eq, ?_⟩
      rw [List.length_nil, flipped_zero]

/-- The cursor cannot get away exactly if it is at the end of the timeline or beyond, and so are all
queued points. -/
theorem catchUp_eq_none_iff {beeper : Beeper τ} :
    beeper.catchUp = none ↔
      beeper.pending.toList.dropWhile (· ≤ beeper.cursor) = [] ∧ timelineEnd ≤ beeper.cursor := by
  rw [← Queue.toList_dropOldest, ← Queue.isEmpty_iff]
  simp [catchUp]

/-- With the cursor at the end of the timeline, and no queued point beyond it, the passes never
end. -/
theorem not_passes {beeper : Beeper τ}
    (none_left : beeper.pending.toList.dropWhile (· ≤ beeper.cursor) = [])
    (atEnd : timelineEnd ≤ beeper.cursor) {passes : Nat} {after : Beeper τ} :
    ¬Passes passes beeper after := by
  intro ended
  induction ended with
  | @done beeper ahead =>
    unfold nextPoint at ahead
    cases entries : beeper.pending.toList with
    | nil =>
      rw [entries, List.headD_nil] at ahead
      omega
    | cons oldest rest =>
      rw [entries, List.headD_cons] at ahead
      rw [entries, List.dropWhile_cons_of_neg (by simpa using ahead)] at none_left
      cases none_left
  | @pass passes beeper after reached later ih =>
    refine ih ?_ atEnd
    rw [toList_playOldest]
    unfold nextPoint at reached
    change beeper.pending.toList.tail.dropWhile (· ≤ beeper.cursor) = []
    cases entries : beeper.pending.toList with
    | nil => rfl
    | cons oldest rest =>
      rw [entries, List.headD_cons] at reached
      rwa [entries, List.dropWhile_cons_of_pos (by simpa using reached)] at none_left

/-- Passes that end remove one queued point each. -/
theorem Passes.size {passes : Nat} {beeper after : Beeper τ} (ended : Passes passes beeper after) :
    passes + after.pending.size = beeper.pending.size := by
  induction ended with
  | done => exact Nat.zero_add _
  | @pass passes beeper after reached later ih =>
    rw [← Queue.length_toList, ← Queue.length_toList, toList_playOldest] at ih
    rw [← Queue.length_toList, ← Queue.length_toList]
    cases entries : beeper.pending.toList with
    | nil =>
      -- Without a queued point to remove there would be no end.
      rw [nextPoint, entries, List.headD_nil] at reached
      have none_left :
          beeper.playOldest.pending.toList.dropWhile (· ≤ beeper.playOldest.cursor) = [] := by
        rw [toList_playOldest, entries]
        rfl
      exact absurd later (not_passes none_left reached)
    | cons oldest rest =>
      rw [entries, List.tail_cons] at ih
      rw [List.length_cons, ← ih]
      omega

/-- Where the cursor can get away, the passes end, and leave what catching up leaves. -/
theorem passes_of_catchUp {beeper caught : Beeper τ} (caughtUp : beeper.catchUp = some caught) :
    ∃ passes after, Passes passes beeper after ∧
      caught.pending.toList = after.pending.toList ∧
      { caught with pending := after.pending } = after := by
  have open_ended : beeper.pending.toList.dropWhile (· ≤ beeper.cursor) ≠ [] ∨
      beeper.cursor < timelineEnd := by
    by_contra closed
    rw [not_or, not_not, not_lt, ← catchUp_eq_none_iff, caughtUp] at closed
    cases closed
  obtain ⟨after, passes, kept, same⟩ := exists_passes open_ended
  refine ⟨_, after, passes, ?_, ?_⟩
  · rw [catchUp_eq_some caughtUp, kept, Queue.toList_dropOldest]
  · rw [catchUp_eq_some caughtUp, Queue.fst_dropOldest]
    exact same.symm

/-- Catching up stands for passes: it has a result exactly if they end. -/
theorem catchUp_isSome_iff {beeper : Beeper τ} :
    beeper.catchUp.isSome = true ↔ ∃ passes after, Passes passes beeper after := by
  cases caughtUp : beeper.catchUp with
  | none =>
    obtain ⟨none_left, atEnd⟩ := catchUp_eq_none_iff.1 caughtUp
    exact iff_of_false Bool.false_ne_true fun ⟨_, _, ended⟩ => not_passes none_left atEnd ended
  | some caught =>
    obtain ⟨passes, after, ended, -⟩ := passes_of_catchUp caughtUp
    exact iff_of_true rfl ⟨passes, after, ended⟩

/-! ### The points of a request -/

/-- The beepers at consecutive points, each before the queued points up to its cursor are played. -/
def slots : (points : Nat) → Beeper τ → List (Beeper τ)
  | 0, _ => []
  | points + 1, beeper =>
    beeper :: match beeper.catchUp with
      | none => []
      | some caught => slots points caught.advance

/-- The beepers at the points that a request plays. -/
def requestSlots (beeper : Beeper τ) (count : Nat) : List (Beeper τ) :=
  let points := count * beeper.settings.factor
  if beeper.pending.isEmpty then []
  else slots points (({ beeper with silentBuffers := 0 } : Beeper τ).resync points)

/-- Points are played to the end exactly if the passes at each of them end. -/
theorem play_isSome_iff {points : Nat} {beeper : Beeper τ} (heard : Array Bool) :
    (play points beeper heard).isSome = true ↔
      ∀ slot ∈ slots points beeper, ∃ passes after, Passes passes slot after := by
  induction points generalizing beeper heard with
  | zero => exact iff_of_true rfl (List.forall_mem_nil _)
  | succ points ih =>
    rw [play, slots, List.forall_mem_cons, ← catchUp_isSome_iff]
    cases beeper.catchUp with
    | none => exact iff_of_false Bool.false_ne_true fun ended => Bool.false_ne_true ended.1
    | some caught => exact (ih (heard.push caught.high)).trans (and_iff_right rfl).symm

/-- With no queued point beyond the end of the timeline, points are played to the end exactly if the
timeline goes on for as long. -/
theorem play_isSome_iff_le {points : Nat} {beeper : Beeper τ}
    (queued : ∀ entry ∈ beeper.pending.toList, entry ≤ timelineEnd) (heard : Array Bool) :
    (play points beeper heard).isSome = true ↔
      points = 0 ∨ beeper.cursor + points ≤ timelineEnd := by
  induction points generalizing beeper heard with
  | zero => exact iff_of_true rfl (.inl rfl)
  | succ points ih =>
    rw [play, Nat.cast_succ]
    by_cases within : beeper.cursor < timelineEnd
    · have left : ∀ entry ∈ (beeper.pending.dropOldest beeper.cursor).2.toList,
          entry ≤ timelineEnd :=
        fun entry member => queued entry ((Queue.sublist_dropOldest _ _).subset member)
      rw [catchUp_of_lt within]
      refine (ih left _).trans ?_
      change points = 0 ∨ beeper.cursor + 1 + points ≤ timelineEnd ↔ _
      omega
    · have all : beeper.pending.toList.dropWhile (· ≤ beeper.cursor) = [] := by
        rw [List.dropWhile_eq_nil_iff]
        intro entry member
        have := queued entry member
        simp only [decide_eq_true_eq]
        omega
      rw [catchUp_eq_none_iff.2 ⟨all, by omega⟩]
      exact iff_of_false Bool.false_ne_true (by omega)

/-! ### Requests -/

/-- A request that ends: it is answered with the samples asked for, and at each point that it plays
the passes end, each having removed a queued point. -/
structure Finishes (beeper : Beeper τ) (count : Nat) : Prop where
  /-- The answer has the samples asked for. -/
  answered : ∃ samples after, beeper.render count = .heard samples after ∧ samples.size = count
  /-- At each point there are as many passes as queued points are removed. -/
  passes : ∀ slot ∈ beeper.requestSlots count, ∃ passes after,
    Passes passes slot after ∧ passes + after.pending.size = slot.pending.size

/-- A request that does not end: there is no answer, and at one of its points the passes go on for
ever. -/
structure Hangs (beeper : Beeper τ) (count : Nat) : Prop where
  /-- There is no answer. -/
  endless : beeper.render count = .endless
  /-- At one of the points the passes do not end. -/
  stuck : ∃ slot ∈ beeper.requestSlots count, ∀ passes after, ¬Passes passes slot after

/-- Whether the timeline goes on for as long as a request plays. A request without queued points
plays nothing, and one that finds a new place begins before the newest point. -/
def HasRoom (beeper : Beeper τ) (count : Nat) : Prop :=
  beeper.pending.isEmpty = true ∨ beeper.mustSync = true ∨ count = 0 ∨
    beeper.cursor + (count * beeper.settings.factor : Nat) ≤ timelineEnd

/-- With queued points, the timeline goes on for as long as a request plays if it does so from the
start of the request on. -/
theorem hasRoom_iff {beeper : Beeper τ} (mixable : beeper.settings.factor ≠ 0)
    (queued : ∀ entry ∈ beeper.pending.toList, entry ≤ timelineEnd) {newest : Int}
    (isNewest : beeper.pending.newest? = some newest) {count points : Nat}
    (covers : points = count * beeper.settings.factor) :
    beeper.HasRoom count ↔ points = 0 ∨ beeper.startOf newest points + points ≤ timelineEnd := by
  have nothing : points = 0 ↔ count = 0 := by
    rw [covers, Nat.mul_eq_zero, or_iff_left mixable]
  have within : newest ≤ timelineEnd := by
    rw [Queue.newest?_eq] at isNewest
    exact queued newest (List.mem_of_getLast? isNewest)
  unfold HasRoom startOf
  rw [isEmpty_of_newest? isNewest, ← covers, nothing]
  cases beeper.mustSync with
  | true =>
    rw [if_pos rfl]
    exact iff_of_true (.inr (.inl rfl)) (.inr (by omega))
  | false => simp

/-- While the place is known and points are queued, the timeline goes on for as long as a request
plays exactly if the cursor at its end is a number of 64 bits. -/
theorem hasRoom_iff_of_synced {beeper : Beeper τ} (synced : beeper.mustSync = false)
    (queued : beeper.pending.isEmpty = false) {count : Nat} (positive : 1 ≤ count) :
    beeper.HasRoom count ↔
      beeper.cursor + (count * beeper.settings.factor : Nat) ≤ Numeric.greatestInt64 := by
  have some_samples : count ≠ 0 := by omega
  unfold HasRoom
  rw [synced, queued]
  simp only [Bool.false_eq_true, some_samples, false_or]
  exact Iff.rfl

/-- A request with queued points at one of whose points the cursor cannot get away does not end. -/
theorem render_eq_endless {beeper : Beeper τ} (mixable : beeper.settings.factor ≠ 0)
    {newest : Int} (isNewest : beeper.pending.newest? = some newest) {count points : Nat}
    (covers : points = count * beeper.settings.factor)
    (stuck : play points (beeper.placedAt (beeper.startOf newest points))
      (Array.emptyWithCapacity points) = none) :
    beeper.render count = .endless := by
  simp only [render, isEmpty_of_newest? isNewest, renderQueued, mixable, Bool.false_eq_true,
    if_false]
  rw [← covers, resync_eq isNewest, stuck]

/-- A request ends if the timeline goes on for as long as it plays, and hangs otherwise. -/
theorem finishes_or_hangs {beeper : Beeper τ} (mixable : beeper.settings.factor ≠ 0)
    (queued : ∀ entry ∈ beeper.pending.toList, entry ≤ timelineEnd) (count : Nat) :
    (beeper.HasRoom count → beeper.Finishes count) ∧
    (¬beeper.HasRoom count → beeper.Hangs count) := by
  cases silent : beeper.pending.isEmpty with
  | true =>
    have nothing : beeper.requestSlots count = [] := if_pos silent
    refine ⟨fun _ => ⟨⟨_, _, render_of_isEmpty silent count, Array.size_replicate⟩, ?_⟩,
      fun none => absurd (.inl silent) none⟩
    rw [nothing]
    exact List.forall_mem_nil _
  | false =>
    obtain ⟨newest, isNewest⟩ := exists_newest? silent
    generalize covers : count * beeper.settings.factor = points
    let placed := beeper.placedAt (beeper.startOf newest points)
    have covered : beeper.requestSlots count = slots points placed := by
      rw [requestSlots, silent, if_neg Bool.false_ne_true, covers, resync_eq isNewest]
    have room : beeper.HasRoom count ↔ _ := hasRoom_iff mixable queued isNewest covers.symm
    have kept : ∀ entry ∈ placed.pending.toList, entry ≤ timelineEnd := queued
    have reaches : (play points placed (Array.emptyWithCapacity points)).isSome = true ↔
        points = 0 ∨ placed.cursor + points ≤ timelineEnd := play_isSome_iff_le kept _
    have passes : (play points placed (Array.emptyWithCapacity points)).isSome = true ↔
        ∀ slot ∈ slots points placed, ∃ passes after, Passes passes slot after := play_isSome_iff _
    rw [← covered] at passes
    cases played : play points placed (Array.emptyWithCapacity points) with
    | some result =>
      rw [played] at reaches passes
      have rendered := render_of_play mixable isNewest covers.symm played
      refine ⟨fun _ => ⟨⟨_, _, rendered, size_mix _ _ _ _⟩, fun slot member => ?_⟩,
        fun none => absurd (room.2 (reaches.1 rfl)) none⟩
      obtain ⟨count, after, ended⟩ := passes.1 rfl slot member
      exact ⟨count, after, ended, ended.size⟩
    | none =>
      rw [played] at reaches passes
      refine ⟨fun within => absurd (reaches.2 (room.1 within)) Bool.false_ne_true, fun _ =>
        ⟨render_eq_endless mixable isNewest covers.symm played, ?_⟩⟩
      by_contra free
      push Not at free
      exact Bool.false_ne_true (passes.2 free)

/-! ### Requests after a history -/

/-- A beeper of a configuration with nothing queued beyond the end of the timeline. -/
structure OnTimeline (config : Config Float) (beeper : Beeper Float) : Prop where
  /-- The unchanging properties are those of the configuration. -/
  settings : beeper.settings = Settings.ofConfig config
  /-- Every queued point lies on the timeline. -/
  queued : ∀ entry ∈ beeper.pending.toList, entry ≤ timelineEnd

/-- Events keep the queue on the timeline, where the points of doubles lie. -/
theorem OnTimeline.perform {config : Config Float} {beeper after : Beeper Float}
    (onTimeline : beeper.OnTimeline config) {event : Event Float}
    (performed : beeper.perform event = some after) : after.OnTimeline config := by
  cases event with
  | notify time =>
    cases performed
    refine ⟨(settings_toggleAt _ _).trans onTimeline.settings, fun entry member => ?_⟩
    rcases mem_toggleAt member with earlier | rfl
    · exact onTimeline.queued entry earlier
    · exact pointAt_le_timelineEnd _ time
  | render count =>
    exact ⟨(settings_render performed).trans onTimeline.settings, fun entry member =>
      onTimeline.queued entry ((sublist_render performed).subset member)⟩

/-- Histories keep the queue on the timeline. -/
theorem OnTimeline.performAll {config : Config Float} {beeper after : Beeper Float}
    (onTimeline : beeper.OnTimeline config) {history : List (Event Float)}
    (reached : beeper.performAll history = some after) : after.OnTimeline config := by
  induction history generalizing beeper with
  | nil =>
    cases reached
    exact onTimeline
  | cons event rest ih =>
    rw [Beeper.performAll, List.foldlM_cons] at reached
    obtain ⟨middle, performed, later⟩ := Option.bind_eq_some_iff.1 reached
    exact ih (onTimeline.perform performed) later

/-- Whether an event computes no number beyond 64 bits: not the point that the backlog of a toggle
reaches back to, and, if points are queued, neither the start of a request nor the cursor at its
end. -/
def InRange (beeper : Beeper Float) : Event Float → Prop
  | .notify time =>
    Numeric.leastInt64 ≤ beeper.settings.pointAt time - beeper.settings.backlogSpan
  | .render count =>
    ∀ newest ∈ beeper.pending.newest?,
      let points := count * beeper.settings.factor
      Numeric.leastInt64 ≤ beeper.startOf newest points ∧
        beeper.startOf newest points + points ≤ Numeric.greatestInt64

/-- Whether no event of a history computes a number beyond 64 bits. -/
def InRangeAll (beeper : Beeper Float) : List (Event Float) → Prop
  | [] => True
  | event :: rest =>
    beeper.InRange event ∧ ∀ after ∈ beeper.perform event, after.InRangeAll rest

/-- Whether an event stays in range is decided by its bounds. -/
instance decideInRange (beeper : Beeper Float) : (event : Event Float) →
    Decidable (beeper.InRange event)
  | .notify _ => inferInstanceAs (Decidable (_ ≤ _))
  | .render count =>
    have : DecidablePred fun newest : Int =>
        let points := count * beeper.settings.factor
        Numeric.leastInt64 ≤ beeper.startOf newest points ∧
          beeper.startOf newest points + points ≤ Numeric.greatestInt64 :=
      fun _ => inferInstanceAs (Decidable (_ ∧ _))
    inferInstanceAs (Decidable (∀ newest ∈ beeper.pending.newest?, _))

/-- Whether a history stays in range is decided by carrying it out. -/
instance decideInRangeAll : (history : List (Event Float)) → (beeper : Beeper Float) →
    Decidable (beeper.InRangeAll history)
  | [], _ => isTrue trivial
  | event :: rest, beeper =>
    have : DecidablePred fun after : Beeper Float => after.InRangeAll rest :=
      decideInRangeAll rest
    inferInstanceAs (Decidable
      (beeper.InRange event ∧ ∀ after ∈ beeper.perform event, after.InRangeAll rest))

/-- Whether the timeline goes on for as long as a request plays is decided by its bounds. -/
instance (beeper : Beeper τ) (count : Nat) : Decidable (beeper.HasRoom count) :=
  inferInstanceAs (Decidable (_ ∨ _ ∨ _ ∨ _))

/-- For a request that computes no number beyond 64 bits the timeline goes on. -/
theorem InRange.hasRoom {beeper : Beeper Float} {count : Nat}
    (inRange : beeper.InRange (.render count)) : beeper.HasRoom count := by
  cases silent : beeper.pending.isEmpty with
  | true => exact .inl silent
  | false =>
    cases lost : beeper.mustSync with
    | true => exact .inr (.inl lost)
    | false =>
      obtain ⟨newest, isNewest⟩ := exists_newest? silent
      obtain ⟨-, within⟩ := inRange newest isNewest
      rw [startOf, lost, if_neg Bool.false_ne_true] at within
      exact .inr (.inr (.inr within))

/-- After any history of a valid beeper, a request ends if the timeline goes on for as long as it
plays: it is answered, and at each point there are as many passes as queued points are removed. The
timeline goes on if the request computes no number beyond 64 bits. Otherwise the request hangs: at
one of the points the passes go on for ever. -/
theorem finishes_or_hangs_after_history (config : Config Float) (valid : config.Valid)
    {history : List (Event Float)} {before : Beeper Float}
    (reached : (ofConfig config).performAll history = some before) (count : Nat) :
    (before.InRange (.render count) → before.HasRoom count) ∧
    (before.HasRoom count → before.Finishes count) ∧
    (¬before.HasRoom count → before.Hangs count) := by
  have fresh : (ofConfig config).OnTimeline config := ⟨rfl, List.forall_mem_nil _⟩
  have onTimeline := fresh.performAll reached
  have mixable : before.settings.factor ≠ 0 := by
    rw [onTimeline.settings]
    exact valid.supersampleFactor_pos.ne'
  exact ⟨InRange.hasRoom, finishes_or_hangs mixable onTimeline.queued count⟩

/-- A toggle that falls out of the backlog, one at the end of the timeline, and a request. -/
def farHistory : List (Event Float) := [.notify 1, .notify (1 / 0), .render 4]

/-- A request that ends at the end of the timeline is answered. -/
theorem finishes_after_farHistory :
    (Config.standard : Config Float).Valid ∧
    ∃ before, (ofConfig Config.standard).performAll farHistory = some before ∧
      before.pending.toList = [timelineEnd] ∧ before.cursor = timelineEnd - 8 ∧
      before.Finishes 2 := by
  have ends : ((ofConfig Config.standard).performAll farHistory).any (fun before =>
      before.pending.toList == [timelineEnd] && before.cursor == timelineEnd - 8 &&
        before.HasRoom 2) = true := by
    decide +kernel
  obtain ⟨before, reached, observed⟩ := (Option.any_eq_true _ _).1 ends
  simp only [Bool.and_eq_true, beq_iff_eq, decide_eq_true_eq] at observed
  obtain ⟨⟨queued, cursor⟩, room⟩ := observed
  have valid : (Config.standard : Config Float).Valid := by decide +kernel
  exact ⟨valid, before, reached, queued, cursor,
    (finishes_or_hangs_after_history Config.standard valid reached 2).2.1 room⟩

/-- After a toggle at an infinite instant and a request for one sample, no number has left 64 bits,
but the next request for a sample finds the cursor at the end of the timeline, and hangs. -/
theorem hangs_at_timelineEnd :
    let config : Config Float := { Config.standard with supersampleFactor := 1 }
    let history : List (Event Float) := [.notify (1 / 0), .render 1]
    config.Valid ∧ (ofConfig config).InRangeAll history ∧
      ∃ before, (ofConfig config).performAll history = some before ∧
        before.pending.toList = [timelineEnd] ∧ before.cursor = timelineEnd ∧
        before.Hangs 1 := by
  intro config history
  have ends : ((ofConfig config).performAll history).any (fun before =>
      before.pending.toList == [timelineEnd] && before.cursor == timelineEnd &&
        before.settings.factor == 1 && !decide (before.HasRoom 1)) = true := by
    decide +kernel
  obtain ⟨before, reached, observed⟩ := (Option.any_eq_true _ _).1 ends
  simp only [Bool.and_eq_true, beq_iff_eq, Bool.not_eq_true', decide_eq_false_iff_not] at observed
  obtain ⟨⟨⟨queued, cursor⟩, factor⟩, noRoom⟩ := observed
  have mixable : before.settings.factor ≠ 0 := by
    rw [factor]
    exact Nat.one_ne_zero
  have last : ∀ entry ∈ before.pending.toList, entry ≤ timelineEnd := by
    rw [queued]
    exact List.forall_mem_singleton.2 (Int.le_refl _)
  exact ⟨by decide +kernel, by decide +kernel, before, reached, queued, cursor,
    (finishes_or_hangs mixable last 1).2 noRoom⟩

end Spectrum48.Beeper
