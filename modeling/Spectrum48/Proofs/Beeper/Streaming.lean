import Spectrum48.Proofs.Bare.Slots

/-!
# Streaming

The program toggles the speaker and the host asks for samples, in any interleaving. As long as the
beeper keeps its place, what is heard depends only on which points were toggled: every point of
the timeline that is played has the level that all toggles so far decide, however the queue was
drained in between. A toggle that comes late shows from the cursor on, and while nothing is queued
the cursor stands still.
-/

namespace Spectrum48.Beeper

variable {τ : Type} [Scalar τ]

/-- What happens to a beeper. -/
inductive Event (τ : Type) where
  /-- The program toggles the speaker at an instant. -/
  | notify (time : τ)
  /-- The host asks for samples. -/
  | render (count : Nat)

/-- The beeper after an event, unless it never returns. -/
def perform (beeper : Beeper τ) : Event τ → Option (Beeper τ)
  | .notify time => some (beeper.notify time)
  | .render count => (beeper.render count).after?

/-- The beeper after a history. -/
def performAll (beeper : Beeper τ) (history : List (Event τ)) : Option (Beeper τ) :=
  history.foldlM perform beeper

/-- The points that a history toggles. -/
def Settings.toggles (settings : Settings τ) (history : List (Event τ)) : List Int :=
  history.filterMap fun
    | .notify time => some (settings.pointAt time)
    | .render _ => none

/-- What an event toggles comes before what the events after it toggle. -/
theorem Settings.toggles_cons (settings : Settings τ) (event : Event τ)
    (rest : List (Event τ)) :
    settings.toggles (event :: rest) = settings.toggles [event] ++ settings.toggles rest := by
  rw [toggles, toggles, toggles, ← List.filterMap_append, List.singleton_append]

/-- How many points of the timeline an event plays. -/
def played (beeper : Beeper τ) : Event τ → Nat
  | .notify _ => 0
  | .render count =>
    if beeper.pending.isEmpty then 0 else count * beeper.settings.factor

/-- How many points of the timeline a history plays. -/
def playedAll (beeper : Beeper τ) : List (Event τ) → Nat
  | [] => 0
  | event :: rest =>
    beeper.played event
      + match beeper.perform event with
        | none => 0
        | some after => after.playedAll rest

/-- Whether a beeper keeps its place through an event: the cursor stays on the timeline, and there
is no need to find a new place afterwards. -/
def KeepsPlace (beeper : Beeper τ) (event : Event τ) : Prop :=
  beeper.cursor + beeper.played event ≤ timelineEnd ∧
    ∀ after ∈ beeper.perform event, after.mustSync = false

/-- Whether a beeper keeps its place through every event of a history. -/
def KeepsPlaceAll (beeper : Beeper τ) : List (Event τ) → Prop
  | [] => True
  | event :: rest =>
    beeper.KeepsPlace event ∧ ∀ after ∈ beeper.perform event, after.KeepsPlaceAll rest

/-- Keeping the place is decided by carrying out the event. -/
instance (beeper : Beeper τ) (event : Event τ) : Decidable (beeper.KeepsPlace event) :=
  inferInstanceAs (Decidable (_ ∧ _))

/-- Keeping the place is decided by carrying out the history. -/
instance decideKeepsPlaceAll : (history : List (Event τ)) → (beeper : Beeper τ) →
    Decidable (beeper.KeepsPlaceAll history)
  | [], _ => isTrue trivial
  | event :: rest, beeper =>
    have : DecidablePred fun after : Beeper τ => after.KeepsPlaceAll rest :=
      decideKeepsPlaceAll rest
    inferInstanceAs (Decidable
      (beeper.KeepsPlace event ∧ ∀ after ∈ beeper.perform event, after.KeepsPlaceAll rest))

/-! ### What a history leaves -/

/-- A beeper that has come from another one, through toggles and a number of points played. With
`flips` the points queued at the start and all that were toggled since, the timeline from the
cursor on is decided as if the level had flipped at each of them. -/
structure Follows (start : Beeper τ) (flips : List Int) (points : Nat) (beeper : Beeper τ) :
    Prop where
  settings_eq : beeper.settings = start.settings
  synced : beeper.mustSync = false
  cursor_eq : beeper.cursor = start.cursor + points
  sublist : beeper.pending.toList.Sublist flips
  levelAt_eq : ∀ point, beeper.cursor ≤ point →
    beeper.levelAt point = flipped start.high (flips.countP (· ≤ point))
  levelAtEnd_eq : beeper.levelAtEnd = flipped start.high flips.length

omit [Scalar τ] in
/-- A beeper that knows its place follows itself. -/
theorem Follows.refl {beeper : Beeper τ} (synced : beeper.mustSync = false) :
    Follows beeper beeper.pending.toList 0 beeper where
  settings_eq := rfl
  synced := synced
  cursor_eq := by simp
  sublist := List.Sublist.refl _
  levelAt_eq _ _ := rfl
  levelAtEnd_eq := by
    rw [Queue.length_toList]
    rfl

omit [Scalar τ] in
/-- The queue after a toggle holds at most one more point, the newest. -/
theorem sublist_toggleAt (beeper : Beeper τ) (point : Int) :
    (beeper.toggleAt point).pending.toList.Sublist (beeper.pending.toList ++ [point]) := by
  by_cases newest : beeper.pending.newest? = some point
  · rw [toggleAt_of_newest newest]
    simp only [Queue.toList_of_newest? newest, List.append_assoc]
    exact List.sublist_append_left _ _
  · rw [toggleAt_of_not_newest newest, ← Queue.toList_push]
    exact Queue.sublist_dropOldest _ _

omit [Scalar τ] in
/-- A toggle leaves the cursor where it is. -/
theorem cursor_toggleAt (beeper : Beeper τ) (point : Int) :
    (beeper.toggleAt point).cursor = beeper.cursor := by
  unfold toggleAt
  split <;> rfl

omit [Scalar τ] in
/-- A toggle that drops nothing is one more flip. -/
theorem Follows.toggleAt {start beeper : Beeper τ} {flips : List Int} {points : Nat}
    (follows : Follows start flips points beeper) {point : Int}
    (kept : (beeper.toggleAt point).mustSync = false) :
    Follows start (flips ++ [point]) points (beeper.toggleAt point) where
  settings_eq := (settings_toggleAt beeper point).trans follows.settings_eq
  synced := kept
  cursor_eq := (cursor_toggleAt beeper point).trans follows.cursor_eq
  sublist := (sublist_toggleAt beeper point).trans (follows.sublist.append_right _)
  levelAt_eq other ahead := by
    rw [cursor_toggleAt] at ahead
    rw [levelAt_toggleAt kept, follows.levelAt_eq other ahead, List.countP_append,
      List.countP_singleton]
    by_cases reached : point ≤ other
    · simp [reached, flipped_succ]
    · simp [reached]
  levelAtEnd_eq := by
    rw [levelAtEnd_toggleAt, follows.levelAtEnd_eq, List.length_append, List.length_singleton,
      flipped_succ]

omit [Scalar τ] in
/-- The count of silent requests is not followed. -/
theorem Follows.setSilent {start beeper : Beeper τ} {flips : List Int} {points : Nat}
    (follows : Follows start flips points beeper) (silent : Nat) :
    Follows start flips points { beeper with mustSync := false, silentBuffers := silent } where
  settings_eq := follows.settings_eq
  synced := rfl
  cursor_eq := follows.cursor_eq
  sublist := follows.sublist
  levelAt_eq := follows.levelAt_eq
  levelAtEnd_eq := follows.levelAtEnd_eq

omit [Scalar τ] in
/-- A request that plays points leaves the timeline beyond them decided as it was. -/
theorem Follows.movedOn {start beeper after : Beeper τ} {flips : List Int} {points more : Nat}
    (follows : Follows start flips points beeper) (moved : MovedOn more beeper after)
    (kept : after.levelAtEnd = beeper.levelAtEnd) :
    Follows start flips (points + more) after where
  settings_eq := moved.settings_eq.trans follows.settings_eq
  synced := moved.mustSync_eq.trans follows.synced
  cursor_eq := by
    rw [moved.cursor_eq, follows.cursor_eq]
    push_cast
    omega
  sublist := moved.sublist.trans follows.sublist
  levelAt_eq point ahead := by
    rw [moved.cursor_eq] at ahead
    rw [moved.levelAt_eq point ahead, follows.levelAt_eq point (by omega)]
  levelAtEnd_eq := kept.trans follows.levelAtEnd_eq

/-! ### Requests after a history -/

omit [Scalar τ] in
/-- A silent request holds the level that all flips together have left, and the cursor. -/
theorem Follows.render_of_isEmpty {start beeper : Beeper τ} {flips : List Int} {points : Nat}
    (follows : Follows start flips points beeper) (silent : beeper.pending.isEmpty = true)
    (count : Nat) :
    ∃ after,
      beeper.render count =
        .heard
          (Array.replicate count
            (level start.settings.amplitude (flipped start.high flips.length)))
          after ∧
      after.cursor = beeper.cursor := by
  refine ⟨beeper.countSilence, ?_, ?_⟩
  · rw [Beeper.render_of_isEmpty silent, follows.settings_eq, follows.levelAtEnd_eq]
  · rw [countSilence_eq]

omit [Scalar τ] in
/-- A request plays each point of its stretch at the level that the flips up to that point have
left. -/
theorem Follows.play {start beeper : Beeper τ} {flips : List Int} {points more : Nat}
    (follows : Follows start flips points beeper) (ordered : flips.Pairwise (· ≤ ·))
    (within : beeper.cursor + more ≤ timelineEnd) :
    ∃ after,
      Beeper.play more (({ beeper with silentBuffers := 0 } : Beeper τ).resync more)
          (Array.emptyWithCapacity more) =
        some
          (waveform (fun point => flipped start.high (flips.countP (· ≤ point))) beeper.cursor more,
            after) ∧
      MovedOn more { beeper with silentBuffers := 0 } after := by
  obtain ⟨after, played, moved⟩ :=
    play_of_synced follows.synced (ordered.sublist follows.sublist) within
  rw [waveform_congr follows.levelAt_eq] at played
  exact ⟨after, played, moved⟩

/-- An event that keeps the place is followed: a toggle as one more flip, a request as points
played. -/
theorem Follows.perform {start beeper : Beeper τ} {flips : List Int} {points : Nat}
    (follows : Follows start flips points beeper) (ordered : flips.Pairwise (· ≤ ·))
    {event : Event τ} (keeps : beeper.KeepsPlace event) :
    ∃ after, beeper.perform event = some after ∧
      Follows start (flips ++ start.settings.toggles [event]) (points + beeper.played event)
        after := by
  obtain ⟨within, kept⟩ := keeps
  cases event with
  | notify time =>
    refine ⟨beeper.notify time, rfl, ?_⟩
    rw [← follows.settings_eq]
    exact follows.toggleAt (kept _ rfl)
  | render count =>
    have nothing : flips ++ start.settings.toggles [Event.render count] = flips :=
      List.append_nil _
    rw [nothing]
    by_cases silent : beeper.pending.isEmpty = true
    · have returned : beeper.perform (.render count) = some beeper.countSilence := by
        simp only [Beeper.perform, Beeper.render_of_isEmpty silent, Playback.after?]
      have stays : beeper.played (.render count) = 0 := by
        simp [played, silent]
      refine ⟨beeper.countSilence, returned, ?_⟩
      rw [stays, countSilence_eq, kept _ returned]
      exact follows.setSilent _
    · have queued : beeper.pending.isEmpty = false := by simpa using silent
      have moves : beeper.played (.render count) = count * start.settings.factor := by
        simp [played, queued, follows.settings_eq]
      rw [moves] at within ⊢
      obtain ⟨after, played, moved⟩ := follows.play ordered within
      have returned : (beeper.render count).after? = some after := by
        rw [render_eq_mix queued (congrArg (count * ·.factor) follows.settings_eq.symm) played]
        split <;> rfl
      have quiet := follows.setSilent 0
      rw [← follows.synced] at quiet
      have kept : after.levelAtEnd = beeper.levelAtEnd := levelAtEnd_render returned
      exact ⟨after, returned, quiet.movedOn moved kept⟩

/-- A history that keeps the place is followed. -/
theorem Follows.performAll {start beeper : Beeper τ} {flips : List Int} {points : Nat}
    (follows : Follows start flips points beeper) {history : List (Event τ)}
    (ordered : (flips ++ start.settings.toggles history).Pairwise (· ≤ ·))
    (keeps : beeper.KeepsPlaceAll history) :
    ∃ after, beeper.performAll history = some after ∧
      Follows start (flips ++ start.settings.toggles history)
        (points + beeper.playedAll history) after := by
  induction history generalizing beeper flips points with
  | nil =>
    refine ⟨beeper, rfl, ?_⟩
    have nothing : flips ++ start.settings.toggles [] = flips := List.append_nil _
    rw [nothing]
    exact follows
  | cons event rest ih =>
    obtain ⟨first, later⟩ := keeps
    have joined : flips ++ start.settings.toggles (event :: rest)
        = flips ++ start.settings.toggles [event] ++ start.settings.toggles rest := by
      rw [List.append_assoc, ← Settings.toggles_cons]
    rw [joined] at ordered ⊢
    have earlier := ordered.sublist (List.sublist_append_left _ _)
    obtain ⟨middle, performed, followed⟩ :=
      follows.perform (earlier.sublist (List.sublist_append_left _ _)) first
    obtain ⟨after, rest_performed, reached⟩ := ih followed ordered (later middle performed)
    refine ⟨after, ?_, ?_⟩
    · rw [Beeper.performAll, List.foldlM_cons, performed]
      exact rest_performed
    · simp only [playedAll, performed, ← Nat.add_assoc]
      exact reached

/-- From a beeper that knows its place, with an ordered queue, through a history that keeps it and
toggles points in order, every request is decided by the toggles alone. The cursor is beyond the
start by the points played; while nothing is queued a request holds the level that all flips have
left, and otherwise it plays each point of its stretch at the level that the flips up to that
point have left, and moves the cursor to the end of the stretch. These levels are what it puts into
the slots of its points, whatever an earlier request has left there, and what it mixes. -/
theorem render_after_history {start : Beeper τ} (synced : start.mustSync = false)
    {history : List (Event τ)}
    (ordered : (start.pending.toList ++ start.settings.toggles history).Pairwise (· ≤ ·))
    (keeps : start.KeepsPlaceAll history) :
    ∃ before, start.performAll history = some before ∧
      before.cursor = start.cursor + start.playedAll history ∧
      ∀ count, before.KeepsPlace (.render count) →
        (before.pending.isEmpty = true → ∃ after,
          before.render count =
            .heard
              (Array.replicate count
                (level start.settings.amplitude
                  (flipped start.high
                    (start.pending.size + (start.settings.toggles history).length))))
              after ∧
          after.cursor = before.cursor) ∧
        (before.pending.isEmpty = false → ∃ samples after,
          samples =
            mix start.settings.amplitude start.settings.factor count
              (waveform
                (fun point =>
                  flipped start.high
                    (start.pending.toList.countP (· ≤ point)
                      + (start.settings.toggles history).countP (· ≤ point)))
                before.cursor (count * start.settings.factor)) ∧
          before.render count =
            (if start.settings.factor = 0 then .unmixable after else .heard samples after) ∧
          after.cursor = before.cursor + (count * start.settings.factor : Nat) ∧
          (start.settings.factor ≠ 0 → ∀ slots old : Array Float32, old.size = count →
            Bare.renderOver before slots old =
              pure (samples,
                (Array.ofFn fun slot : Fin (count * start.settings.factor) =>
                  level start.settings.amplitude
                    (flipped start.high
                      (start.pending.toList.countP (· ≤ before.cursor + slot)
                        + (start.settings.toggles history).countP (· ≤ before.cursor + slot)))),
                after))) := by
  obtain ⟨before, performed, follows⟩ := (Follows.refl synced).performAll ordered keeps
  refine ⟨before, performed, ?_, fun count place => ⟨fun silent => ?_, fun queued => ?_⟩⟩
  · rw [follows.cursor_eq, Nat.zero_add]
  · obtain ⟨after, rendered, stays⟩ := follows.render_of_isEmpty silent count
    rw [List.length_append, Queue.length_toList] at rendered
    exact ⟨after, rendered, stays⟩
  · have moves : before.played (.render count) = count * start.settings.factor := by
      simp [played, queued, follows.settings_eq]
    have within := place.1
    rw [moves] at within
    obtain ⟨after, played, moved⟩ := follows.play ordered within
    simp only [List.countP_append] at played
    have covers : count * start.settings.factor = count * before.settings.factor := by
      rw [follows.settings_eq]
    have rendered := render_eq_mix queued covers played
    rw [follows.settings_eq] at rendered
    refine ⟨_, after, rfl, rendered, moved.cursor_eq, ?_⟩
    intro mixable slots old size
    rw [← follows.settings_eq] at mixable
    rw [← size] at covers played ⊢
    rw [Bare.renderOver_of_play mixable queued covers played, waveform, Array.map_ofFn,
      follows.settings_eq]
    rfl

/-- A beeper that has two points queued and knows its place. -/
def midStream : Beeper Float where
  settings :=
    { supersamplesPerMs := 1, factor := 2, amplitude := 0.5, resyncThreshold := 3,
      backlogSpan := 100 }
  pending := ⟨[7, 9], []⟩
  high := true
  cursor := 5
  mustSync := false
  silentBuffers := 0

/-- Toggles that take a point back and put it there again, a request that plays all, silence, a
toggle behind the cursor, and one ahead of it. -/
def unevenHistory : List (Event Float) :=
  [.notify 9, .notify 9, .render 3, .render 2, .notify 10, .notify 14]

/-- The toggle that came late shows at once, the other one at its point, also in slots that held the
levels of an earlier request. -/
theorem render_after_unevenHistory :
    ∃ before after, midStream.performAll unevenHistory = some before ∧ before.cursor = 11 ∧
      before.render 2 = .heard (mix 0.5 2 2 #[false, false, false, true]) after ∧
      after.cursor = 15 ∧
      Bare.renderOver before #[9, 9, 9] #[7, 7] =
        pure (mix 0.5 2 2 #[false, false, false, true], #[-0.5, -0.5, -0.5, 0.5], after) := by
  obtain ⟨before, performed, place, requests⟩ :=
    render_after_history (by decide : midStream.mustSync = false)
      (by decide +kernel : (midStream.pending.toList
        ++ midStream.settings.toggles unevenHistory).Pairwise (· ≤ ·))
      (by decide +kernel : midStream.KeepsPlaceAll unevenHistory)
  have next : (midStream.performAll unevenHistory).all
      (fun before => decide (before.KeepsPlace (.render 2)) && !before.pending.isEmpty) = true := by
    decide +kernel
  rw [performed, Option.all_some, Bool.and_eq_true, decide_eq_true_eq, Bool.not_eq_true'] at next
  have cursor : before.cursor = 11 := place.trans (by decide +kernel)
  obtain ⟨samples, after, mixed, rendered, moved, reused⟩ := (requests 2 next.1).2 next.2
  have levels : waveform
      (fun point =>
        flipped midStream.high
          (midStream.pending.toList.countP (· ≤ point)
            + (midStream.settings.toggles unevenHistory).countP (· ≤ point)))
      11 (2 * midStream.settings.factor) = #[false, false, false, true] := by
    decide +kernel
  have filled := reused (by decide) #[9, 9, 9] #[7, 7] rfl
  rw [cursor] at mixed moved filled
  rw [levels] at mixed
  subst mixed
  refine ⟨before, after, performed, cursor, rendered, moved, filled.trans ?_⟩
  -- The slots are told by the points in queue and history, which are reckoned from instants.
  have toggles : midStream.settings.toggles unevenHistory = [9, 9, 10, 14] := by decide +kernel
  rw [toggles]
  rfl

end Spectrum48.Beeper
