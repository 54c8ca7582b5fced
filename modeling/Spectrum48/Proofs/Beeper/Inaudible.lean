import Spectrum48.Proofs.Beeper.Parity

/-!
# Dropping is not heard

A beeper that drops points because of its backlog sounds like one that keeps them. A request after
a long time without one begins one and a half requests before the newest point, and as long as the
backlog reaches that far, all that was dropped lies before the start and would have been played at
the first point anyway. After this request the two beepers have the same queue, level and place,
and so sound alike for ever.
-/

namespace Spectrum48.Beeper

variable {τ : Type}

/-! ### Beepers that sound alike -/

/-- Two beepers that agree in all that can be heard: they may differ in how their queues are stored
and in how far their backlogs reach. -/
structure SoundsLike (beeper other : Beeper τ) : Prop where
  /-- Samples cover as many points. -/
  factor_eq : beeper.settings.factor = other.settings.factor
  /-- High levels have the same value. -/
  amplitude_eq : beeper.settings.amplitude = other.settings.amplitude
  /-- The place is lost after as many silent requests. -/
  resyncThreshold_eq : beeper.settings.resyncThreshold = other.settings.resyncThreshold
  /-- The same points are queued. -/
  pending_eq : beeper.pending.toList = other.pending.toList
  /-- The levels are the same. -/
  high_eq : beeper.high = other.high
  /-- The cursors are at the same point. -/
  cursor_eq : beeper.cursor = other.cursor
  /-- Both know their place, or neither does. -/
  mustSync_eq : beeper.mustSync = other.mustSync
  /-- As many requests were silent. -/
  silentBuffers_eq : beeper.silentBuffers = other.silentBuffers

/-- How two requests end that sound alike. -/
inductive Playback.SoundsLike : Playback τ → Playback τ → Prop
  | heard {samples : Array Float32} {after after' : Beeper τ} (alike : after.SoundsLike after') :
      SoundsLike (.heard samples after) (.heard samples after')
  | unmixable {after after' : Beeper τ} (alike : after.SoundsLike after') :
      SoundsLike (.unmixable after) (.unmixable after')
  | endless : SoundsLike .endless .endless

/-- What is heard of requests, one after the other, until one never returns. -/
def answers (beeper : Beeper τ) : List Nat → List (Option (Array Float32))
  | [] => []
  | count :: rest =>
    match beeper.render count with
    | .heard samples after => some samples :: after.answers rest
    | .unmixable after => none :: after.answers rest
    | .endless => []

/-- Queues with the same entries are empty together. -/
theorem Queue.isEmpty_congr {queue other : Queue} (same : queue.toList = other.toList) :
    queue.isEmpty = other.isEmpty := by
  rw [Bool.eq_iff_iff, isEmpty_iff, isEmpty_iff, same]

namespace SoundsLike

variable {beeper other : Beeper τ}

/-- Catching up keeps beepers alike. -/
theorem catchUp (alike : beeper.SoundsLike other) :
    Option.Rel SoundsLike beeper.catchUp other.catchUp := by
  have left : (beeper.pending.dropOldest beeper.cursor).2.toList =
      (other.pending.dropOldest other.cursor).2.toList := by
    rw [Queue.toList_dropOldest, Queue.toList_dropOldest, alike.pending_eq, alike.cursor_eq]
  have played : (beeper.pending.dropOldest beeper.cursor).1 =
      (other.pending.dropOldest other.cursor).1 := by
    rw [Queue.fst_dropOldest, Queue.fst_dropOldest, alike.pending_eq, alike.cursor_eq]
  have ends : ((beeper.pending.dropOldest beeper.cursor).2.isEmpty &&
      decide (timelineEnd ≤ beeper.cursor)) =
      ((other.pending.dropOldest other.cursor).2.isEmpty &&
        decide (timelineEnd ≤ other.cursor)) := by
    rw [Queue.isEmpty_congr left, alike.cursor_eq]
  unfold Beeper.catchUp
  dsimp only
  rw [ends]
  split
  · exact .none
  · refine .some { alike with pending_eq := left, high_eq := ?_ }
    rw [played, alike.high_eq]

/-- Moving both cursors keeps beepers alike. -/
theorem advance (alike : beeper.SoundsLike other) : beeper.advance.SoundsLike other.advance where
  factor_eq := alike.factor_eq
  amplitude_eq := alike.amplitude_eq
  resyncThreshold_eq := alike.resyncThreshold_eq
  pending_eq := alike.pending_eq
  high_eq := alike.high_eq
  cursor_eq := congrArg (· + 1) alike.cursor_eq
  mustSync_eq := alike.mustSync_eq
  silentBuffers_eq := alike.silentBuffers_eq

/-- Playing points keeps beepers alike, and gives the same levels. -/
theorem play (alike : beeper.SoundsLike other) (points : Nat) (heard : Array Bool) :
    Option.Rel (fun one two => one.1 = two.1 ∧ one.2.SoundsLike two.2)
      (Beeper.play points beeper heard) (Beeper.play points other heard) := by
  induction points generalizing beeper other heard with
  | zero => exact .some ⟨rfl, alike⟩
  | succ points ih =>
    have caught := alike.catchUp
    unfold Beeper.play
    generalize beeper.catchUp = one at caught
    generalize other.catchUp = two at caught
    cases caught with
    | none => exact .none
    | some caught =>
      dsimp only
      rw [caught.high_eq]
      exact ih caught.advance _

/-- A silent request keeps beepers alike. -/
theorem countSilence (alike : beeper.SoundsLike other) :
    beeper.countSilence.SoundsLike other.countSilence := by
  unfold Beeper.countSilence
  dsimp only
  rw [alike.resyncThreshold_eq, alike.silentBuffers_eq]
  split
  · exact { alike with mustSync_eq := rfl, silentBuffers_eq := rfl }
  · exact { alike with silentBuffers_eq := rfl }

/-- A new place keeps beepers alike. -/
theorem resync (alike : beeper.SoundsLike other) (points : Nat) :
    (({ beeper with silentBuffers := 0 } : Beeper τ).resync points).SoundsLike
      (({ other with silentBuffers := 0 } : Beeper τ).resync points) := by
  have newest : beeper.pending.newest? = other.pending.newest? := by
    rw [Queue.newest?_eq, Queue.newest?_eq, alike.pending_eq]
  unfold Beeper.resync
  dsimp only
  rw [alike.mustSync_eq, newest]
  split
  · split
    · exact { alike with mustSync_eq := rfl, silentBuffers_eq := rfl, cursor_eq := rfl }
    · exact { alike with mustSync_eq := rfl, silentBuffers_eq := rfl }
  · exact { alike with mustSync_eq := rfl, silentBuffers_eq := rfl }

/-- A request for samples while points are queued ends alike. -/
theorem renderQueued (alike : beeper.SoundsLike other) (count : Nat) :
    (beeper.renderQueued count).SoundsLike (other.renderQueued count) := by
  have placed := alike.resync (count * other.settings.factor)
  have played := placed.play (count * other.settings.factor)
    (Array.emptyWithCapacity (count * other.settings.factor))
  unfold Beeper.renderQueued
  dsimp only
  rw [alike.factor_eq, alike.amplitude_eq]
  split
  · exact .unmixable placed
  · generalize Beeper.play (count * other.settings.factor) _ _ = one at played ⊢
    generalize Beeper.play (count * other.settings.factor) _ _ = two at played ⊢
    cases played with
    | none => exact .endless
    | some played =>
      dsimp only
      rw [played.1]
      exact .heard played.2

/-- A request for samples ends alike. -/
theorem render (alike : beeper.SoundsLike other) (count : Nat) :
    (beeper.render count).SoundsLike (other.render count) := by
  unfold Beeper.render
  rw [Queue.isEmpty_congr alike.pending_eq]
  split
  · rw [alike.amplitude_eq, alike.high_eq]
    exact .heard alike.countSilence
  · exact alike.renderQueued count

/-- Whatever is asked for, the same is heard. -/
theorem answers (alike : beeper.SoundsLike other) (counts : List Nat) :
    beeper.answers counts = other.answers counts := by
  induction counts generalizing beeper other with
  | nil => rfl
  | cons count rest ih =>
    have rendered := alike.render count
    unfold Beeper.answers
    generalize beeper.render count = one at rendered
    generalize other.render count = two at rendered
    cases rendered with
    | heard alike => exact congrArg _ (ih alike)
    | unmixable alike => exact congrArg _ (ih alike)
    | endless => rfl

end SoundsLike

/-! ### What lies ahead -/

/-- The level at a point is the level at the end, turned over by the points in between. -/
theorem levelAt_eq_of_ahead (beeper : Beeper τ) (point : Int) :
    beeper.levelAt point =
      flipped beeper.levelAtEnd (beeper.pending.toList.countP (point < ·)) := by
  have whole := List.length_eq_countP_add_countP (· ≤ point) (l := beeper.pending.toList)
  simp only [decide_eq_true_eq, Int.not_le] at whole
  unfold levelAt levelAtEnd
  rw [flipped_flipped, ← Queue.length_toList, whole]
  apply flipped_congr
  rw [Nat.add_assoc, Nat.odd_add]
  simp

/-- Beepers that have gathered the same toggles have the same points queued from where both their
backlogs reach. -/
theorem Gathers.filter_pending_eq {beeper other : Beeper τ} {toggled : List Int}
    (gathers : beeper.Gathers toggled) (gathers' : other.Gathers toggled) {last : Int}
    (isLast : toggled.getLast? = some last) {bound : Int}
    (reached : last - beeper.settings.backlogSpan ≤ bound + 1)
    (reached' : last - other.settings.backlogSpan ≤ bound + 1) :
    beeper.pending.toList.filter (bound < ·) = other.pending.toList.filter (bound < ·) := by
  apply List.Pairwise.eq_of_mem_iff (gathers.ordered.increasing.filter _)
    (gathers'.ordered.increasing.filter _)
  intro point
  simp only [List.mem_filter, gathers.mem_iff, gathers'.mem_iff, isLast, Option.mem_some_iff,
    forall_eq', decide_eq_true_eq]
  constructor
  · rintro ⟨⟨odd, -⟩, beyond⟩
    exact ⟨⟨odd, by omega⟩, beyond⟩
  · rintro ⟨⟨odd, -⟩, beyond⟩
    exact ⟨⟨odd, by omega⟩, beyond⟩

/-- The last toggled point is the newest one queued if it was toggled an odd number of times. -/
theorem Gathers.newest?_eq {beeper : Beeper τ} {toggled : List Int}
    (gathers : beeper.Gathers toggled) (nonneg : 0 ≤ beeper.settings.backlogSpan)
    (forward : toggled.Pairwise (· ≤ ·)) {last : Int} (isLast : toggled.getLast? = some last)
    (odd : Odd (toggled.count last)) : beeper.pending.newest? = some last := by
  obtain ⟨earlier, whole⟩ := List.getLast?_eq_some_iff.1 isLast
  apply newest?_of_increasing gathers.ordered.increasing
  · rw [gathers.mem_iff, mem_oddPoints, isLast]
    refine ⟨odd, ?_⟩
    simp only [Option.mem_some_iff, forall_eq']
    omega
  · intro entry queued
    have toggle := mem_oddPoints.1 ((gathers.mem_iff entry).1 queued).1
    have member := List.count_pos_iff.1 toggle.pos
    rw [whole] at member forward
    simpa using forward.rel_getLast member

/-- A beeper that has lost its place does not find it by a toggle. -/
theorem mustSync_toggleAt {beeper : Beeper τ} (lost : beeper.mustSync = true) (point : Int) :
    (beeper.toggleAt point).mustSync = true := by
  unfold toggleAt
  split
  · exact lost
  · simp [lost]

/-- Beepers that have lost their place have still lost it after toggles. -/
theorem mustSync_foldl_notify [Scalar τ] (times : List τ) {beeper : Beeper τ}
    (lost : beeper.mustSync = true) : (times.foldl notify beeper).mustSync = true := by
  induction times generalizing beeper with
  | nil => exact lost
  | cons time rest ih => exact ih (mustSync_toggleAt lost _)

/-! ### Two backlogs -/

/-- A request keeps the level once all queued points are played. -/
theorem PlayedFrom.levelAtEnd_eq {start : Int} {points : Nat} {beeper after : Beeper τ}
    (left : PlayedFrom start points beeper after) : after.levelAtEnd = beeper.levelAtEnd := by
  have fewer := left.sublist.length_le
  unfold levelAtEnd
  rw [left.high_eq, flipped_flipped, ← Queue.length_toList, ← Queue.length_toList,
    Nat.sub_add_cancel fewer]

/-- Two beepers that differ at most in their backlogs, and have the same points left after the same
stretch, sound alike from then on. -/
theorem PlayedFrom.soundsLike {start : Int} {points : Nat} {beeper after other after' : Beeper τ}
    (left : PlayedFrom start points beeper after) (left' : PlayedFrom start points other after')
    (same : other.settings =
      { beeper.settings with backlogSpan := other.settings.backlogSpan })
    (ends : beeper.levelAtEnd = other.levelAtEnd)
    (pending : after.pending.toList = after'.pending.toList) : after.SoundsLike after' where
  factor_eq := by rw [left.settings_eq, left'.settings_eq, same]
  amplitude_eq := by rw [left.settings_eq, left'.settings_eq, same]
  resyncThreshold_eq := by rw [left.settings_eq, left'.settings_eq, same]
  pending_eq := pending
  high_eq := by
    have turned : flipped after.high after.pending.size =
        flipped after'.high after'.pending.size :=
      left.levelAtEnd_eq.trans (ends.trans left'.levelAtEnd_eq.symm)
    rw [← Queue.length_toList, ← Queue.length_toList, pending] at turned
    exact flipped_inj turned
  cursor_eq := left.cursor_eq.trans left'.cursor_eq.symm
  mustSync_eq := left.mustSync_eq.trans left'.mustSync_eq.symm
  silentBuffers_eq := left.silentBuffers_eq.trans left'.silentBuffers_eq.symm

/-- Beepers that have lost their place, and have gathered the same toggles with backlogs that reach
as far back as a request begins, answer it with the same samples and sound alike from then on. -/
theorem Gathers.render {beeper other : Beeper τ} {toggled : List Int}
    (gathers : beeper.Gathers toggled) (gathers' : other.Gathers toggled)
    (lost : beeper.mustSync = true) (lost' : other.mustSync = true)
    (same : other.settings =
      { beeper.settings with backlogSpan := other.settings.backlogSpan })
    (nonneg : 0 ≤ beeper.settings.backlogSpan)
    (farther : beeper.settings.backlogSpan ≤ other.settings.backlogSpan)
    (forward : toggled.Pairwise (· ≤ ·)) {last : Int} (isLast : toggled.getLast? = some last)
    (odd : Odd (toggled.count last)) (within : last ≤ timelineEnd) {count points : Nat}
    (covers : points = count * beeper.settings.factor) (positive : 1 ≤ points)
    (short : (3 * points / 2 : Nat) ≤ beeper.settings.backlogSpan + 1) :
    ∃ samples after after',
      beeper.render count = .heard samples after ∧ other.render count = .heard samples after' ∧
      after.SoundsLike after' := by
  have factor : other.settings.factor = beeper.settings.factor := by rw [same]
  have amplitude : other.settings.amplitude = beeper.settings.amplitude := by rw [same]
  have mixable : beeper.settings.factor ≠ 0 := by
    intro none
    rw [none, Nat.mul_zero] at covers
    omega
  have start : beeper.startOf last points = last - (3 * points / 2 : Nat) := if_pos lost
  have start' : other.startOf last points = last - (3 * points / 2 : Nat) := if_pos lost'
  obtain ⟨after, rendered, left⟩ := render_of_newest mixable
    (gathers.ordered.increasing.imp Int.le_of_lt)
    (gathers.newest?_eq nonneg forward isLast odd) covers (by omega)
  obtain ⟨after', rendered', left'⟩ := render_of_newest (factor ▸ mixable)
    (gathers'.ordered.increasing.imp Int.le_of_lt)
    (gathers'.newest?_eq (nonneg.trans farther) forward isLast odd) (factor ▸ covers) (by omega)
  rw [start] at rendered left
  rw [start'] at rendered' left'
  have ends : beeper.levelAtEnd = other.levelAtEnd :=
    gathers.levelAtEnd_eq.trans gathers'.levelAtEnd_eq.symm
  -- From the start on both queues are the same, and so are the levels that they decide.
  have ahead (point : Int) (beyond : last - (3 * points / 2 : Nat) ≤ point) :
      beeper.pending.toList.filter (point < ·) = other.pending.toList.filter (point < ·) :=
    gathers.filter_pending_eq gathers' isLast (by omega) (by omega)
  have levels : waveform beeper.levelAt (last - (3 * points / 2 : Nat)) points =
      waveform other.levelAt (last - (3 * points / 2 : Nat)) points := by
    apply waveform_congr
    intro point beyond
    rw [levelAt_eq_of_ahead, levelAt_eq_of_ahead, ends, List.countP_eq_length_filter,
      List.countP_eq_length_filter, ahead point beyond]
  refine ⟨_, after, after', rendered, ?_, left.soundsLike left' same ends ?_⟩
  · rw [rendered', levels, factor, amplitude]
  · rw [left.pending_eq, left'.pending_eq, if_neg (by omega), if_neg (by omega)]
    exact ahead _ (by omega)

/-- How far the backlog reaches does not move the points of the timeline. -/
theorem pointAt_withBacklog [Scalar τ] (config : Config τ) (longer : τ) :
    (Settings.ofConfig { config with maxBacklog := longer }).pointAt =
      (Settings.ofConfig config).pointAt := by
  funext time
  simp only [Settings.pointAt, Settings.ofConfig, Config.supersamplesPerMs]

/-- Dropping points because of the backlog is not heard. Two new beepers, one of which has a longer
backlog, are told of the same toggles, at points that do not decrease, and of the last point an odd
number of times. A first request that plays some points, and begins no more than one point beyond
the shorter backlog, is answered with the same samples by both, which then have the same points
queued, the same level and the same place, and answer all later requests alike. -/
theorem render_of_longer_backlog (config : Config Float) {longer : Float}
    (farther : config.backlogSpan ≤
      ({ config with maxBacklog := longer } : Config Float).backlogSpan)
    {times : List Float}
    (forward : (times.map (Settings.ofConfig config).pointAt).Pairwise (· ≤ ·)) {last : Int}
    (isLast : (times.map (Settings.ofConfig config).pointAt).getLast? = some last)
    (odd : Odd ((times.map (Settings.ofConfig config).pointAt).count last)) {count : Nat}
    (positive : 1 ≤ count * config.supersampleFactor)
    (short : (3 * (count * config.supersampleFactor) / 2 : Nat) ≤ config.backlogSpan + 1) :
    ∃ samples after after',
      (times.foldl notify (ofConfig config)).render count = .heard samples after ∧
      (times.foldl notify (ofConfig { config with maxBacklog := longer })).render count =
        .heard samples after' ∧
      after.pending.toList = after'.pending.toList ∧ after.high = after'.high ∧
      after.cursor = after'.cursor ∧
      ∀ counts, after.answers counts = after'.answers counts := by
  have gathers := gathers_foldl_notify config forward
  have gathers' := gathers_foldl_notify { config with maxBacklog := longer }
    (by rw [pointAt_withBacklog]; exact forward)
  rw [pointAt_withBacklog] at gathers'
  have within : last ≤ timelineEnd := by
    obtain ⟨time, -, rfl⟩ := List.mem_map.1 (List.mem_of_getLast? isLast)
    exact pointAt_le_timelineEnd _ time
  have settings (config : Config Float) :
      (times.foldl notify (ofConfig config)).settings = Settings.ofConfig config :=
    settings_foldl_notify times _
  have nonneg : 0 ≤ config.backlogSpan := Int.le_trans (by decide) (Int.le_max_right _ 1)
  obtain ⟨samples, after, after', rendered, rendered', alike⟩ :=
    gathers.render gathers' (mustSync_foldl_notify times rfl) (mustSync_foldl_notify times rfl)
      (by rw [settings, settings]; rfl) (by rw [settings]; exact nonneg)
      (by rw [settings, settings]; exact farther) forward isLast odd within
      (by rw [settings]; rfl) positive (by rw [settings]; exact short)
  exact ⟨samples, after, after', rendered, rendered', alike.pending_eq, alike.high_eq,
    alike.cursor_eq, alike.answers⟩

/-- A timeline with one point to the millisecond, of which eleven are kept. -/
def elevenConfig : Config Float :=
  { Config.standard with sampleRate := 1000, supersampleFactor := 1, maxBacklog := 11 }

/-- Toggles of which an odd number lies too far before the last one, the newest of them just
there. -/
def tooManyTimes : List Float := [1, 2, 5, 7, 8, 9, 9, 12, 13, 14, 17, 18, 20]

/-- A request that begins one point beyond the backlog, at a dropped point, sounds as if nothing had
been dropped. -/
theorem render_of_longer_backlog_of_tooManyTimes :
    (tooManyTimes.foldl notify (ofConfig elevenConfig)).pending.size = 6 ∧
    (tooManyTimes.foldl notify (ofConfig { elevenConfig with maxBacklog := 1000 })).pending.size =
      11 ∧
    ∃ samples after after',
      (tooManyTimes.foldl notify (ofConfig elevenConfig)).render 8 = .heard samples after ∧
      (tooManyTimes.foldl notify (ofConfig { elevenConfig with maxBacklog := 1000 })).render 8 =
        .heard samples after' ∧
      after.pending.toList = after'.pending.toList ∧ after.high = after'.high ∧
      after.cursor = after'.cursor ∧
      after.answers [3, 0, 8, 5] = after'.answers [3, 0, 8, 5] := by
  refine ⟨by decide +kernel, by decide +kernel, ?_⟩
  obtain ⟨samples, after, after', rendered, rendered', pending, high, cursor, later⟩ :=
    render_of_longer_backlog elevenConfig
      (by decide +kernel : elevenConfig.backlogSpan ≤
        ({ elevenConfig with maxBacklog := 1000 } : Config Float).backlogSpan)
      (by decide +kernel :
        (tooManyTimes.map (Settings.ofConfig elevenConfig).pointAt).Pairwise (· ≤ ·))
      (by decide +kernel :
        (tooManyTimes.map (Settings.ofConfig elevenConfig).pointAt).getLast? = some 20)
      (by decide +kernel) (by decide : 1 ≤ 8 * elevenConfig.supersampleFactor)
      (by decide +kernel)
  exact ⟨samples, after, after', rendered, rendered', pending, high, cursor, later _⟩

end Spectrum48.Beeper
