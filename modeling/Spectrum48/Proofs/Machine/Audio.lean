import Spectrum48.Processor.Scripted
import Spectrum48.Proofs.Machine.Likeness
import Spectrum48.Proofs.Machine.Unseen

/-!
# Sound that is listened to or not

Whoever asks for sound samples takes points from the beeper's queue and moves its cursor, and so do
those who never ask, in another way. The beepers of two such machines soon have little in common.
Nothing else ever tells: replies, processor, memory, circuit, clock and picture are what they are
without a single request.
-/

namespace Spectrum48

/-! ### Requests that are answered -/

namespace Beeper

variable {τ : Type}

/-- Points are played as long as the timeline goes on. -/
theorem play_isSome {points : Nat} {beeper : Beeper τ}
    (within : beeper.cursor + points ≤ timelineEnd) (heard : Array Bool) :
    (play points beeper heard).isSome = true := by
  induction points generalizing beeper heard with
  | zero => rfl
  | succ points ih =>
    push_cast at within
    rw [play, catchUp_of_lt (by omega)]
    refine ih ?_ _
    change beeper.cursor + 1 + points ≤ timelineEnd
    omega

/-- A request is answered if the timeline goes on for as long as it plays, and ends after all queued
points. -/
theorem render_ne_endless {beeper : Beeper τ} {count : Nat}
    (within : beeper.cursor + (count * beeper.settings.factor : Nat) ≤ timelineEnd)
    (queued : ∀ entry ∈ beeper.pending.toList, entry ≤ timelineEnd) :
    beeper.render count ≠ .endless := by
  -- The request starts where the beeper is, or a while before the newest point.
  have place (points : Nat) (sofar : beeper.cursor + points ≤ timelineEnd) :
      (({ beeper with silentBuffers := 0 } : Beeper τ).resync points).cursor + points ≤
        timelineEnd := by
    unfold resync
    split
    · split
      · next newest isNewest =>
        rw [Queue.newest?_eq] at isNewest
        have last := queued newest (List.mem_of_getLast? isNewest)
        dsimp only
        omega
      · exact sofar
    · exact sofar
  obtain ⟨result, played⟩ := Option.isSome_iff_exists.1 <|
    play_isSome (place _ within)
      (Array.emptyWithCapacity (count * beeper.settings.factor))
  unfold render renderQueued
  split
  · nofun
  · dsimp only
    split
    · nofun
    · rw [played]
      nofun

end Beeper

namespace Machine

variable {τ σ : Type}

/-! ### Histories and their requests -/

/-- A history without its requests for sound samples. -/
def withoutRenders (history : List (Operation τ)) : List (Operation τ) :=
  history.filter fun operation => !operation.isRender

/-- The replies of a history without those to requests for sound samples. -/
def emulationReplies (history : List (Operation τ)) (replies : List Reply) : List Reply :=
  ((history.zip replies).filter fun answered => !answered.1.isRender).map Prod.snd

/-- The reply to an operation that asks for no samples is kept. -/
theorem emulationReplies_cons {operation : Operation τ} (silent : operation.isRender = false)
    (rest : List (Operation τ)) (reply : Reply) (replies : List Reply) :
    emulationReplies (operation :: rest) (reply :: replies) =
      reply :: emulationReplies rest replies := by
  simp [emulationReplies, silent]

/-- A request for sound samples is left out. -/
theorem withoutRenders_render (count : Nat) (rest : List (Operation τ)) :
    withoutRenders (.render count :: rest) = withoutRenders rest := rfl

/-- Any other operation is kept. -/
theorem withoutRenders_cons {operation : Operation τ} (silent : operation.isRender = false)
    (rest : List (Operation τ)) :
    withoutRenders (operation :: rest) = operation :: withoutRenders rest :=
  List.filter_cons_of_pos (by rw [silent]; rfl)

variable [Scalar τ] [Processor σ]

/-- Whether each request for sound samples that a history comes to is answered. -/
def RendersReturn (machine : Machine τ σ) : List (Operation τ) → Prop
  | [] => True
  | operation :: rest =>
    (operation.isRender = true → (machine.perform operation).isSome) ∧
      ∀ reply next, machine.perform operation = some (reply, next) → next.RendersReturn rest

/-- A request is answered if it comes before the end of the timeline. -/
theorem perform_render_isSome {machine : Machine τ σ} {count : Nat}
    (within : machine.beeper.cursor + (count * machine.beeper.settings.factor : Nat) ≤
      Beeper.timelineEnd)
    (queued : ∀ entry ∈ machine.beeper.pending.toList, entry ≤ Beeper.timelineEnd) :
    (machine.perform (.render count)).isSome = true := by
  have answered := Beeper.render_ne_endless within queued
  change (machine.render count).isSome = true
  unfold render beeper at *
  split
  · rfl
  · rfl
  · next endless => exact absurd endless answered

/-- Two machines agree on everything but their beepers. -/
def AlikeUnheard (machine other : Machine τ σ) : Prop := machine.Alike id (fun _ _ => True) other

omit [Scalar τ] [Processor σ] in
/-- Asking for sound samples only changes the beeper. -/
theorem AlikeUnheard.render {machine other next : Machine τ σ} (alike : machine.AlikeUnheard other)
    {count : Nat} {reply : Reply} (rendered : machine.render count = some (reply, next)) :
    next.AlikeUnheard other := by
  obtain ⟨beeper, -, rfl⟩ := alike
  unfold Machine.render at rendered
  split at rendered
  · cases rendered
    exact ⟨beeper, trivial, rfl⟩
  · cases rendered
    exact ⟨beeper, trivial, rfl⟩
  · cases rendered

/-- Whatever is asked for, the rest of a history goes as it does without the requests, as long as
these are answered. -/
theorem AlikeUnheard.performAll {machine other : Machine τ σ} (alike : machine.AlikeUnheard other)
    {history : List (Operation τ)} (answered : machine.RendersReturn history) :
    Option.Rel
      (fun (replies, after) (replies', after') =>
        emulationReplies history replies = replies' ∧ after.AlikeUnheard after')
      (machine.performAll history) (other.performAll (withoutRenders history)) := by
  induction history generalizing machine other with
  | nil => exact .some ⟨rfl, alike⟩
  | cons operation rest ih =>
    obtain ⟨first, later⟩ := answered
    rw [performAll_cons]
    cases asks : operation.isRender with
    | true =>
      cases operation with
      | render count =>
        obtain ⟨⟨reply, next⟩, rendered⟩ := Option.isSome_iff_exists.1 (first asks)
        have same := ih (alike.render rendered) (later reply next rendered)
        rw [rendered, Option.bind_some, withoutRenders_render]
        rw [← Option.map_id_apply (x := other.performAll _)]
        exact rel_map same fun _ _ done => done
      | _ => cases asks
    | false =>
      rw [withoutRenders_cons asks, performAll_cons]
      have performed : Option.Rel (AlikeAfter id fun _ _ => True) (machine.perform operation)
          (other.perform operation) :=
        Alike.perform .identity Beeper.lasting_any alike fun asked => absurd asked (by simp [asks])
      refine rel_bind performed fun one ran another _ same => ?_
      have done := ih same.2 (later one.1 one.2 ran)
      refine rel_map done fun _ _ done => ⟨?_, done.2⟩
      rw [emulationReplies_cons asks, same.1, done.1]

omit [Scalar τ] [Processor σ] in
/-- Every machine agrees with itself. -/
theorem AlikeUnheard.refl (machine : Machine τ σ) : machine.AlikeUnheard machine :=
  ⟨machine.beeper, trivial, rfl⟩

end Machine

end Spectrum48
