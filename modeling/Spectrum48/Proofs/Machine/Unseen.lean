import Spectrum48.Proofs.Machine.Instants

/-!
# Frames without pictures

Nothing that a machine does depends on the picture that it shows, and drawing changes nothing but
the picture. So frames can be run without drawing them, which leaves only the little that a short
script does to be computed.
-/

namespace Spectrum48.Machine

variable {τ σ : Type}

/-- The machine with another picture. -/
def withPicture (machine : Machine τ σ) (picture : Video.Picture) : Machine τ σ :=
  { machine with picture := picture }

/-- Showing what was drawn only changes the picture. -/
theorem showDrawn_eq (machine : Machine τ σ) (drawn : Except Fault Video.Picture) :
    ∃ picture, machine.showDrawn drawn = machine.withPicture picture := by
  cases drawn with
  | ok picture => exact ⟨picture, rfl⟩
  | error _ => exact ⟨machine.picture, rfl⟩

variable [Scalar τ]

/-- The machine that a valid configuration gives. -/
def new (config : Config τ) (cpu : σ) : Machine τ σ where
  config := config
  bus := .ofConfig config
  cpu := cpu
  clock := .ofConfig config
  picture := .plain config.frameWidth config.frameHeight .white
  state := .uninitialized

/-- A valid configuration gives a machine. -/
theorem build_eq_new {config : Config τ} (valid : config.Valid) (cpu : σ) :
    build config cpu = .ok (new config cpu) := by
  unfold build
  rw [Config.defect?_eq_none_iff.2 valid]
  rfl

/-- A machine that was just built is the one that its configuration gives. -/
theorem eq_new_of_build {config : Config τ} {cpu : σ} [Processor σ] {machine : Machine τ σ}
    (built : build config cpu = .ok machine) : machine = new config cpu := by
  unfold build at built
  split at built
  · cases built
  · cases built
    rfl

variable [Processor σ]

/-- An instruction does not depend on the picture. -/
theorem runInstruction_withPicture (machine : Machine τ σ) (picture : Video.Picture) :
    (machine.withPicture picture).runInstruction =
      machine.runInstruction.withPicture picture := rfl

/-- The instructions of a frame do not depend on the picture. -/
theorem runInstructions_withPicture (limit : Nat) (machine : Machine τ σ)
    (picture : Video.Picture) :
    runInstructions limit (machine.withPicture picture) =
      (runInstructions limit machine).map fun ran => ran.withPicture picture := by
  induction limit generalizing machine with
  | zero =>
    unfold runInstructions
    change (if machine.clock.budgetExhausted then _ else _) = _
    split <;> rfl
  | succ limit ih =>
    unfold runInstructions
    change (if machine.clock.budgetExhausted then _ else _) = _
    split
    · rfl
    · dsimp only
      rw [runInstruction_withPicture, ih]
      change (if Processor.isHalted machine.runInstruction.cpu then _ else _) = _
      split <;> rfl

/-- The machines at which the instructions of a frame start do not depend on the picture. -/
theorem instructionsRun_withPicture (limit : Nat) (machine : Machine τ σ)
    (picture : Video.Picture) :
    instructionsRun limit (machine.withPicture picture) =
      (instructionsRun limit machine).map fun start => start.withPicture picture := by
  induction limit generalizing machine with
  | zero => rfl
  | succ limit ih =>
    unfold instructionsRun
    change (if machine.clock.budgetExhausted then _ else _) = _
    split
    · rfl
    · rw [runInstruction_withPicture, ih, List.map_cons]
      change _ :: (if Processor.isHalted machine.runInstruction.cpu then _ else _) = _
      split <;> rfl

/-- The machines at which the instructions of the next frame start do not depend on the picture. -/
theorem frameInstructions_withPicture (machine : Machine τ σ) (picture : Video.Picture) :
    (machine.withPicture picture).frameInstructions =
      machine.frameInstructions.map fun start => start.withPicture picture :=
  instructionsRun_withPicture machine.instructionLimit machine picture

/-- Run a frame without drawing it. -/
def unseenFrame (machine : Machine τ σ) : Option (Machine τ σ) :=
  (runInstructions machine.instructionLimit machine).map fun ran => ran.closeFrame.interrupt

/-- Run frames without drawing them, and gather the machines at which their instructions start. -/
def unseenFrames : (count : Nat) → Machine τ σ → Option (List (Machine τ σ) × Machine τ σ)
  | 0, machine => some ([], machine)
  | count + 1, machine =>
    match machine.unseenFrame with
    | none => none
    | some next =>
      (unseenFrames count next).map fun (starts, after) =>
        (machine.frameInstructions ++ starts, after)

/-- A frame is run as without drawing it, and then a picture is shown. -/
theorem stepFrame_of_unseenFrame {machine next : Machine τ σ}
    (run : machine.unseenFrame = some next) (picture : Video.Picture) :
    ∃ drawn, (machine.withPicture picture).stepFrame = some (next.withPicture drawn) := by
  obtain ⟨ran, returned, rfl⟩ := Option.map_eq_some_iff.1 run
  have seen : runInstructions machine.instructionLimit (machine.withPicture picture) =
      some (ran.withPicture picture) := by
    rw [runInstructions_withPicture, returned, Option.map_some]
  obtain ⟨drawn, shown⟩ := showDrawn_eq (ran.withPicture picture).closeFrame
    (Video.draw (ran.withPicture picture).closeFrame.border ran.bus.memory.screen
      (ran.withPicture picture).closeFrame.clock.flashInverted)
  refine ⟨drawn, stepFrame_eq_some.2 ⟨_, seen, ?_⟩⟩
  exact congrArg interrupt shown

/-- Frames are run as without drawing them. What does not look at the picture is the same at all
their instructions, and everything but the picture is the same after them. -/
theorem performAll_of_unseenFrames {α : Type} (observe : Machine τ σ → α)
    (blind : ∀ machine picture, observe (machine.withPicture picture) = observe machine)
    {count : Nat} {machine after : Machine τ σ} {starts : List (Machine τ σ)}
    (run : unseenFrames count machine = some (starts, after)) (picture : Video.Picture) :
    ((machine.withPicture picture).historyInstructions (List.replicate count .stepFrame)).map
        observe = starts.map observe ∧
    ∃ replies drawn,
      (machine.withPicture picture).performAll (List.replicate count .stepFrame) =
        some (replies, after.withPicture drawn) := by
  induction count generalizing machine starts picture with
  | zero =>
    cases run
    exact ⟨rfl, [], picture, rfl⟩
  | succ count ih =>
    unfold unseenFrames at run
    split at run
    · cases run
    · next next first =>
      obtain ⟨⟨rest, last⟩, later, same⟩ := Option.map_eq_some_iff.1 run
      cases same
      obtain ⟨shown, stepped⟩ := stepFrame_of_unseenFrame first picture
      have performed : (machine.withPicture picture).perform .stepFrame =
          some (.done, next.withPicture shown) := by
        change (machine.withPicture picture).stepFrame.map _ = _
        rw [stepped, Option.map_some]
      obtain ⟨observed, replies, drawn, reached⟩ := ih later shown
      rw [List.replicate_succ]
      constructor
      · unfold historyInstructions at observed ⊢
        unfold historyFrames
        rw [performed, List.flatMap_append, List.map_append, List.map_append, observed]
        congr 1
        change ([machine.withPicture picture].flatMap frameInstructions).map observe = _
        rw [List.flatMap_singleton, frameInstructions_withPicture, List.map_map]
        exact List.map_congr_left fun start _ => blind start picture
      · refine ⟨.done :: replies, drawn, ?_⟩
        rw [performAll, performed]
        dsimp only
        rw [reached]

/-- What holds at all instructions without looking at the picture holds at those of the history. -/
theorem forall_of_unseenFrames {holds : Machine τ σ → Prop}
    (blind : ∀ machine picture, holds (machine.withPicture picture) = holds machine)
    {count : Nat} {machine after : Machine τ σ} {starts : List (Machine τ σ)}
    (run : unseenFrames count machine = some (starts, after))
    (all : ∀ start ∈ starts, holds start) :
    ∀ start ∈ machine.historyInstructions (List.replicate count .stepFrame), holds start := by
  have observed := (performAll_of_unseenFrames holds blind run machine.picture).1
  intro start seen
  obtain ⟨other, ran, same⟩ := List.mem_map.1 (observed ▸ List.mem_map_of_mem seen)
  rw [← same]
  exact all other ran

/-- The instants of a history are those of its instructions, run without drawing. -/
theorem historyInstants_of_unseenFrames {count : Nat} {machine after : Machine τ σ}
    {starts : List (Machine τ σ)} (run : unseenFrames count machine = some (starts, after)) :
    machine.historyInstants (List.replicate count .stepFrame) =
      starts.flatMap instructionInstants := by
  have observed :=
    (performAll_of_unseenFrames instructionInstants (fun _ _ => rfl) run machine.picture).1
  unfold historyInstants
  rw [List.flatMap_def, List.flatMap_def, ← observed]
  rfl

end Spectrum48.Machine
