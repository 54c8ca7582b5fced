import Spectrum48.Config.Basic

/-!
# Frame pacing

Host time is gathered in milliseconds and spent one frame at a time. Within a frame the processor's
cycles are counted against the budget of a frame; what an instruction spends beyond the budget is
carried into the next frame. Every flash period the flash phase changes.
-/

namespace Spectrum48

/-- The clock of a machine. -/
structure Clock (τ : Type) where
  /-- Milliseconds of a frame. -/
  frameTime : τ
  /-- Host time beyond this at once counts as one frame. -/
  maxFrameDelta : τ
  /-- Milliseconds between two changes of the flash phase. -/
  flashPeriod : τ
  /-- Cycles in a millisecond. -/
  cyclesPerMs : τ
  /-- Cycles in a frame. -/
  cyclesPerFrame : Int
  /-- Host time that has not been turned into frames. -/
  unspent : τ
  /-- The host's previous timestamp, if any is remembered. -/
  lastTimestamp : Option τ
  /-- Time since the flash phase changed. -/
  flashElapsed : τ
  /-- Whether flashing cells show their colours swapped. -/
  flashInverted : Bool
  /-- Frames completed. -/
  frameCount : Nat
  /-- Cycles spent in the current frame, with what the previous frame carried over. -/
  cycleCount : Int
  /-- Cycles spent in all frames. -/
  totalCycles : Nat

namespace Clock

/-- What happens at the end of a frame. -/
inductive Event where
  /-- The flash phase changed to the one given. -/
  | flashToggled (inverted : Bool)
  /-- The frame with the given number was completed. -/
  | frameEnd (frame : Nat)
  deriving DecidableEq, Repr

variable {τ : Type} [Scalar τ]

/-- A clock at the start of the first frame. -/
def ofConfig (config : Config τ) : Clock τ where
  frameTime := config.frameTime
  maxFrameDelta := config.maxFrameDelta
  flashPeriod := config.flashPeriod
  cyclesPerMs := Scalar.ofNat config.cpuFrequency
  cyclesPerFrame := config.cyclesPerFrame
  unspent := Scalar.zero
  lastTimestamp := none
  flashElapsed := Scalar.zero
  flashInverted := false
  frameCount := 0
  cycleCount := 0
  totalCycles := 0

/-- Host time as it counts: a stall is one frame, and time does not run backwards. -/
def credited (clock : Clock τ) (delta : τ) : τ :=
  if clock.maxFrameDelta < delta then clock.frameTime else Scalar.positivePart delta

/-- Let host time pass. -/
def elapse (clock : Clock τ) (delta : τ) : Clock τ :=
  { clock with unspent := clock.unspent + clock.credited delta }

/-- Let host time pass up to a timestamp. The first timestamp is only remembered. -/
def elapseTo (clock : Clock τ) (timestamp : τ) : Clock τ :=
  let clock := match clock.lastTimestamp with
    | some last => clock.elapse (timestamp - last)
    | none => clock
  { clock with lastTimestamp := some timestamp }

/-- Forget the previous timestamp and unspent host time. -/
def resetBaseline (clock : Clock τ) : Clock τ :=
  { clock with lastTimestamp := none, unspent := Scalar.zero }

/-- Whether the host time for a frame has passed. -/
def frameDue (clock : Clock τ) : Bool := clock.frameTime ≤ clock.unspent

/-- Whether the cycles of the current frame are spent. -/
def budgetExhausted (clock : Clock τ) : Bool := clock.cyclesPerFrame ≤ clock.cycleCount

/-- Spend cycles. -/
def addCycles (clock : Clock τ) (cycles : Nat) : Clock τ :=
  { clock with
    cycleCount := clock.cycleCount + cycles
    totalCycles := clock.totalCycles + cycles }

/-- Spend what is left of the frame's cycles. -/
def idleToFrameEnd (clock : Clock τ) : Clock τ :=
  clock.addCycles (clock.cyclesPerFrame - clock.cycleCount).toNat

/-- Advance the flash phase by one frame; it changes at most once. -/
def advanceFlash (clock : Clock τ) : List Event × Clock τ :=
  let elapsed := clock.flashElapsed + clock.frameTime
  if clock.flashPeriod ≤ elapsed then
    ([.flashToggled (!clock.flashInverted)],
     { clock with
       flashElapsed := elapsed - clock.flashPeriod
       flashInverted := !clock.flashInverted })
  else
    ([], { clock with flashElapsed := elapsed })

/-- Close the current frame: carry the cycles beyond its budget, advance the flash phase and spend
the host time of a frame. -/
def endFrame (clock : Clock τ) : List Event × Clock τ :=
  let (events, clock) := clock.advanceFlash
  let frame := clock.frameCount + 1
  (events ++ [.frameEnd frame],
   { clock with
     cycleCount := clock.cycleCount - clock.cyclesPerFrame
     frameCount := frame
     unspent := clock.unspent - clock.frameTime })

/-- Emulated time: the completed frames and the cycles of the current one. -/
def now (clock : Clock τ) : τ :=
  Scalar.ofNat clock.frameCount * clock.frameTime
    + Scalar.ofInt clock.cycleCount / clock.cyclesPerMs

/-- Host time up to a timestamp only adds to what is unspent. -/
theorem elapseTo_eq (clock : Clock τ) (timestamp : τ) :
    ∃ unspent, clock.elapseTo timestamp =
      { clock with unspent := unspent, lastTimestamp := some timestamp } := by
  unfold elapseTo
  cases clock.lastTimestamp with
  | none => exact ⟨clock.unspent, rfl⟩
  | some last => exact ⟨_, rfl⟩

/-- The flash phase is apart from everything else on the clock. -/
theorem advanceFlash_eq (clock : Clock τ) :
    ∃ elapsed inverted, clock.advanceFlash.2 =
      { clock with flashElapsed := elapsed, flashInverted := inverted } := by
  unfold advanceFlash
  dsimp only
  split
  · exact ⟨_, _, rfl⟩
  · exact ⟨_, clock.flashInverted, rfl⟩

/-- Closing a frame takes its budget from the cycles spent in it. -/
theorem cycleCount_endFrame (clock : Clock τ) :
    clock.endFrame.2.cycleCount = clock.cycleCount - clock.cyclesPerFrame := by
  obtain ⟨elapsed, inverted, same⟩ := clock.advanceFlash_eq
  simp only [endFrame, same]

/-- Closing a frame counts it. -/
theorem frameCount_endFrame (clock : Clock τ) :
    clock.endFrame.2.frameCount = clock.frameCount + 1 := by
  obtain ⟨elapsed, inverted, same⟩ := clock.advanceFlash_eq
  simp only [endFrame, same]

/-- Closing a frame spends no cycles. -/
theorem totalCycles_endFrame (clock : Clock τ) :
    clock.endFrame.2.totalCycles = clock.totalCycles := by
  obtain ⟨elapsed, inverted, same⟩ := clock.advanceFlash_eq
  simp only [endFrame, same]

/-- Closing a frame leaves the budget alone. -/
theorem cyclesPerFrame_endFrame (clock : Clock τ) :
    clock.endFrame.2.cyclesPerFrame = clock.cyclesPerFrame := by
  obtain ⟨elapsed, inverted, same⟩ := clock.advanceFlash_eq
  simp only [endFrame, same]

/-- Closing a frame leaves its length alone. -/
theorem frameTime_endFrame (clock : Clock τ) :
    clock.endFrame.2.frameTime = clock.frameTime := by
  obtain ⟨elapsed, inverted, same⟩ := clock.advanceFlash_eq
  simp only [endFrame, same]

/-- Closing a frame leaves the length of a stall alone. -/
theorem maxFrameDelta_endFrame (clock : Clock τ) :
    clock.endFrame.2.maxFrameDelta = clock.maxFrameDelta := by
  obtain ⟨elapsed, inverted, same⟩ := clock.advanceFlash_eq
  simp only [endFrame, same]

/-- Closing a frame spends the host time of a frame. -/
theorem unspent_endFrame (clock : Clock τ) :
    clock.endFrame.2.unspent = clock.unspent - clock.frameTime := by
  obtain ⟨elapsed, inverted, same⟩ := clock.advanceFlash_eq
  simp only [endFrame, same]

omit [Scalar τ] in
/-- The cycles of a frame are spent once they reach the budget. -/
theorem budgetExhausted_iff {clock : Clock τ} :
    clock.budgetExhausted = true ↔ clock.cyclesPerFrame ≤ clock.cycleCount := decide_eq_true_iff

omit [Scalar τ] in
/-- Idling spends the budget. -/
theorem budgetExhausted_idleToFrameEnd (clock : Clock τ) :
    clock.idleToFrameEnd.budgetExhausted = true := by
  rw [budgetExhausted_iff]
  simp only [idleToFrameEnd, addCycles]
  omega

/-- Completed frames and carried cycles account for every cycle spent. -/
def Balanced (clock : Clock τ) : Prop :=
  (clock.totalCycles : Int) = clock.frameCount * clock.cyclesPerFrame + clock.cycleCount

/-- A new clock is balanced. -/
theorem balanced_ofConfig (config : Config τ) : (ofConfig config).Balanced := by
  simp [Balanced, ofConfig]

omit [Scalar τ] in
/-- Spending cycles keeps the balance. -/
theorem balanced_addCycles {clock : Clock τ} (balanced : clock.Balanced) (cycles : Nat) :
    (clock.addCycles cycles).Balanced := by
  simp only [Balanced, addCycles] at *
  omega

omit [Scalar τ] in
/-- Idling keeps the balance. -/
theorem balanced_idleToFrameEnd {clock : Clock τ} (balanced : clock.Balanced) :
    clock.idleToFrameEnd.Balanced := balanced_addCycles balanced _

/-- Closing a frame moves its budget from the carried cycles to the completed frames. -/
theorem balanced_endFrame {clock : Clock τ} (balanced : clock.Balanced) :
    clock.endFrame.2.Balanced := by
  rw [Balanced, totalCycles_endFrame, frameCount_endFrame, cyclesPerFrame_endFrame,
    cycleCount_endFrame, balanced, Int.natCast_add, Int.add_mul, Int.natCast_one]
  omega

end Clock

end Spectrum48
