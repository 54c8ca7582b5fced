import Spectrum48.Config.Basic

/-!
# Valid configurations

The conditions on a configuration, in the order in which they are checked, and the wording for the
first one that fails.
-/

namespace Spectrum48.Config

/-- Why a configuration describes no machine. -/
inductive Defect (τ : Type) where
  | cpuFrequency
  | frameTime
  | maxFrameDelta (delta frame : τ)
  | flashPeriod
  | initialBorder
  | sampleRate
  | bufferSize (size : Nat)
  | supersampleFactor
  | amplitude
  | maxBacklog

variable {τ : Type} [Scalar τ]

/-- The wording of a defect. -/
def Defect.message : Defect τ → String
  | .cpuFrequency => "cpu_frequency_khz must be positive"
  | .frameTime => "frame_time_ms must be positive"
  | .maxFrameDelta delta frame =>
    "max_frame_delta_ms (" ++ Scalar.text delta ++ ") must not be shorter than a frame ("
      ++ Scalar.text frame ++ ")"
  | .flashPeriod => "flash_period_ms must be positive"
  | .initialBorder => "initial_border must be a colour index 0-7"
  | .sampleRate => "sample_rate must be positive"
  | .bufferSize size => "buffer_size must be a power of two, got " ++ toString size
  | .supersampleFactor => "supersample_factor must be at least 1"
  | .amplitude => "amplitude must be in (0, 1]"
  | .maxBacklog => "max_backlog_ms must be positive"

/-- Whether a number is a power of two. -/
def isPowerOfTwo (n : Nat) : Bool := n != 0 && Nat.pow 2 n.log2 == n

/-- Whether a number of milliseconds is greater than zero. -/
def isPositive (x : τ) : Bool := Scalar.zero < x

/-- The conditions on a configuration, each with the defect of a configuration that fails it. -/
def conditions (config : Config τ) : List (Bool × Defect τ) :=
  [(0 < config.cpuFrequency, .cpuFrequency),
   (isPositive config.frameTime, .frameTime),
   (config.frameTime ≤ config.maxFrameDelta,
    .maxFrameDelta config.maxFrameDelta config.frameTime),
   (isPositive config.flashPeriod, .flashPeriod),
   (config.initialBorder < 8, .initialBorder),
   (0 < config.sampleRate, .sampleRate),
   (isPowerOfTwo config.bufferSize, .bufferSize config.bufferSize),
   (1 ≤ config.supersampleFactor, .supersampleFactor),
   (0 < config.amplitude && config.amplitude ≤ 1, .amplitude),
   (isPositive config.maxBacklog, .maxBacklog)]

/-- The defect for the first condition that fails. -/
def defect? (config : Config τ) : Option (Defect τ) :=
  (config.conditions.find? fun condition => !condition.1).map Prod.snd

/-- A configuration that meets all conditions. -/
def Valid (config : Config τ) : Prop := ∀ condition ∈ config.conditions, condition.1 = true

/-- There is no defect exactly if all conditions are met. -/
theorem defect?_eq_none_iff {config : Config τ} : config.defect? = none ↔ config.Valid := by
  simp [defect?, Valid, List.find?_eq_none]

/-- Validity is decided by checking the conditions. -/
instance (config : Config τ) : Decidable config.Valid := by
  unfold Valid
  infer_instance

/-- A valid processor has a frequency. -/
theorem Valid.cpuFrequency_pos {config : Config τ} (valid : config.Valid) :
    0 < config.cpuFrequency :=
  decide_eq_true_iff.1
    (valid (decide (0 < config.cpuFrequency), .cpuFrequency) (by simp [conditions]))

/-- A valid frame takes time. -/
theorem Valid.frameTime_pos {config : Config τ} (valid : config.Valid) :
    Scalar.zero < config.frameTime :=
  decide_eq_true_iff.1 (valid (isPositive config.frameTime, .frameTime) (by simp [conditions]))

/-- A valid frame is not taken for a stall. -/
theorem Valid.frameTime_le {config : Config τ} (valid : config.Valid) :
    config.frameTime ≤ config.maxFrameDelta :=
  decide_eq_true_iff.1
    (valid (decide (config.frameTime ≤ config.maxFrameDelta),
      .maxFrameDelta config.maxFrameDelta config.frameTime) (by simp [conditions]))

/-- A valid period of the flash phase takes time. -/
theorem Valid.flashPeriod_pos {config : Config τ} (valid : config.Valid) :
    Scalar.zero < config.flashPeriod :=
  decide_eq_true_iff.1 (valid (isPositive config.flashPeriod, .flashPeriod) (by simp [conditions]))

/-- A valid buffer has samples. -/
theorem Valid.bufferSize_pos {config : Config τ} (valid : config.Valid) :
    0 < config.bufferSize := by
  have power := valid (isPowerOfTwo config.bufferSize, .bufferSize config.bufferSize)
    (by simp [conditions])
  simp only [isPowerOfTwo, Bool.and_eq_true, bne_iff_ne] at power
  exact Nat.pos_of_ne_zero power.1

/-- A valid sample has points. -/
theorem Valid.supersampleFactor_pos {config : Config τ} (valid : config.Valid) :
    0 < config.supersampleFactor :=
  decide_eq_true_iff.1
    (valid (decide (1 ≤ config.supersampleFactor), .supersampleFactor) (by simp [conditions]))

end Spectrum48.Config
