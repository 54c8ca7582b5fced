import Spectrum48.Config.Basic
import Spectrum48.Json.Number

/-!
# Fields of a configuration

The names of the parameters in their order, and how a number is stored in each of them. Integer
parameters take natural numbers of their size only; the others take any number.
-/

namespace Spectrum48.Config

/-- A parameter of a configuration. -/
inductive Field where
  | cpuFrequency
  | frameTime
  | maxFrameDelta
  | flashPeriod
  | contentionPenalty
  | xBorder
  | yBorder
  | initialBorder
  | sampleRate
  | bufferSize
  | supersampleFactor
  | amplitude
  | resyncAfter
  | maxBacklog
  deriving DecidableEq, Repr

namespace Field

/-- The parameters in order. -/
def all : List Field :=
  [cpuFrequency, frameTime, maxFrameDelta, flashPeriod, contentionPenalty, xBorder, yBorder,
   initialBorder, sampleRate, bufferSize, supersampleFactor, amplitude, resyncAfter, maxBacklog]

/-- The name of a parameter in a text. -/
def name : Field → String
  | cpuFrequency => "cpu_frequency_khz"
  | frameTime => "frame_time_ms"
  | maxFrameDelta => "max_frame_delta_ms"
  | flashPeriod => "flash_period_ms"
  | contentionPenalty => "contention_penalty"
  | xBorder => "x_border"
  | yBorder => "y_border"
  | initialBorder => "initial_border"
  | sampleRate => "sample_rate"
  | bufferSize => "buffer_size"
  | supersampleFactor => "supersample_factor"
  | amplitude => "amplitude"
  | resyncAfter => "resync_after_secs"
  | maxBacklog => "max_backlog_ms"

/-- The parameter with a given name. -/
def ofName? (text : String) : Option Field := all.find? fun field => field.name == text

/-- Every parameter stands in the list. -/
theorem mem_all (field : Field) : field ∈ all := by cases field <;> decide

/-- A parameter is known by its name. -/
theorem ofName?_name (field : Field) : ofName? field.name = some field := by
  cases field <;> decide

end Field

/-- A natural number below `2 ^ bits`. -/
def naturalOf? (bits : Nat) : Json.Number → Option Nat
  | .natural value => if value < Nat.pow 2 bits then some value else none
  | _ => none

/-- A number as a double. -/
def doubleOf : Json.Number → Float
  | .natural value => Float.ofNat value
  | .negative magnitude => -Float.ofNat magnitude
  | .double value => value

/-- A number as a single; integers are rounded once. -/
def singleOf : Json.Number → Float32
  | .natural value => Float32.ofNat value
  | .negative magnitude => -Float32.ofNat magnitude
  | .double value => Numeric.toSingle value

/-- A configuration with one parameter replaced; nothing when the number does not fit. -/
def set? (config : Config Float) (field : Field) (number : Json.Number) : Option (Config Float) :=
  match field with
  | .cpuFrequency => (naturalOf? 32 number).map fun n => { config with cpuFrequency := n }
  | .frameTime => some { config with frameTime := doubleOf number }
  | .maxFrameDelta => some { config with maxFrameDelta := doubleOf number }
  | .flashPeriod => some { config with flashPeriod := doubleOf number }
  | .contentionPenalty => (naturalOf? 32 number).map fun n => { config with contentionPenalty := n }
  | .xBorder => (naturalOf? 64 number).map fun n => { config with xBorder := n }
  | .yBorder => (naturalOf? 64 number).map fun n => { config with yBorder := n }
  | .initialBorder =>
    (naturalOf? 8 number).map fun n => { config with initialBorder := UInt8.ofNat n }
  | .sampleRate => (naturalOf? 32 number).map fun n => { config with sampleRate := n }
  | .bufferSize => (naturalOf? 64 number).map fun n => { config with bufferSize := n }
  | .supersampleFactor => (naturalOf? 64 number).map fun n => { config with supersampleFactor := n }
  | .amplitude => some { config with amplitude := singleOf number }
  | .resyncAfter => some { config with resyncAfter := doubleOf number }
  | .maxBacklog => some { config with maxBacklog := doubleOf number }

end Spectrum48.Config
