import Spectrum48.Numeric.Scalar

/-!
# Configuration

The timing, picture and sound parameters of a machine, their usual values, and what follows from
them: the cycle budget of a frame, the size of the picture, the rate of the speaker's timeline.
-/

namespace Spectrum48

/-- The parameters of a machine; milliseconds and seconds are reckoned in `τ`. -/
structure Config (τ : Type) where
  /-- Processor clock in kilohertz, which is cycles per millisecond. -/
  cpuFrequency : Nat
  /-- Milliseconds of one frame. -/
  frameTime : τ
  /-- Host time beyond this many milliseconds at once is a stall and counts as one frame. -/
  maxFrameDelta : τ
  /-- Milliseconds between two changes of the flash phase. -/
  flashPeriod : τ
  /-- Extra cycles for one access to contended memory. -/
  contentionPenalty : Nat
  /-- Border pixels left and right of the screen. -/
  xBorder : Nat
  /-- Border pixels above and below the screen. -/
  yBorder : Nat
  /-- Border colour before the program chooses one. -/
  initialBorder : UInt8
  /-- Sound samples per second. -/
  sampleRate : Nat
  /-- Samples in one buffer of the host. -/
  bufferSize : Nat
  /-- Points of the speaker's timeline per sample. -/
  supersampleFactor : Nat
  /-- Sample value of a high speaker. -/
  amplitude : Float32
  /-- Seconds of silent buffers after which the playback position is found anew. -/
  resyncAfter : τ
  /-- Milliseconds of speaker transitions that are kept. -/
  maxBacklog : τ

namespace Config

variable {τ : Type} [Scalar τ]

/-- The parameters of the real machine. -/
def standard : Config τ where
  cpuFrequency := 3500
  frameTime := Scalar.ofNat 20
  maxFrameDelta := Scalar.ofNat 500
  flashPeriod := Scalar.ofNat 320
  contentionPenalty := 8000
  xBorder := 32
  yBorder := 24
  initialBorder := 7
  sampleRate := 44100
  bufferSize := 2048
  supersampleFactor := 4
  amplitude := 0.125
  resyncAfter := Scalar.ofNat 1 / Scalar.ofNat 5
  maxBacklog := Scalar.ofNat 1000

/-- Processor cycles in one frame. -/
def cyclesPerFrame (config : Config τ) : Int :=
  Scalar.nearest (Scalar.ofNat config.cpuFrequency * config.frameTime)

/-- Pixels of the screen in a line, without border. -/
def screenWidth : Nat := 256

/-- Lines of the screen, without border. -/
def screenHeight : Nat := 192

/-- Pixels in a line of the picture. -/
def frameWidth (config : Config τ) : Nat := screenWidth + 2 * config.xBorder

/-- Lines of the picture. -/
def frameHeight (config : Config τ) : Nat := screenHeight + 2 * config.yBorder

/-- How many silent buffers may pass before the playback position is found anew. -/
def resyncThreshold (config : Config τ) : Nat :=
  Scalar.whole
    (config.resyncAfter * Scalar.ofNat config.sampleRate / Scalar.ofNat config.bufferSize)

/-- Points of the speaker's timeline in a millisecond. -/
def supersamplesPerMs (config : Config τ) : τ :=
  Scalar.ofNat config.supersampleFactor * Scalar.ofNat config.sampleRate / Scalar.ofNat 1000

/-- Points of the speaker's timeline that the queued transitions may span; at least one. -/
def backlogSpan (config : Config τ) : Int :=
  max (Scalar.nearest (config.maxBacklog * config.supersamplesPerMs)) 1

end Config

end Spectrum48
