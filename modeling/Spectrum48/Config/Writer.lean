import Spectrum48.Config.Field
import Spectrum48.Decimal.Notation

/-!
# Configurations as text

A configuration is written as one object without blanks, its parameters in order. Numbers have the
fewest digits that read back.
-/

namespace Spectrum48.Config

open Decimal

/-- Doubles from `1e-5` up to, but excluding, `1e+16` are written positionally, any other ones with
an exponent that shows its sign. Whole numbers keep a zero after the point, and what is not finite
is null. -/
def doubleNotation : Notation where
  tie := .even
  positional point := -5 < point && point ≤ 16
  wholeTail := ".0"
  plusSign := "+"
  notANumber := "null"
  infinity := "null"
  negativeInfinity := "null"

/-- Singles are written like doubles, with narrower bounds for positional numbers. -/
def singleNotation : Notation :=
  { doubleNotation with positional := fun point => -6 < point && point ≤ 13 }

/-- The value of a parameter as text. -/
def valueText (config : Config Float) : Field → String
  | .cpuFrequency => toString config.cpuFrequency
  | .frameTime => doubleNotation.double config.frameTime
  | .maxFrameDelta => doubleNotation.double config.maxFrameDelta
  | .flashPeriod => doubleNotation.double config.flashPeriod
  | .contentionPenalty => toString config.contentionPenalty
  | .xBorder => toString config.xBorder
  | .yBorder => toString config.yBorder
  | .initialBorder => toString config.initialBorder.toNat
  | .sampleRate => toString config.sampleRate
  | .bufferSize => toString config.bufferSize
  | .supersampleFactor => toString config.supersampleFactor
  | .amplitude => singleNotation.single config.amplitude
  | .resyncAfter => doubleNotation.double config.resyncAfter
  | .maxBacklog => doubleNotation.double config.maxBacklog

/-- A configuration as text. -/
def text (config : Config Float) : String :=
  let members := Field.all.map fun field => "\"" ++ field.name ++ "\":" ++ config.valueText field
  "\x7b" ++ String.intercalate "," members ++ "\x7d"

end Spectrum48.Config
