/-!
# Sound samples

The value of a sample is the mean of the speaker's levels over the points of the timeline that the
sample covers. It is computed in any numbers with the operations of `Sample`, so that the samples
that are played can be compared with exact fractions.
-/

namespace Spectrum48.Beeper

/-- The numbers in which samples are reckoned. -/
class Sample (α : Type) extends Add α, Neg α, Div α where
  /-- The number that stands for a natural number. -/
  ofNat : Nat → α

/-- Samples as singles. -/
instance : Sample Float32 where
  ofNat := Float32.ofNat

/-- Samples as exact fractions. -/
instance : Sample Rat where
  ofNat n := n

variable {α : Type} [Sample α]

/-- The value of the speaker's level. -/
def level (amplitude : α) (high : Bool) : α := if high then amplitude else -amplitude

/-- The mean of levels, added from the first to the last. The sum starts from the negative of
zero, which changes no floating-point number that is added to it. -/
def mean (amplitude : α) (levels : List Bool) : α :=
  levels.foldl (fun sum high => sum + level amplitude high) (-Sample.ofNat 0)
    / Sample.ofNat levels.length

/-- The first `count` samples of a timeline, each the mean of `factor` levels. -/
def mix (amplitude : α) (factor count : Nat) (levels : Array Bool) : Array α :=
  Array.ofFn fun index : Fin count =>
    mean amplitude (levels.extract (index * factor) (index * factor + factor)).toList

/-- Mixing gives the samples asked for. -/
theorem size_mix (amplitude : α) (factor count : Nat) (levels : Array Bool) :
    (mix amplitude factor count levels).size = count := by
  simp [mix]

end Spectrum48.Beeper
