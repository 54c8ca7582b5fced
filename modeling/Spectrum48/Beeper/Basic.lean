import Spectrum48.Beeper.Queue
import Spectrum48.Beeper.Sample
import Spectrum48.Config.Basic

/-!
# The beeper

The speaker has one bit. The program toggles it at instants of emulated time, which are rounded to
points of a timeline and queued. The host asks for samples at a pace of its own; a cursor then
walks along the timeline, and the level flips at each queued point that it reaches.

Two toggles at the same point cancel. Points that fall too far behind the newest one count as
played. When the host is known to have lost its place, because points were dropped or the speaker
was silent for long, the next request finds a new place, one and a half requests before the newest
point.
-/

namespace Spectrum48

/-- The unchanging properties of a beeper. -/
structure Beeper.Settings (τ : Type) where
  /-- Points of the timeline in a millisecond. -/
  supersamplesPerMs : τ
  /-- Points of the timeline in a sample. -/
  factor : Nat
  /-- The value of a high level. -/
  amplitude : Float32
  /-- Silent requests after which the place is lost. -/
  resyncThreshold : Nat
  /-- Points of the timeline that the queue may span. -/
  backlogSpan : Int

/-- The state of a beeper. -/
structure Beeper (τ : Type) where
  /-- Its unchanging properties. -/
  settings : Beeper.Settings τ
  /-- Points at which the level flips, oldest first. -/
  pending : Beeper.Queue
  /-- The level at the cursor. -/
  high : Bool
  /-- The point of the timeline that is played next. -/
  cursor : Int
  /-- Whether the next request with queued points finds a new place. -/
  mustSync : Bool
  /-- Silent requests since the last one that was not silent. -/
  silentBuffers : Nat

namespace Beeper

variable {τ : Type} [Scalar τ]

/-- The properties of the beeper of a configuration. -/
def Settings.ofConfig (config : Config τ) : Settings τ where
  supersamplesPerMs := config.supersamplesPerMs
  factor := config.supersampleFactor
  amplitude := config.amplitude
  resyncThreshold := config.resyncThreshold
  backlogSpan := config.backlogSpan

/-- A beeper with nothing queued, which has yet to find its place. -/
def ofConfig (config : Config τ) : Beeper τ where
  settings := Settings.ofConfig config
  pending := .empty
  high := false
  cursor := 0
  mustSync := true
  silentBuffers := 0

/-- The point of the timeline nearest to an instant. -/
def Settings.pointAt (settings : Settings τ) (time : τ) : Int :=
  Scalar.nearest (time * settings.supersamplesPerMs)

/-- The level after a number of flips. -/
def flipped (high : Bool) (flips : Nat) : Bool := high ^^ (flips % 2 == 1)

/-- Toggle the speaker at a point of the timeline. -/
def toggleAt (beeper : Beeper τ) (point : Int) : Beeper τ :=
  if beeper.pending.newest? = some point then
    { beeper with pending := beeper.pending.dropNewest }
  else
    let oldest := point - beeper.settings.backlogSpan
    let (dropped, kept) := (beeper.pending.push point).dropOldest (oldest - 1)
    { beeper with
      pending := kept
      high := flipped beeper.high dropped
      mustSync := beeper.mustSync || dropped != 0 }

/-- Toggle the speaker at an instant of emulated time. -/
def notify (beeper : Beeper τ) (time : τ) : Beeper τ :=
  beeper.toggleAt (beeper.settings.pointAt time)

/-- Where the cursor meets the end of the timeline with nothing queued, it never gets away. -/
def timelineEnd : Int := Numeric.greatestInt64

/-- Play the queued points up to the cursor; nothing when the cursor cannot get away. -/
def catchUp (beeper : Beeper τ) : Option (Beeper τ) :=
  let (played, left) := beeper.pending.dropOldest beeper.cursor
  if left.isEmpty && timelineEnd ≤ beeper.cursor then none
  else some { beeper with pending := left, high := flipped beeper.high played }

/-- Move the cursor by one point. -/
def advance (beeper : Beeper τ) : Beeper τ := { beeper with cursor := beeper.cursor + 1 }

/-- Play a number of points and add their levels to those heard before. -/
def play : (points : Nat) → Beeper τ → (heard : Array Bool) → Option (Array Bool × Beeper τ)
  | 0, beeper, heard => some (heard, beeper)
  | points + 1, beeper, heard =>
    match beeper.catchUp with
    | none => none
    | some beeper => play points beeper.advance (heard.push beeper.high)

/-- Find a new place if the old one is lost. -/
def resync (beeper : Beeper τ) (points : Nat) : Beeper τ :=
  if beeper.mustSync then
    match beeper.pending.newest? with
    | some newest => { beeper with mustSync := false, cursor := newest - (3 * points / 2 : Nat) }
    | none => { beeper with mustSync := false }
  else beeper

/-- Count a silent request; the place is lost when there were too many. -/
def countSilence (beeper : Beeper τ) : Beeper τ :=
  let silent := beeper.silentBuffers + 1
  if beeper.settings.resyncThreshold < silent then
    { beeper with silentBuffers := 0, mustSync := true }
  else { beeper with silentBuffers := silent }

/-- How a request for samples ends. -/
inductive Playback (τ : Type) where
  /-- The samples and the beeper after them. -/
  | heard (samples : Array Float32) (after : Beeper τ)
  /-- There are points to play, but a sample covers none of the timeline. -/
  | unmixable (after : Beeper τ)
  /-- The cursor cannot get away from the end of the timeline. -/
  | endless

/-- Answer a request for samples while points are queued. -/
def renderQueued (beeper : Beeper τ) (count : Nat) : Playback τ :=
  let settings := beeper.settings
  let points := count * settings.factor
  let beeper := { beeper with silentBuffers := 0 }.resync points
  if settings.factor = 0 then .unmixable beeper
  else
    match play points beeper (Array.emptyWithCapacity points) with
    | none => .endless
    | some (levels, after) =>
      .heard (mix settings.amplitude settings.factor count levels) after

/-- Answer a request for samples. While nothing is queued the level stays as it is. -/
def render (beeper : Beeper τ) (count : Nat) : Playback τ :=
  if beeper.pending.isEmpty then
    .heard (Array.replicate count (level beeper.settings.amplitude beeper.high))
      beeper.countSilence
  else beeper.renderQueued count

end Beeper

end Spectrum48
