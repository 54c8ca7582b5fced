/-!
# Faults

What can go wrong when the machine is built or operated, by cause, and the wording of each.
-/

namespace Spectrum48

/-- The stages of a machine's life. -/
inductive RunState where
  /-- No firmware has been loaded. -/
  | uninitialized
  /-- Firmware is being loaded. -/
  | loading
  /-- Frames are run as host time passes. -/
  | running
  /-- Host time is ignored. -/
  | paused
  deriving DecidableEq, Repr

/-- The name of a stage. -/
def RunState.name : RunState → String
  | .uninitialized => "Uninitialized"
  | .loading => "Loading"
  | .running => "Running"
  | .paused => "Paused"

/-- The stage with a given name. -/
def RunState.ofName? (text : String) : Option RunState :=
  [uninitialized, loading, running, paused].find? fun state => state.name == text

/-- Operations that need firmware. -/
inductive GuardedOperation where
  | loadSnapshot
  | tick
  | pause
  | resume
  deriving DecidableEq, Repr

/-- An operation as its refusal names it. -/
def GuardedOperation.description : GuardedOperation → String
  | .loadSnapshot => "load a snapshot"
  | .tick => "tick"
  | .pause => "pause"
  | .resume => "resume"

/-- A refusal, by cause. -/
inductive Fault where
  /-- A snapshot of another size than a snapshot has. -/
  | malformedSnapshot (expected actual : Nat)
  /-- Screen memory of another size than the screen has. -/
  | malformedScreen (expected actual : Nat)
  /-- A firmware image of another size than the read-only memory. -/
  | romSize (expected actual : Nat)
  /-- A configuration that does not describe a machine. -/
  | invalidConfig (reason : String)
  /-- A sound device that does not start. -/
  | audioUnavailable (reason : String)
  /-- An operation that the stage of the machine does not allow. -/
  | invalidState (operation : GuardedOperation) (state : RunState)
  deriving DecidableEq, Repr

/-- The wording of a size mismatch. -/
private def sizeMismatch (subject : String) (expected actual : Nat) : String :=
  subject ++ ": expected " ++ toString expected ++ " bytes, got " ++ toString actual

/-- The wording of a fault. -/
def Fault.message : Fault → String
  | .malformedSnapshot expected actual => sizeMismatch "Malformed snapshot" expected actual
  | .malformedScreen expected actual => sizeMismatch "Malformed screen buffer" expected actual
  | .romSize expected actual => sizeMismatch "ROM load failure" expected actual
  | .invalidConfig reason => "Invalid configuration: " ++ reason
  | .audioUnavailable reason => "Audio device unavailable: " ++ reason
  | .invalidState operation state =>
    "Cannot " ++ operation.description ++ " while the machine is " ++ state.name

end Spectrum48
