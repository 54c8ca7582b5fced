import Spectrum48.HexDump
import Spectrum48.Machine.Basic

/-!
# Operating a machine

What the host can do with a machine, as data, so that histories of a machine are lists. Every
operation gives a reply and the machine after it, unless it never returns.
-/

namespace Spectrum48.Machine

/-- Build a machine and load its firmware, if it is given one. -/
def assemble {τ σ : Type} [Scalar τ] [Processor σ] (config : Config τ) (rom : Option (Array UInt8))
    (cpu : σ) : Except Fault (Machine τ σ) := do
  let machine ← build config cpu
  match rom with
  | none => return machine
  | some image =>
    match machine.loadRom image with
    | (.ok (), machine) => return machine
    | (.error fault, _) => .error fault

/-- What the host can do with a machine. -/
inductive Operation (τ : Type) where
  /-- Load firmware. -/
  | loadRom (image : Array UInt8)
  /-- Load a snapshot. -/
  | loadSnapshot (data : Array UInt8)
  /-- Let host time pass. -/
  | tick (delta : τ)
  /-- Let host time pass up to a timestamp. -/
  | tickAt (timestamp : τ)
  /-- Run one frame, whatever the stage of the machine. -/
  | stepFrame
  /-- Pause the machine. -/
  | pause
  /-- Resume the machine. -/
  | resume
  /-- Reset the processor. -/
  | reset
  /-- Press or release the key of a host code. -/
  | key (code : UInt32) (down : Bool)
  /-- Write a byte of memory as a program would. -/
  | poke (address : UInt16) (value : UInt8)
  /-- Copy a block to memory. -/
  | loadRam (start : UInt16) (block : Array UInt8)
  /-- Ask for sound samples. -/
  | render (count : Nat)
  /-- Attach a sound device that starts or does not. -/
  | attachAudio (started : Except Fault Unit)

/-- What the host gets back. -/
inductive Reply where
  /-- The operation was carried out. -/
  | done
  /-- The operation was refused. -/
  | refused (fault : Fault)
  /-- The frames that were run. -/
  | frames (count : Nat)
  /-- Whether the key is known, the byte could be written, or the sound device started. -/
  | flag (value : Bool)
  /-- Sound samples. -/
  | samples (values : Array Float32)
  /-- Samples that cannot be mixed. -/
  | unmixable

/-- The reply to an operation that gives nothing back. -/
def Reply.ofUnit : Except Fault Unit → Reply
  | .ok () => .done
  | .error fault => .refused fault

/-- The reply to an operation that runs frames. -/
def Reply.ofFrames : Except Fault Nat → Reply
  | .ok count => .frames count
  | .error fault => .refused fault

variable {τ σ : Type} [Scalar τ]

/-- The machine with another beeper. -/
def withBeeper (machine : Machine τ σ) (beeper : Beeper τ) : Machine τ σ :=
  machine.withBus { machine.bus with ula := { machine.bus.ula with beeper := beeper } }

/-- Ask for sound samples. -/
def render (machine : Machine τ σ) (count : Nat) : Option (Reply × Machine τ σ) :=
  match machine.bus.ula.beeper.render count with
  | .heard samples after => some (.samples samples, machine.withBeeper after)
  | .unmixable after => some (.unmixable, machine.withBeeper after)
  | .endless => none

/-- Write a byte of memory as a program would, and whether it could be written. -/
def poke (machine : Machine τ σ) (address : UInt16) (value : UInt8) : Bool × Machine τ σ :=
  (Memory.isWritable address,
   machine.withBus { machine.bus with memory := machine.bus.memory.write address value })

/-- Copy a block to memory. -/
def loadRam (machine : Machine τ σ) (start : UInt16) (block : Array UInt8) : Machine τ σ :=
  machine.withBus { machine.bus with memory := machine.bus.memory.loadRam start block }

/-- Attach a sound device, and whether it started. Without it the machine runs on in silence. -/
def attachAudio (machine : Machine τ σ) (started : Except Fault Unit) : Bool × Machine τ σ :=
  match started with
  | .ok () => (true, machine)
  | .error _ => (false, machine)

/-- A dump of memory. -/
def memoryDump (machine : Machine τ σ) (first last : UInt16) : String :=
  HexDump.text machine.bus.memory.bytes.toArray first last

variable [Processor σ]

/-- Carry out an operation. -/
def perform (machine : Machine τ σ) : Operation τ → Option (Reply × Machine τ σ)
  | .loadRom image =>
    let (result, machine) := machine.loadRom image
    some (.ofUnit result, machine)
  | .loadSnapshot data =>
    let (result, machine) := machine.loadSnapshot data
    some (.ofUnit result, machine)
  | .tick delta => (machine.tick delta).map fun (result, machine) => (.ofFrames result, machine)
  | .tickAt timestamp =>
    (machine.tickAt timestamp).map fun (result, machine) => (.ofFrames result, machine)
  | .stepFrame => machine.stepFrame.map fun machine => (.done, machine)
  | .pause =>
    let (result, machine) := machine.pause
    some (.ofUnit result, machine)
  | .resume =>
    let (result, machine) := machine.resume
    some (.ofUnit result, machine)
  | .reset => some (.done, machine.reset)
  | .key code down =>
    let (known, machine) := machine.setCode code down
    some (.flag known, machine)
  | .poke address value =>
    let (written, machine) := machine.poke address value
    some (.flag written, machine)
  | .loadRam start block => some (.done, machine.loadRam start block)
  | .render count => machine.render count
  | .attachAudio started =>
    let (attached, machine) := machine.attachAudio started
    some (.flag attached, machine)

/-- Carry out operations one after the other, with their replies. -/
def performAll (machine : Machine τ σ) : List (Operation τ) → Option (List Reply × Machine τ σ)
  | [] => some ([], machine)
  | operation :: rest =>
    match machine.perform operation with
    | none => none
    | some (reply, machine) =>
      match machine.performAll rest with
      | none => none
      | some (replies, machine) => some (reply :: replies, machine)

/-- No operations leave the machine alone. -/
theorem performAll_nil (machine : Machine τ σ) : machine.performAll [] = some ([], machine) := rfl

/-- Operations succeed if the first one does and the other ones do after it. -/
theorem performAll_cons_eq_some {machine after : Machine τ σ} {operation : Operation τ}
    {rest : List (Operation τ)} {replies : List Reply} :
    machine.performAll (operation :: rest) = some (replies, after) ↔
      ∃ reply middle more, machine.perform operation = some (reply, middle) ∧
        middle.performAll rest = some (more, after) ∧ replies = reply :: more := by
  rw [performAll]
  constructor
  · intro returned
    cases performed : machine.perform operation with
    | none =>
      rw [performed] at returned
      cases returned
    | some result =>
      obtain ⟨reply, middle⟩ := result
      simp only [performed] at returned
      cases done : middle.performAll rest with
      | none =>
        rw [done] at returned
        cases returned
      | some result =>
        obtain ⟨more, final⟩ := result
        rw [done] at returned
        cases returned
        exact ⟨reply, middle, more, rfl, done, rfl⟩
  · rintro ⟨reply, middle, more, performed, done, rfl⟩
    simp only [performed, done]

/-- A history can be cut anywhere. -/
theorem performAll_append (machine : Machine τ σ) (first second : List (Operation τ)) :
    machine.performAll (first ++ second) =
      (machine.performAll first).bind fun (replies, middle) =>
        (middle.performAll second).map fun (more, after) => (replies ++ more, after) := by
  induction first generalizing machine with
  | nil => simp [performAll]
  | cons operation rest ih =>
    simp only [List.cons_append, performAll]
    cases performed : machine.perform operation with
    | none => rfl
    | some result =>
      obtain ⟨reply, middle⟩ := result
      simp only [ih]
      cases done : middle.performAll rest with
      | none => rfl
      | some result =>
        obtain ⟨replies, after⟩ := result
        simp only [Option.bind_some]
        cases after.performAll second <;> rfl

end Spectrum48.Machine
