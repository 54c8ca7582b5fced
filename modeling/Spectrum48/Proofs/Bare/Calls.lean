import Spectrum48.Proofs.Bare.Machine
import Spectrum48.Proofs.Machine.Forward

/-!
# Calls in any order

A machine, its bus, its beeper and its picture can be called in any order and with any arguments: a
firmware image, a snapshot or a screen of any size, a block at any address, a dump of any range, a
buffer for any number of samples. In bare buffers every such run passes all its checks, unless it
never returns, and gives the answers that it gives without them.
-/

namespace Spectrum48

/-- What a machine and its parts can be called for. -/
inductive Call (τ : Type) where
  /-- Carry out an operation of the machine. -/
  | operate (operation : Machine.Operation τ)
  /-- Dump a range of memory. -/
  | dump (first last : UInt16)
  /-- Start an instruction on the bus at an emulated time. -/
  | beginInstruction (now : τ)
  /-- Take the extra cycles charged so far. -/
  | takeContention
  /-- Access memory or a port through the bus. -/
  | access (request : BusAccess)
  /-- Tell emulated time within the instruction. -/
  | busTime
  /-- Tell emulated time on the clock. -/
  | clockTime
  /-- Copy a firmware image of any size to memory. -/
  | copyRom (image : Array UInt8)
  /-- Take the bytes of the screen. -/
  | screen
  /-- Press or release one key. -/
  | setKey (key : Key) (down : Bool)
  /-- Release all keys. -/
  | releaseAll
  /-- Tell the port of a key. -/
  | keyPort (key : Key)
  /-- Read the half-rows that a port selects. -/
  | query (port : UInt16)
  /-- Tell the beeper of a toggle at an instant. -/
  | notify (time : τ)
  /-- Put sound samples into a buffer of any size. -/
  | renderInto (samples : Array Float32)
  /-- Draw a screen of any size. -/
  | draw (screen : Array UInt8) (border : UInt8) (inverted : Bool)
  /-- Read a snapshot of any size. -/
  | readSnapshot (data : Array UInt8)
  /-- Dump a range of a buffer of any size. -/
  | dumpOf (bytes : Array UInt8) (first last : UInt16)

/-- What a call gives. -/
inductive Answer (τ : Type) where
  /-- The reply to an operation. -/
  | reply (reply : Machine.Reply)
  /-- A text. -/
  | text (text : String)
  /-- A number of cycles. -/
  | cycles (count : Nat)
  /-- A byte. -/
  | byte (value : UInt8)
  /-- Bytes. -/
  | bytes (values : Array UInt8)
  /-- An instant. -/
  | time (time : τ)
  /-- A port. -/
  | port (port : UInt16)
  /-- A snapshot. -/
  | snapshot (snapshot : Snapshot)

variable {τ σ : Type}

/-! ### Answers -/

namespace Machine

/-- The machine with another keyboard. -/
def withKeyboard (machine : Machine τ σ) (keyboard : Keyboard) : Machine τ σ :=
  machine.withBus { machine.bus with ula := { machine.bus.ula with keyboard := keyboard } }

variable [Scalar τ] [Processor σ]

/-- Answer a call. -/
def answer (machine : Machine τ σ) : Call τ → Option (Answer τ × Machine τ σ)
  | .operate operation =>
    (machine.perform operation).map fun (reply, machine) => (.reply reply, machine)
  | .dump first last => some (.text (machine.memoryDump first last), machine)
  | .beginInstruction now =>
    some (.reply .done, machine.withBus (machine.bus.beginInstruction now))
  | .takeContention =>
    some (.cycles machine.bus.takeContention.1, machine.withBus machine.bus.takeContention.2)
  | .access request =>
    some (.byte (machine.bus.perform request).1, machine.withBus (machine.bus.perform request).2)
  | .busTime => some (.time machine.bus.now, machine)
  | .clockTime => some (.time machine.clock.now, machine)
  | .copyRom image =>
    some (.reply .done,
      machine.withBus { machine.bus with memory := machine.bus.memory.loadRom image })
  | .screen => some (.bytes machine.bus.memory.screen, machine)
  | .setKey key down =>
    some (.reply .done, machine.withKeyboard (machine.bus.ula.keyboard.setKey key down))
  | .releaseAll => some (.reply .done, machine.withKeyboard machine.bus.ula.keyboard.releaseAll)
  | .keyPort key => some (.port key.port, machine)
  | .query port => some (.byte (machine.bus.ula.keyboard.query port), machine)
  | .notify time => some (.reply .done, machine.withBeeper (machine.bus.ula.beeper.notify time))
  | .renderInto samples =>
    (machine.render samples.size).map fun (reply, machine) => (.reply reply, machine)
  | .draw screen border inverted =>
    some (.reply (.ofUnit (machine.draw screen border inverted).1),
      (machine.draw screen border inverted).2)
  | .readSnapshot data => some (.snapshot (.ofBytes data), machine)
  | .dumpOf bytes first last => some (.text (HexDump.text bytes first last), machine)

/-- Answer calls one after the other. -/
def answerAll (machine : Machine τ σ) : List (Call τ) → Option (List (Answer τ) × Machine τ σ)
  | [] => some ([], machine)
  | call :: rest =>
    match machine.answer call with
    | none => none
    | some (answer, machine) =>
      (machine.answerAll rest).map fun (answers, machine) => (answer :: answers, machine)

end Machine

namespace Bare.Machine

variable [Scalar τ] [Processor σ]

/-- Answer a call, with every access to a buffer checked. -/
def answer (machine : Machine τ σ) : Call τ → Checked (Answer τ × Machine τ σ)
  | .operate operation => do
    let (reply, machine) ← machine.perform operation
    pure (.reply reply, machine)
  | .dump first last => do
    let text ← dump machine.bus.memory.bytes first last
    pure (.text text, machine)
  | .beginInstruction now =>
    pure (.reply .done, { machine with bus := machine.bus.beginInstruction now })
  | .takeContention =>
    let (count, bus) := machine.bus.takeContention
    pure (.cycles count, { machine with bus := bus })
  | .access request => do
    let (value, bus) ← machine.bus.perform request
    pure (.byte value, { machine with bus := bus })
  | .busTime => do
    let now ← machine.bus.now
    pure (.time now, machine)
  | .clockTime => do
    let now ← machine.now
    pure (.time now, machine)
  | .copyRom image => do
    let memory ← machine.bus.memory.loadRom image
    pure (.reply .done, machine.withMemory memory)
  | .screen => do
    let screen ← machine.bus.memory.screen
    pure (.bytes screen, machine)
  | .setKey key down => do
    let keyboard ← machine.bus.ula.keyboard.setKey key down
    pure (.reply .done, machine.withKeyboard keyboard)
  | .releaseAll =>
    pure (.reply .done, machine.withKeyboard machine.bus.ula.keyboard.releaseAll)
  | .keyPort key => do
    let port ← keyPort key
    pure (.port port, machine)
  | .query port => pure (.byte (machine.bus.ula.keyboard.query port), machine)
  | .notify time =>
    pure (.reply .done, machine.withBeeper (machine.bus.ula.beeper.notify time))
  | .renderInto samples => do
    let (samples, machine) ← machine.render samples
    pure (.reply (.samples samples), machine)
  | .draw screen border inverted => do
    let (result, machine) ← machine.draw screen border inverted
    pure (.reply (.ofUnit result), machine)
  | .readSnapshot data => do
    let snapshot ← readSnapshot data
    pure (.snapshot snapshot, machine)
  | .dumpOf bytes first last => do
    let text ← dump bytes first last
    pure (.text text, machine)

/-- Answer calls one after the other. -/
def answerAll (machine : Machine τ σ) : List (Call τ) → Checked (List (Answer τ) × Machine τ σ)
  | [] => pure ([], machine)
  | call :: rest => do
    let (answer, machine) ← machine.answer call
    let (answers, machine) ← machine.answerAll rest
    pure (answer :: answers, machine)

/-- Build a machine and answer calls. -/
def run (config : Config τ) (cpu : σ) (calls : List (Call τ)) :
    Checked (Except Fault (List (Answer τ) × Machine τ σ)) := do
  match ← build config cpu with
  | .ok machine => do
    let result ← machine.answerAll calls
    pure (.ok result)
  | .error fault => pure (.error fault)

end Bare.Machine

/-! ### Checks -/

namespace Machine

variable [Scalar τ]

/-- The checks of a machine with a configuration pass, and it is not in the course of loading
firmware. -/
structure Ready (config : Config τ) (machine : Machine τ σ) : Prop where
  /-- Checks pass. -/
  equipped : machine.Equipped
  /-- The machine is not in the course of loading firmware. -/
  settled : machine.Settled
  /-- The machine has the configuration. -/
  config : machine.config = config

variable {config : Config τ}

/-- Another bus that reckons instants with the same leaves a machine ready. -/
theorem Ready.withBus {machine : Machine τ σ} (ready : machine.Ready config) {bus : Bus τ}
    (cycles : bus.cyclesPerMs = machine.bus.cyclesPerMs)
    (settings : bus.ula.beeper.settings = machine.bus.ula.beeper.settings) :
    (machine.withBus bus).Ready config := by
  have timebase : (machine.withBus bus).timebase = machine.timebase := by
    unfold Machine.timebase beeper
    rw [clock_withBus]
    change Timebase.mk _ _ _ bus.cyclesPerMs bus.ula.beeper.settings = _
    rw [cycles, settings]
  exact ⟨ready.equipped.of_timebase timebase ready.equipped.measured, ready.settled, ready.config⟩

variable [Processor σ]

/-- An operation leaves a machine ready. -/
theorem Ready.perform {machine after : Machine τ σ} (ready : machine.Ready config)
    {operation : Operation τ} {reply : Reply}
    (performed : machine.perform operation = some (reply, after)) : after.Ready config where
  equipped := ready.equipped.perform ready.settled.between performed
  settled := ready.settled.perform performed
  config := (shown_perform ready.settled.between performed).config.trans ready.config

/-- A call leaves a machine ready. -/
theorem Ready.answer {machine after : Machine τ σ} (ready : machine.Ready config) {call : Call τ}
    {answer : Answer τ} (answered : machine.answer call = some (answer, after)) :
    after.Ready config := by
  cases call with
  | operate operation =>
    obtain ⟨⟨reply, next⟩, performed, same⟩ := Option.map_eq_some_iff.1 answered
    cases same
    exact ready.perform performed
  | renderInto samples =>
    obtain ⟨⟨reply, next⟩, rendered, same⟩ := Option.map_eq_some_iff.1 answered
    cases same
    have performed : machine.perform (.render samples.size) = some (reply, after) := rendered
    exact ready.perform performed
  | access request =>
    cases answered
    apply ready.withBus (machine.bus.later_perform request).cyclesPerMs
    rw [machine.bus.beeper_perform, Beeper.settings_foldl_notify]
  | notify time =>
    cases answered
    exact ready.withBus rfl (Beeper.settings_toggleAt _ _)
  | draw screen border inverted =>
    cases answered
    refine ⟨ready.equipped.draw screen border inverted, ?_, ?_⟩
    · unfold Settled
      rw [draw, state_showDrawn]
      exact ready.settled
    · rw [draw, config_showDrawn, ready.config]
  | beginInstruction | takeContention | copyRom | setKey | releaseAll =>
    cases answered
    exact ready.withBus rfl rfl
  | dump | busTime | clockTime | screen | keyPort | query | readSnapshot | dumpOf =>
    cases answered
    exact ready

/-- Every call passes its checks and is answered alike, or it never returns. -/
theorem answer_bare {machine : Machine τ σ} (equipped : machine.Equipped) (call : Call τ) :
    machine.bare.answer call =
      Checked.ofOption ((machine.answer call).map fun (answer, machine) =>
        (answer, machine.bare)) := by
  cases call with
  | operate operation =>
    rw [Bare.Machine.answer, perform_bare equipped, answer]
    cases machine.perform operation <;> rfl
  | dump first last =>
    rw [Bare.Machine.answer, Bare.dump_eq, pure_bind]
    rfl
  | beginInstruction now => rfl
  | takeContention => rfl
  | access request =>
    have performed : machine.bare.bus.perform request =
        pure ((machine.bus.perform request).1, (machine.bus.perform request).2.bare) :=
      Bus.perform_bare equipped.bus request
    rw [Bare.Machine.answer, performed, pure_bind]
    rfl
  | busTime =>
    have now : machine.bare.bus.now = pure machine.bus.now := Bus.now_bare equipped.bus
    rw [Bare.Machine.answer, now, pure_bind]
    rfl
  | clockTime =>
    rw [Bare.Machine.answer, now_bare equipped, pure_bind]
    rfl
  | copyRom image =>
    rw [Bare.Machine.answer, memory_bare, Memory.loadRom_bare, pure_bind, withMemory_bare]
    rfl
  | screen =>
    rw [Bare.Machine.answer, memory_bare, Memory.screen_bare, pure_bind]
    rfl
  | setKey key down =>
    rw [Bare.Machine.answer, keyboard_bare, Keyboard.setKey_bare, pure_bind]
    rfl
  | releaseAll =>
    rw [Bare.Machine.answer, keyboard_bare, Keyboard.releaseAll_bare]
    rfl
  | keyPort key =>
    rw [Bare.Machine.answer, Bare.keyPort_eq, pure_bind]
    rfl
  | query port =>
    rw [Bare.Machine.answer, keyboard_bare, Keyboard.query_bare]
    rfl
  | notify time => rfl
  | renderInto samples =>
    rw [Bare.Machine.answer, render_bare equipped, answer, render_eq equipped.points]
    cases (machine.bus.ula.beeper.render samples.size).heard? <;> rfl
  | draw screen border inverted =>
    rw [Bare.Machine.answer, draw_bare equipped.measured, pure_bind]
    rfl
  | readSnapshot data =>
    rw [Bare.Machine.answer, Bare.readSnapshot_eq, pure_bind]
    rfl
  | dumpOf bytes first last =>
    rw [Bare.Machine.answer, Bare.dump_eq, pure_bind]
    rfl

/-- Calls in any order pass their checks and are answered alike, or they never return. -/
theorem answerAll_bare {machine : Machine τ σ} (ready : machine.Ready config)
    (calls : List (Call τ)) :
    machine.bare.answerAll calls =
      Checked.ofOption ((machine.answerAll calls).map fun (answers, machine) =>
        (answers, machine.bare)) := by
  induction calls generalizing machine with
  | nil => rfl
  | cons call rest ih =>
    rw [Bare.Machine.answerAll, answer_bare ready.equipped, answerAll]
    cases answered : machine.answer call with
    | none => rfl
    | some result =>
      obtain ⟨answer, next⟩ := result
      rw [Option.map_some, Checked.ofOption_some, pure_bind]
      dsimp only
      rw [ih (ready.answer answered)]
      cases next.answerAll rest <;> rfl

/-- Calls in any order leave a machine ready. -/
theorem Ready.answerAll {machine after : Machine τ σ} (ready : machine.Ready config)
    {calls : List (Call τ)} {answers : List (Answer τ)}
    (answered : machine.answerAll calls = some (answers, after)) : after.Ready config := by
  induction calls generalizing machine answers with
  | nil =>
    cases answered
    exact ready
  | cons call rest ih =>
    rw [Machine.answerAll] at answered
    split at answered
    · cases answered
    · next first =>
      obtain ⟨⟨more, last⟩, done, same⟩ := Option.map_eq_some_iff.1 answered
      cases same
      exact ih (ready.answer first) done

omit [Processor σ] in
/-- A machine is built in bare buffers as it is otherwise. -/
theorem build_bare (thousand : Checked.IsDivisor (Scalar.ofNat 1000 : τ))
    (buffer : Checked.IsDivisor (Scalar.ofNat config.bufferSize : τ)) (cpu : σ) :
    Bare.Machine.build config cpu = pure ((build config cpu).map bare) := by
  have white : (Video.Picture.plain config.frameWidth config.frameHeight .white).bytes =
      Array.replicate (config.frameWidth * config.frameHeight * 4) 255 := by
    rw [← Array.toList_inj, Video.Picture.bytes_plain_white, Array.toList_replicate, Nat.mul_comm]
  unfold Bare.Machine.build build
  cases config.defect? with
  | some defect => rfl
  | none =>
    dsimp only
    rw [Bare.settings_eq thousand buffer, pure_bind, ← white, ← Memory.bare_blank,
      ← Ula.bare_ofBeeper]
    rfl

omit [Processor σ] in
/-- A new machine is ready if a millisecond has cycles and a sample has points. -/
theorem ready_new
    (cycles : Checked.IsDivisor (Scalar.ofNat config.cpuFrequency : τ))
    (points : config.supersampleFactor ≠ 0) (cpu : σ) : (new config cpu).Ready config :=
  ⟨⟨cycles, cycles, points, rfl, rfl⟩, .inl rfl, rfl⟩

end Machine

/-- A double can be divided by the double of any other natural number of 64 bits than zero. -/
theorem Checked.isDivisor_ofNat {n : Nat} (positive : 0 < n) (short : n < 2 ^ 64) :
    IsDivisor (Scalar.ofNat n : Float) := by
  have one : (1 : ℚ) ≤ Numeric.rounded n := by
    have least : Numeric.rounded (1 : ℕ) = (1 : ℕ) := Numeric.rounded_natCast (by norm_num)
    rw [Nat.cast_one] at least
    rw [← least]
    exact Numeric.rounded_mono zero_le_one (Nat.one_le_cast.2 positive)
  obtain ⟨significand, exponent, nonzero, parts, -⟩ :=
    Numeric.parts_of_value_pos (Numeric.value?_ofNat short) (zero_lt_one.trans_le one)
  rintro ⟨below, -⟩
  rw [Numeric.le_iff, parts, Numeric.parts_zero] at below
  cases below

namespace Machine

variable [Processor σ]

omit [Processor σ] in
/-- From a valid configuration whose sizes have as many bits as their parameters, a machine is built
in bare buffers. -/
theorem build_bare_eq_new {config : Config Float} (valid : config.Valid)
    (buffer : config.bufferSize < 2 ^ 64) (cpu : σ) :
    Bare.Machine.build config cpu = pure (.ok (new config cpu).bare) := by
  have thousand : Checked.IsDivisor (Scalar.ofNat 1000 : Float) :=
    Checked.isDivisor_ofNat (by norm_num) (by norm_num)
  have samples := Checked.isDivisor_ofNat valid.bufferSize_pos buffer
  rw [build_bare thousand samples, build_eq_new valid cpu]
  rfl

omit [Processor σ] in
/-- The picture of a new machine has the configured size. -/
theorem size_bare_new (config : Config Float) (cpu : σ) :
    (new config cpu).bare.picture.size = 4 * (config.frameWidth * config.frameHeight) :=
  (new config cpu).picture.size_bytes

/-- Built from a valid configuration whose sizes have as many bits as their parameters, a machine in
bare buffers answers calls in any order and with any arguments as the machine does: no entry is
taken and no range is cut or copied outside of a buffer, no block is copied to a range of another
length, no buffer is cut into chunks of no length, and nothing is divided by zero. Its picture keeps
its size, and over a buffer of that size every screen of the right size is drawn without a row
missing. Then the brush stands on the line behind the screen, which lies in the buffer if there is a
border below or none at the sides. Otherwise the brush has left the buffer by the border at one
side, where it paints nothing. -/
theorem checks_pass_of_calls {config : Config Float} (valid : config.Valid) (fits : config.Fits)
    (buffer : config.bufferSize < 2 ^ 64) (cpu : σ) (calls : List (Call Float)) :
    ∃ machine, build config cpu = .ok machine ∧
      Bare.Machine.run config cpu calls =
        Checked.ofOption ((machine.answerAll calls).map fun (answers, after) =>
          .ok (answers, after.bare)) ∧
      (∀ panic, Bare.Machine.run config cpu calls ≠ throw panic) ∧
      (∀ answers after, machine.answerAll calls = some (answers, after) →
        after.bare.picture.size = 4 * (config.frameWidth * config.frameHeight)) ∧
      ∀ (screen : Array UInt8) (border : UInt8) (inverted : Bool) (buffer : Array UInt8),
        buffer.size = 4 * (config.frameWidth * config.frameHeight) →
        (screen.size ≠ Memory.screenSize →
          Video.Painter.paint config.xBorder config.yBorder screen border inverted buffer =
            pure (.error (.malformedScreen Memory.screenSize screen.size))) ∧
        (screen.size = Memory.screenSize →
          ∃ brush,
            Video.Painter.paint config.xBorder config.yBorder screen border inverted buffer =
              pure (.ok brush) ∧
            brush.missing = 0 ∧ brush.buffer.size = buffer.size ∧
            brush.offset = 4 * ((config.yBorder + 192) * config.frameWidth + config.xBorder) ∧
            (brush.offset ≤ buffer.size ↔ 0 < config.yBorder ∨ config.xBorder = 0) ∧
            (config.yBorder = 0 → brush.offset = buffer.size + 4 * config.xBorder)) := by
  have cycles := Checked.isDivisor_ofNat valid.cpuFrequency_pos
    (fits.cpuFrequency.trans (by norm_num))
  have ready := ready_new cycles valid.supersampleFactor_pos.ne' cpu
  have ran : Bare.Machine.run config cpu calls =
      Checked.ofOption (((new config cpu).answerAll calls).map
        fun (answers, after) => .ok (answers, after.bare)) := by
    rw [Bare.Machine.run, build_bare_eq_new valid buffer, pure_bind]
    dsimp only
    rw [answerAll_bare ready]
    cases (new config cpu).answerAll calls <;> rfl
  refine ⟨_, build_eq_new valid cpu, ran, ?_, ?_, ?_⟩
  · intro panic
    rw [ran]
    cases (new config cpu).answerAll calls with
    | none => exact fun same => nomatch same
    | some result => exact fun same => nomatch same
  · intro answers after answered
    have left := ready.answerAll answered
    change after.picture.bytes.size = _
    rw [after.picture.size_bytes, left.equipped.measured.1, left.equipped.measured.2, left.config]
  · intro screen border inverted buffer sized
    let edge : Video.Border := ⟨config.xBorder, config.yBorder, .ofBorder border⟩
    refine ⟨fun other => Video.Painter.paint_eq_error edge border rfl other inverted sized,
      fun full => ?_⟩
    obtain ⟨brush, painted, missing, size, offset⟩ :=
      Video.Painter.brush_of_paint edge border rfl full inverted sized
    refine ⟨brush, painted, missing, size, offset, ?_, fun flat => ?_⟩
    · rw [offset, sized]
      exact Video.Painter.offset_le_iff edge
    · rw [offset, sized]
      exact Video.Painter.offset_of_no_band edge flat

/-- Calls with too little and too much of everything. -/
def oddCalls : List (Call Float) :=
  [.copyRom #[0xF3, 0xAF], .operate (.loadRam 0xFFFE #[1, 2, 3, 4]), .renderInto #[],
    .operate (.render 3), .draw #[0x55] 9 true, .dump 0xFFFE 0xFFFF, .dumpOf #[1, 2, 3] 3 2,
    .access (.writeMemory 0x3FFF 1), .setKey .b true, .readSnapshot #[0x3F],
    .operate (.loadRom #[0xF3]), .operate .stepFrame]

/-- A machine answers calls with too little and too much of everything. Over its picture a screen is
drawn, and the brush comes to stand on the first line of the border below. -/
theorem checks_pass_of_calls_of_odd_sizes :
    contendedFrames.Valid ∧ contendedFrames.Fits ∧
      contendedFrames.bufferSize < 2 ^ 64 ∧
      ∃ answers after brush,
        Bare.Machine.run contendedFrames napping oddCalls =
          pure (.ok (answers, after)) ∧
        after.picture.size = 4 * (320 * 240) ∧
        Video.Painter.paint 32 24 (Array.replicate 6912 0x55) 9 true after.picture =
          pure (.ok brush) ∧
        brush.missing = 0 ∧ brush.offset = 4 * (216 * 320 + 32) ∧
        brush.offset ≤ after.picture.size := by
  have valid : contendedFrames.Valid := by decide +kernel
  have fits : contendedFrames.Fits := by constructor <;> decide
  have buffer : contendedFrames.bufferSize < 2 ^ 64 := by decide
  obtain ⟨machine, built, ran, -, sized, painted⟩ :=
    checks_pass_of_calls valid fits buffer napping oddCalls
  have returns : (machine.answerAll oddCalls).isSome = true := by
    rw [eq_new_of_build built]
    decide +kernel
  obtain ⟨⟨answers, after⟩, answered⟩ := Option.isSome_iff_exists.1 returns
  rw [answered] at ran
  have size := sized answers after answered
  obtain ⟨-, drawn⟩ := painted (Array.replicate 6912 0x55) 9 true after.bare.picture size
  obtain ⟨brush, ends, missing, -, offset, inside, -⟩ := drawn Array.size_replicate
  exact ⟨valid, fits, buffer, answers, after.bare, brush, ran, size, ends, missing, offset,
    inside.2 (.inl (by decide))⟩

/-- A picture with a border at its sides, but none above and below the screen. -/
def sideBorders : Config Float := { Config.standard with xBorder := 1, yBorder := 0 }

/-- Over such a picture the brush comes to stand one pixel behind the end of the buffer. -/
theorem brush_leaves_sideBorders :
    sideBorders.Valid ∧ sideBorders.Fits ∧ sideBorders.bufferSize < 2 ^ 64 ∧
      ∃ machine brush,
        Bare.Machine.build sideBorders napping = pure (.ok machine) ∧
        Video.Painter.paint machine.config.xBorder machine.config.yBorder
            (Array.replicate 6912 0) 0 false machine.picture =
          pure (.ok brush) ∧
        machine.picture.size = 198144 ∧ brush.buffer.size = 198144 ∧ brush.offset = 198148 ∧
        ¬ brush.offset ≤ brush.buffer.size := by
  have valid : sideBorders.Valid := by decide +kernel
  have fits : sideBorders.Fits := by constructor <;> decide
  have buffer : sideBorders.bufferSize < 2 ^ 64 := by decide
  have sized := size_bare_new sideBorders napping
  have full : (Array.replicate 6912 (0 : UInt8)).size = Memory.screenSize := Array.size_replicate
  obtain ⟨brush, painted, -, size, offset⟩ :=
    Video.Painter.brush_of_paint ⟨sideBorders.xBorder, sideBorders.yBorder, .ofBorder 0⟩ 0 rfl full
      false sized
  have pixels : 4 * (sideBorders.frameWidth * sideBorders.frameHeight) = 198144 := by decide
  rw [sized, pixels] at size
  refine ⟨valid, fits, buffer, _, brush, build_bare_eq_new valid buffer napping, painted,
    sized.trans pixels, size, offset, ?_⟩
  rw [offset, size]
  decide

end Machine

end Spectrum48
