import Mathlib.Data.List.Induction
import Spectrum48.Ula

/-!
# What the program sees of the keys

The host presses and releases keys, by host code or directly, and may release all keys at once.
What the program reads depends on this history alone: a key is down exactly if the last event that
concerned it was a press. Each event turns the bit of one key, or of all keys, and leaves every
other bit alone; a port then shows a key if it selects the key's half-row.
-/

namespace Spectrum48

namespace Key

/-- The mask of a key has the key's own bit and no other. -/
theorem getLsbD_mask (key : Key) (bit : Nat) :
    key.mask.toBitVec.getLsbD bit = decide (bit = key.column) := by
  by_cases inside : bit < 8
  · have all : ∀ column : Fin 5, ∀ bit < 8,
        ((1 : UInt8) <<< UInt8.ofNat column).toBitVec.getLsbD bit = decide (bit = column) := by
      decide
    exact all key.column bit inside
  · have column := key.column.isLt
    rw [BitVec.getLsbD_of_ge _ _ (by omega), decide_eq_false (by omega)]

/-- There is a key at every place of the matrix. -/
theorem exists_at (row : Fin 8) (column : Fin 5) :
    ∃ key : Key, key.row = row ∧ key.column = column := by
  have all : ∀ row : Fin 8, ∀ column : Fin 5,
      ∃ key ∈ Key.all, key.row = row ∧ key.column = column := by
    decide
  obtain ⟨key, -, place⟩ := all row column
  exact ⟨key, place⟩

end Key

namespace HalfRow

/-- Of the high lines that a half-row and a port have low together, there is at most the line of the
half-row. -/
theorem getLsbD_low_lines (row : Fin 8) (asked : UInt16) (line : Nat) :
    (~~~(port row ||| asked) &&& (0xFF00 : UInt16)).toBitVec.getLsbD line =
      (decide (line = 8 + row) && !asked.toBitVec.getLsbD line) := by
  have lines : ∀ row : Fin 8, ∀ line < 16,
      (!(port row).toBitVec.getLsbD line && (0xFF00 : UInt16).toBitVec.getLsbD line) =
        decide (line = 8 + row) := by
    decide
  by_cases inside : line < 16
  · rw [← lines row line inside]
    simp only [UInt16.toBitVec_and, UInt16.toBitVec_not, UInt16.toBitVec_or, BitVec.getLsbD_and,
      BitVec.getLsbD_not, BitVec.getLsbD_or, inside, decide_true, Bool.true_and, Bool.not_or]
    rw [Bool.and_right_comm]
  · rw [BitVec.getLsbD_of_ge _ _ (by omega), decide_eq_false (by omega), Bool.false_and]

/-- A port reads a half-row exactly if the address line of the half-row is low in it. -/
theorem answers_iff {row : Fin 8} {asked : UInt16} :
    answers row asked = true ↔ asked.toNat.testBit (8 + row) = false := by
  change _ ↔ asked.toBitVec.getLsbD (8 + row) = false
  rw [answers, bne_iff_ne]
  constructor
  · intro some_low
    cases own : asked.toBitVec.getLsbD (8 + row) with
    | false => rfl
    | true =>
      refine absurd ?_ some_low
      apply UInt16.eq_of_toBitVec_eq
      apply BitVec.eq_of_getLsbD_eq
      intro line _
      rw [getLsbD_low_lines]
      by_cases same : line = 8 + row
      · simp [same, own]
      · simp [same]
  · intro low none_low
    have own := getLsbD_low_lines row asked (8 + row)
    rw [none_low, low] at own
    simp at own

end HalfRow

namespace Keyboard

/-- What the host can do with the keys. -/
inductive Event where
  /-- Press or release the key of a host code. -/
  | code (code : UInt32) (down : Bool)
  /-- Press or release a key. -/
  | key (key : Key) (down : Bool)
  /-- Release all keys. -/
  | releaseAll
  deriving DecidableEq, Repr

/-- The keyboard after an event. -/
def handle (keyboard : Keyboard) : Event → Keyboard
  | .code code down => (keyboard.setCode code down).2
  | .key key down => keyboard.setKey key down
  | .releaseAll => keyboard.releaseAll

/-- The keyboard after events, one after the other. -/
def handleAll (keyboard : Keyboard) (history : List Event) : Keyboard :=
  history.foldl handle keyboard

/-- A host code stands for the key that its last entry names. -/
def StandsFor (mapping : List (UInt32 × Key)) (code : UInt32) (key : Key) : Prop :=
  ∃ earlier later, mapping = earlier ++ (code, key) :: later ∧ ∀ other, (code, other) ∉ later

/-- What an event makes of a key, if it concerns the key. -/
def Sets (mapping : List (UInt32 × Key)) : Event → Key → Bool → Prop
  | .code code down, key, state => StandsFor mapping code key ∧ down = state
  | .key named down, key, state => named = key ∧ down = state
  | .releaseAll, _, state => state = false

/-- The last event of a history that concerned a key was a press. -/
def LastPressed (mapping : List (UInt32 × Key)) (history : List Event) (key : Key) : Prop :=
  ∃ before event after, history = before ++ event :: after ∧ Sets mapping event key true ∧
    ∀ later ∈ after, ∀ down, ¬ Sets mapping later key down

/-! ### Host codes -/

/-- The key that is looked up for a host code is the one that the code stands for. -/
theorem keyOf?_eq_some_iff {keyboard : Keyboard} {code : UInt32} {key : Key} :
    keyboard.keyOf? code = some key ↔ StandsFor keyboard.mapping code key := by
  unfold keyOf? StandsFor
  rw [List.lookup_eq_some_iff]
  constructor
  · rintro ⟨later, earlier, whole, others⟩
    refine ⟨earlier.reverse, later.reverse, ?_, ?_⟩
    · rw [← List.reverse_reverse keyboard.mapping, whole]
      simp
    · intro other member
      have differs := others _ (List.mem_reverse.1 member)
      simp at differs
  · rintro ⟨earlier, later, whole, others⟩
    refine ⟨later.reverse, earlier.reverse, ?_, ?_⟩
    · rw [whole]
      simp
    · rintro ⟨code', other⟩ member
      rw [bne_iff_ne]
      rintro rfl
      exact others other (List.mem_reverse.1 member)

/-- A host code is known exactly if it has an entry. -/
theorem fst_setCode_iff {keyboard : Keyboard} {code : UInt32} {down : Bool} :
    (keyboard.setCode code down).1 = true ↔ ∃ key, (code, key) ∈ keyboard.mapping := by
  cases known : keyboard.keyOf? code with
  | some key =>
    rw [setCode_of_keyOf?_eq_some down known]
    obtain ⟨earlier, later, whole, -⟩ := keyOf?_eq_some_iff.1 known
    refine iff_of_true rfl ⟨key, ?_⟩
    rw [whole]
    simp
  | none =>
    rw [setCode_of_keyOf?_eq_none down known]
    refine iff_of_false Bool.false_ne_true ?_
    rintro ⟨key, member⟩
    have differs := List.lookup_eq_none_iff.1 known _ (List.mem_reverse.2 member)
    simp at differs

/-- A host code without an entry changes nothing. -/
theorem snd_setCode_of_unknown {keyboard : Keyboard} {code : UInt32} (down : Bool)
    (unknown : (keyboard.setCode code down).1 = false) :
    (keyboard.setCode code down).2 = keyboard := by
  cases known : keyboard.keyOf? code with
  | some key =>
    rw [setCode_of_keyOf?_eq_some down known] at unknown
    cases unknown
  | none => rw [setCode_of_keyOf?_eq_none down known]

/-- Events leave the host codes alone. -/
theorem mapping_handle (keyboard : Keyboard) (event : Event) :
    (keyboard.handle event).mapping = keyboard.mapping := by
  cases event with
  | code code down =>
    simp only [handle, setCode]
    split
    · exact mapping_setKey _ _ _
    · rfl
  | key key down => exact mapping_setKey _ _ _
  | releaseAll => rfl

/-- Histories leave the host codes alone. -/
theorem mapping_handleAll (keyboard : Keyboard) (history : List Event) :
    (keyboard.handleAll history).mapping = keyboard.mapping := by
  induction history generalizing keyboard with
  | nil => rfl
  | cons event rest ih => exact (ih _).trans (mapping_handle keyboard event)

/-! ### The bits of the half-rows -/

/-- Whether a bit of a half-row is high. -/
def high (keyboard : Keyboard) (row : Fin 8) (bit : Nat) : Bool :=
  (keyboard.rows.get row).toBitVec.getLsbD bit

/-- A mask turns the key's own bit of a register and no other. -/
theorem getLsbD_turned (key : Key) (down : Bool) (register : UInt8) {bit : Nat}
    (inside : bit < 8) :
    (if down then register &&& ~~~key.mask else register ||| key.mask).toBitVec.getLsbD bit =
      if bit = key.column then !down else register.toBitVec.getLsbD bit := by
  cases down with
  | false =>
    simp only [Bool.false_eq_true, if_false, UInt8.toBitVec_or, BitVec.getLsbD_or,
      Key.getLsbD_mask]
    by_cases own : bit = key.column <;> simp [own]
  | true =>
    simp only [if_true, UInt8.toBitVec_and, UInt8.toBitVec_not, BitVec.getLsbD_and,
      BitVec.getLsbD_not, Key.getLsbD_mask, inside, decide_true, Bool.true_and]
    by_cases own : bit = key.column <;> simp [own]

/-- Pressing or releasing a key turns its own bit and no other. -/
theorem high_setKey (keyboard : Keyboard) (key : Key) (down : Bool) (row : Fin 8) {bit : Nat}
    (inside : bit < 8) :
    (keyboard.setKey key down).high row bit =
      if row = key.row ∧ bit = key.column then !down else keyboard.high row bit := by
  change (keyboard.setKey key down).rows[row].toBitVec.getLsbD bit =
    if row = key.row ∧ bit = key.column then !down else keyboard.rows[row].toBitVec.getLsbD bit
  by_cases own : row = key.row
  · subst own
    simp only [setKey, Fin.getElem_fin, Vector.getElem_set_self, true_and]
    exact getLsbD_turned key down _ inside
  · have other : (key.row : Nat) ≠ row := fun same => own (Fin.ext same.symm)
    simp only [setKey, Fin.getElem_fin, Vector.getElem_set_ne _ _ other, own, false_and, if_false]

/-- The bit of a key is one of the eight of its row. -/
theorem column_lt (key : Key) : (key.column : Nat) < 8 :=
  Nat.lt_of_lt_of_le key.column.isLt (by decide)

/-- All bits of released half-rows are high. -/
theorem high_releaseAll (keyboard : Keyboard) (row : Fin 8) {bit : Nat} (inside : bit < 8) :
    keyboard.releaseAll.high row bit = true := by
  have all : ∀ bit < 8, (0xFF : UInt8).toBitVec.getLsbD bit = true := by decide
  change keyboard.releaseAll.rows[row].toBitVec.getLsbD bit = true
  simp only [releaseAll, released, Fin.getElem_fin, Vector.getElem_replicate]
  exact all bit inside

/-- Pressing or releasing one key is an event for no other key. -/
theorem high_setKey_own_or_other (keyboard : Keyboard) (key other : Key) (down : Bool) :
    (keyboard.setKey key down).high other.row other.column =
      if other = key then !down else keyboard.high other.row other.column := by
  have column := other.column.isLt
  rw [high_setKey keyboard key down other.row (by omega)]
  congr 1
  rw [eq_iff_iff]
  constructor
  · rintro ⟨row, column⟩
    exact Key.eq_of_row_of_column row (Fin.ext column)
  · rintro rfl
    exact ⟨rfl, rfl⟩

/-- A key is down after an event that presses it, and after one that does not concern it if it was
down before. -/
theorem high_handle (keyboard : Keyboard) (event : Event) (key : Key) :
    (keyboard.handle event).high key.row key.column = false ↔
      Sets keyboard.mapping event key true ∨
        keyboard.high key.row key.column = false ∧
          ∀ state, ¬ Sets keyboard.mapping event key state := by
  cases event with
  | code code down =>
    simp only [handle, Sets, ← keyOf?_eq_some_iff]
    cases known : keyboard.keyOf? code with
    | none =>
      rw [setCode_of_keyOf?_eq_none down known]
      simp
    | some named =>
      rw [setCode_of_keyOf?_eq_some down known, high_setKey_own_or_other]
      by_cases own : key = named
      · cases down <;> simp [own]
      · simp [own, Ne.symm own]
  | key named down =>
    simp only [handle, Sets]
    rw [high_setKey_own_or_other]
    by_cases own : key = named
    · cases down <;> simp [own]
    · simp [own, Ne.symm own]
  | releaseAll =>
    have released := high_releaseAll keyboard key.row (column_lt key)
    simp [handle, Sets, released]

/-- Bits that belong to no key stay high. -/
theorem high_handle_of_no_column {keyboard : Keyboard} {row : Fin 8} {bit : Nat}
    (beyond : 5 ≤ bit) (inside : bit < 8) (start : keyboard.high row bit = true) (event : Event) :
    (keyboard.handle event).high row bit = true := by
  have apart : ∀ key : Key, bit ≠ key.column := by
    intro key
    have column := key.column.isLt
    omega
  cases event with
  | code code down =>
    simp only [handle]
    cases known : keyboard.keyOf? code with
    | none => rwa [setCode_of_keyOf?_eq_none down known]
    | some key =>
      rw [setCode_of_keyOf?_eq_some down known, high_setKey _ _ _ _ inside,
        if_neg fun both => apart key both.2]
      exact start
  | key key down =>
    simp only [handle]
    rw [high_setKey _ _ _ _ inside, if_neg fun both => apart key both.2]
    exact start
  | releaseAll => exact high_releaseAll keyboard row inside

/-! ### Histories -/

/-- The last event that concerned a key is the newest one or an older one. -/
theorem lastPressed_append {mapping : List (UInt32 × Key)} {history : List Event} {event : Event}
    {key : Key} :
    LastPressed mapping (history ++ [event]) key ↔
      Sets mapping event key true ∨
        LastPressed mapping history key ∧ ∀ state, ¬ Sets mapping event key state := by
  constructor
  · rintro ⟨before, press, after, whole, pressed, last⟩
    cases after using List.reverseRecOn with
    | nil =>
      obtain ⟨-, same⟩ := List.append_inj' whole rfl
      cases same
      exact .inl pressed
    | append_singleton after newest =>
      rw [← List.cons_append, ← List.append_assoc] at whole
      obtain ⟨older, same⟩ := List.append_inj' whole rfl
      cases same
      refine .inr ⟨⟨before, press, after, older, pressed, ?_⟩, ?_⟩
      · intro later member
        exact last later (List.mem_append_left _ member)
      · exact last event (List.mem_append_right _ (List.mem_singleton_self event))
  · rintro (pressed | ⟨⟨before, press, after, whole, pressed, last⟩, apart⟩)
    · exact ⟨history, event, [], rfl, pressed, List.forall_mem_nil _⟩
    · refine ⟨before, press, after ++ [event], ?_, pressed, ?_⟩
      · rw [whole, List.append_assoc, List.cons_append]
      · intro later member
        rcases List.mem_append.1 member with member | member
        · exact last later member
        · cases List.mem_singleton.1 member
          exact apart

/-- No key was pressed before the first event. -/
theorem not_lastPressed_nil {mapping : List (UInt32 × Key)} {key : Key} :
    ¬ LastPressed mapping [] key := by
  rintro ⟨before, press, after, whole, -⟩
  simp at whole

/-- A key is down exactly if the last event that concerned it was a press. -/
theorem high_handleAll (mapping : List (UInt32 × Key)) (history : List Event) (key : Key) :
    ((ofMapping mapping).handleAll history).high key.row key.column = false ↔
      LastPressed mapping history key := by
  induction history using List.reverseRecOn with
  | nil =>
    have released := high_releaseAll (ofMapping mapping) key.row (column_lt key)
    refine iff_of_false ?_ not_lastPressed_nil
    rw [Bool.not_eq_false]
    exact released
  | append_singleton history event ih =>
    have step := high_handle ((ofMapping mapping).handleAll history) event key
    rw [mapping_handleAll, ih] at step
    rw [lastPressed_append, handleAll, List.foldl_append]
    exact step

/-- Bits that belong to no key are always high. -/
theorem high_handleAll_of_no_column (mapping : List (UInt32 × Key)) (history : List Event)
    (row : Fin 8) {bit : Nat} (beyond : 5 ≤ bit) (inside : bit < 8) :
    ((ofMapping mapping).handleAll history).high row bit = true := by
  induction history using List.reverseRecOn with
  | nil => exact high_releaseAll (ofMapping mapping) row inside
  | append_singleton history event ih =>
    rw [handleAll, List.foldl_append]
    exact high_handle_of_no_column beyond inside ih event

/-! ### Ports -/

/-- A bit that a port reads is high exactly if it is high in all half-rows that answer. -/
theorem getLsbD_query (keyboard : Keyboard) (port : UInt16) {bit : Nat} (inside : bit < 8) :
    (keyboard.query port).toBitVec.getLsbD bit = true ↔
      ∀ row, HalfRow.answers row port = true → keyboard.high row bit = true := by
  have fold : ∀ (rows : List (Fin 8)) (answer : UInt8),
      (rows.foldl (fun answer row =>
        if HalfRow.answers row port then answer &&& keyboard.rows[row] else answer)
        answer).toBitVec.getLsbD bit = true ↔
      answer.toBitVec.getLsbD bit = true ∧
        ∀ row ∈ rows, HalfRow.answers row port = true → keyboard.high row bit = true := by
    intro rows
    induction rows with
    | nil => simp
    | cons row rest ih =>
      intro answer
      rw [List.foldl_cons, ih, List.forall_mem_cons, ← and_assoc]
      refine and_congr_left' ?_
      split
      · next asked =>
        have same : keyboard.high row bit = keyboard.rows[row].toBitVec.getLsbD bit := rfl
        simp [asked, same]
      · next silent => simp [silent]
  have full : ∀ bit < 8, (0xFF : UInt8).toBitVec.getLsbD bit = true := by decide
  rw [query, fold]
  simp only [full bit inside, true_and, List.mem_finRange, true_implies]

/-- A bit that a port reads is low exactly if it is low in some half-row that answers. -/
theorem getLsbD_query_eq_false_iff {keyboard : Keyboard} {port : UInt16} {bit : Nat}
    (inside : bit < 8) :
    (keyboard.query port).toBitVec.getLsbD bit = false ↔
      ∃ row, HalfRow.answers row port = true ∧ keyboard.high row bit = false := by
  rw [← Bool.not_eq_true, getLsbD_query keyboard port inside]
  push Not
  simp only [ne_eq, Bool.not_eq_true]

end Keyboard

namespace Ula

open Keyboard (Event LastPressed)

variable {τ : Type}

/-- An odd port reads zero. -/
theorem read_of_odd {ula : Ula τ} {port : UInt16} (odd : port.toNat % 2 = 1) :
    ula.read port = 0 := by
  have silent : ¬ answersOn port = true := by
    rw [answersOn, beq_iff_eq, ← UInt16.toNat_inj, UInt16.toNat_and]
    change ¬ port.toNat &&& 1 = 0
    rw [Nat.and_one_is_mod, odd]
    decide
  exact if_neg silent

/-- An even port reads the keyboard. -/
theorem read_of_even {ula : Ula τ} {port : UInt16} (even : port.toNat % 2 = 0) :
    ula.read port = ula.keyboard.query port := by
  have answers : answersOn port = true := by
    rw [answersOn, beq_iff_eq, ← UInt16.toNat_inj, UInt16.toNat_and]
    change port.toNat &&& 1 = 0
    rw [Nat.and_one_is_mod, even]
  exact if_pos answers

/-- After every history of key events an odd port reads zero. An even port reads the three highest
bits high, and each other bit low exactly if it belongs to a key whose half-row the port selects and
whose last event was a press. A host code is known exactly if the mapping has an entry for it, and
an unknown one changes nothing. -/
theorem read_after_events (ula : Ula τ) (mapping : List (UInt32 × Key)) (history : List Event)
    (port : UInt16) :
    let keyboard := (Keyboard.ofMapping mapping).handleAll history
    let answer := ({ ula with keyboard := keyboard } : Ula τ).read port
    (port.toNat % 2 = 1 → answer = 0) ∧
    (port.toNat % 2 = 0 →
      (∀ bit, 5 ≤ bit → bit < 8 → answer.toNat.testBit bit = true) ∧
      ∀ bit : Fin 5, answer.toNat.testBit bit = false ↔
        ∃ key : Key, key.column = bit ∧ port.toNat.testBit (8 + key.row) = false ∧
          LastPressed mapping history key) ∧
    ∀ code down,
      ((keyboard.setCode code down).1 = true ↔ ∃ key, (code, key) ∈ mapping) ∧
      ((∀ key, (code, key) ∉ mapping) → (keyboard.setCode code down).2 = keyboard) := by
  intro keyboard answer
  have table : keyboard.mapping = mapping := Keyboard.mapping_handleAll _ history
  refine ⟨read_of_odd, ?_, ?_⟩
  · intro even
    have asked : answer = keyboard.query port := read_of_even even
    rw [asked]
    constructor
    · intro bit beyond inside
      refine (keyboard.getLsbD_query port inside).2 fun row _ => ?_
      exact Keyboard.high_handleAll_of_no_column mapping history row beyond inside
    · intro bit
      have column := bit.isLt
      refine (Keyboard.getLsbD_query_eq_false_iff (by omega)).trans ?_
      constructor
      · rintro ⟨row, selected, low⟩
        obtain ⟨key, rfl, rfl⟩ := Key.exists_at row bit
        exact ⟨key, rfl, HalfRow.answers_iff.1 selected,
          (Keyboard.high_handleAll mapping history key).1 low⟩
      · rintro ⟨key, rfl, selected, pressed⟩
        exact ⟨key.row, HalfRow.answers_iff.2 selected,
          (Keyboard.high_handleAll mapping history key).2 pressed⟩
  · intro code down
    rw [Keyboard.fst_setCode_iff, table]
    refine ⟨Iff.rfl, fun unknown => Keyboard.snd_setCode_of_unknown down ?_⟩
    rw [← Bool.not_eq_true, Keyboard.fst_setCode_iff, table]
    rintro ⟨key, member⟩
    exact unknown key member

/-- Two host codes for one key; the first of them stood for another key before. -/
def sharedMapping : List (UInt32 × Key) := [(1, .z), (1, .a), (2, .a)]

/-- A key is pressed by one of its host codes and released by the other, while a second key is held
down: a port that selects the half-rows of both shows the second one. -/
theorem read_after_events_of_sharedMapping :
    let keyboard := (Keyboard.ofMapping sharedMapping).handleAll
      [.code 1 true, .key .z true, .code 2 false]
    let answer := ({ Ula.ofBeeper (.ofConfig (Config.standard : Config Float)) 7 with
      keyboard := keyboard } : Ula Float).read 0xFCFE
    answer.toNat.testBit 1 = false ∧ answer.toNat.testBit 7 = true ∧
      (keyboard.setCode 2 true).1 = true ∧ (keyboard.setCode 3 true).2 = keyboard := by
  intro keyboard answer
  obtain ⟨-, even, codes⟩ := read_after_events
    (Ula.ofBeeper (.ofConfig (Config.standard : Config Float)) 7) sharedMapping
    [.code 1 true, .key .z true, .code 2 false] 0xFCFE
  obtain ⟨high, low⟩ := even rfl
  have apart : ¬ Keyboard.StandsFor sharedMapping 2 .z := by
    intro named
    have looked : (Keyboard.ofMapping sharedMapping).keyOf? 2 = some .z :=
      Keyboard.keyOf?_eq_some_iff.2 named
    exact absurd looked (by decide)
  have pressed : LastPressed sharedMapping [.code 1 true, .key .z true, .code 2 false] .z := by
    refine ⟨[.code 1 true], .key .z true, [.code 2 false], rfl, ⟨rfl, rfl⟩, ?_⟩
    intro later member state sets
    cases List.mem_singleton.1 member
    exact apart sets.1
  refine ⟨(low 1).2 ⟨.z, rfl, rfl, pressed⟩, high 7 (by decide) (by decide),
    (codes 2 true).1.2 ⟨.a, by decide⟩, (codes 3 true).2 fun key member => ?_⟩
  simp [sharedMapping] at member

end Ula

end Spectrum48
