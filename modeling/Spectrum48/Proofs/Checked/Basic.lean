import Spectrum48.Numeric.Scalar

/-!
# Checked steps on buffers

A buffer that knows nothing of its size can be asked for an entry that it does not have, for a
range beyond its end, or to take in a block of another length. Code on such buffers is written
here with steps that check what they are asked, and stop where that makes no sense. Such code may
stop, and it may never return; what is to be shown of it is that it does what it is meant to do.
-/

namespace Spectrum48

/-- Why a step on buffers makes no sense. -/
inductive Panic where
  /-- There is no entry at an index. -/
  | index (index size : Nat)
  /-- A range ends before it starts, or beyond the end of the buffer. -/
  | range (start stop size : Nat)
  /-- A block is copied to a range of another length. -/
  | lengths (target source : Nat)
  /-- A buffer is cut into chunks of no length. -/
  | chunks
  /-- A number is divided by zero. -/
  | division
  deriving DecidableEq, Repr

/-- Checked code with a result: `none` if it never returns. -/
abbrev Checked (α : Type) := ExceptT Panic Option α

namespace Checked

variable {α : Type}

/-- Code that never returns if there is no result. -/
def ofOption (result : Option α) : Checked α := ExceptT.mk (result.map .ok)

/-- The entry at an index. -/
def entry (buffer : Array α) (index : Nat) : Checked α :=
  match buffer[index]? with
  | some value => pure value
  | none => throw (.index index buffer.size)

/-- Replace the entry at an index. -/
def setEntry (buffer : Array α) (index : Nat) (value : α) : Checked (Array α) :=
  if inside : index < buffer.size then pure (buffer.set index value)
  else throw (.index index buffer.size)

/-- The entries of a range. -/
def slice (buffer : Array α) (start stop : Nat) : Checked (Array α) :=
  if start ≤ stop ∧ stop ≤ buffer.size then pure (buffer.extract start stop)
  else throw (.range start stop buffer.size)

/-- Copy a block to a range. -/
def copy (buffer : Array α) (start stop : Nat) (block : Array α) : Checked (Array α) := do
  let target ← slice buffer start stop
  if target.size = block.size then
    pure (buffer.extract 0 start ++ block ++ buffer.extract stop buffer.size)
  else throw (.lengths target.size block.size)

/-- The chunks of a length; entries that do not fill a last chunk make one if `rest` says so, and
are left out otherwise. -/
def chunks (length : Nat) (rest : Bool) (buffer : Array α) : Checked (List (Array α)) :=
  if length = 0 then throw .chunks
  else
    let count := (buffer.size + if rest then length - 1 else 0) / length
    pure ((List.range count).map fun index =>
      buffer.extract (index * length) (index * length + length))

/-- A quotient of numbers of time. -/
def quotient {τ : Type} [Scalar τ] (x y : τ) : Checked τ :=
  if y ≤ Scalar.zero ∧ Scalar.zero ≤ y then throw .division else pure (x / y)

/-- A number of time that is not zero. -/
def IsDivisor {τ : Type} [Scalar τ] (x : τ) : Prop := ¬ (x ≤ Scalar.zero ∧ Scalar.zero ≤ x)

/-- A result that is there is returned. -/
theorem ofOption_some (result : α) : ofOption (some result) = pure result := rfl

/-- There is an entry at an index within the buffer. -/
theorem entry_eq {buffer : Array α} {index : Nat} {value : α}
    (found : buffer[index]? = some value) : entry buffer index = pure value := by
  simp [entry, found]

/-- An entry within the buffer can be replaced. -/
theorem setEntry_eq {buffer : Array α} {index : Nat} (inside : index < buffer.size) (value : α) :
    setEntry buffer index value = pure (buffer.set index value) := by
  simp [setEntry, inside]

/-- A range within the buffer has entries. -/
theorem slice_eq {buffer : Array α} {start stop : Nat} (ordered : start ≤ stop)
    (inside : stop ≤ buffer.size) : slice buffer start stop = pure (buffer.extract start stop) := by
  simp [slice, ordered, inside]

/-- A block is copied to a range of its length. -/
theorem copy_eq {buffer block : Array α} {start stop : Nat} (length : start + block.size = stop)
    (inside : stop ≤ buffer.size) :
    copy buffer start stop block =
      pure (buffer.extract 0 start ++ block ++ buffer.extract stop buffer.size) := by
  have sized : (buffer.extract start stop).size = block.size := by
    rw [Array.size_extract]
    omega
  rw [copy, slice_eq (by omega) inside, pure_bind, if_pos sized]

/-- A block takes the place of another one of its length. -/
theorem copy_append {before old block after : Array α} (length : block.size = old.size) :
    copy (before ++ old ++ after) before.size (before.size + block.size) block =
      pure (before ++ block ++ after) := by
  rw [copy_eq rfl (by simp only [Array.size_append]; omega)]
  congr 3
  · simp
  · simp [length]

/-- The entries of a buffer to which a block was copied. -/
theorem getElem?_copied {buffer block : Array α} {start stop : Nat}
    (length : start + block.size = stop) (inside : stop ≤ buffer.size) (index : Nat) :
    (buffer.extract 0 start ++ block ++ buffer.extract stop buffer.size)[index]? =
      if start ≤ index ∧ index < stop then block[index - start]? else buffer[index]? := by
  have first : (buffer.extract 0 start).size = start := by
    rw [Array.size_extract]
    omega
  by_cases before : index < start
  · rw [if_neg (by omega), Array.append_assoc, Array.getElem?_append_left (by omega),
      Array.getElem?_extract, if_pos (by omega), Nat.zero_add]
  · by_cases within : index < stop
    · rw [if_pos (by omega), Array.getElem?_append_left (by simp only [Array.size_append]; omega),
        Array.getElem?_append_right (by omega), first]
    · rw [if_neg (by omega), Array.getElem?_append_right (by simp only [Array.size_append]; omega),
        Array.size_append, first, length, Array.getElem?_extract]
      split
      · congr 1
        omega
      · rw [Array.getElem?_eq_none (by omega)]

/-- A buffer to which a block was copied has its size. -/
theorem size_copied {buffer block : Array α} {start stop : Nat}
    (length : start + block.size = stop) (inside : stop ≤ buffer.size) :
    (buffer.extract 0 start ++ block ++ buffer.extract stop buffer.size).size = buffer.size := by
  simp only [Array.size_append, Array.size_extract]
  omega

/-- A buffer can be cut into chunks of some length. -/
theorem chunks_eq {length : Nat} (positive : length ≠ 0) (rest : Bool) (buffer : Array α) :
    chunks length rest buffer =
      pure ((List.range ((buffer.size + if rest then length - 1 else 0) / length)).map fun index =>
        buffer.extract (index * length) (index * length + length)) := by
  rw [chunks, if_neg positive]

/-- A number of time can be divided by one that is not zero. -/
theorem quotient_eq {τ : Type} [Scalar τ] {y : τ} (divisor : IsDivisor y) (x : τ) :
    quotient x y = pure (x / y) := if_neg divisor

end Checked

end Spectrum48
