/-!
# Queues with two ends

A queue of integers that grows at its newest end and can be shortened at both ends. The older
entries are kept oldest first, the newer ones newest first, so that each end is the head of a list.
`toList` gives all entries, oldest first, and every operation is stated through it.
-/

namespace Spectrum48.Beeper

/-- A queue of integers. -/
structure Queue where
  /-- Older entries, oldest first. -/
  front : List Int
  /-- Newer entries, newest first. -/
  back : List Int
  deriving Repr

namespace Queue

/-- The entries, oldest first. -/
def toList (queue : Queue) : List Int := queue.front ++ queue.back.reverse

/-- No entries. -/
def empty : Queue := ⟨[], []⟩

/-- Whether there are no entries. -/
def isEmpty (queue : Queue) : Bool := queue.front.isEmpty && queue.back.isEmpty

/-- The number of entries. -/
def size (queue : Queue) : Nat := queue.front.length + queue.back.length

/-- Add a newest entry. -/
def push (queue : Queue) (entry : Int) : Queue := { queue with back := entry :: queue.back }

/-- The newest entry. -/
def newest? (queue : Queue) : Option Int :=
  match queue.back with
  | entry :: _ => some entry
  | [] => queue.front.getLast?

/-- Remove the newest entry. -/
def dropNewest (queue : Queue) : Queue :=
  match queue.back with
  | _ :: rest => { queue with back := rest }
  | [] => { queue with front := queue.front.dropLast }

/-- Remove entries from the front of a list up to a bound, and count them onto `count`. -/
def dropUpTo (bound : Int) (count : Nat) : List Int → Nat × List Int
  | [] => (count, [])
  | entry :: rest =>
    if entry ≤ bound then dropUpTo bound (count + 1) rest else (count, entry :: rest)

/-- Remove the oldest entries as long as they do not exceed a bound, and how many these were. -/
def dropOldest (queue : Queue) (bound : Int) : Nat × Queue :=
  match dropUpTo bound 0 queue.front with
  | (count, []) =>
    let (count, rest) := dropUpTo bound count queue.back.reverse
    (count, ⟨rest, []⟩)
  | (count, rest) => (count, { queue with front := rest })

/-- The empty queue has no entries. -/
theorem toList_empty : empty.toList = [] := rfl

/-- The size is the number of entries. -/
theorem length_toList (queue : Queue) : queue.toList.length = queue.size := by
  simp [toList, size]

/-- A queue is empty exactly if it has no entries. -/
theorem isEmpty_iff {queue : Queue} : queue.isEmpty = true ↔ queue.toList = [] := by
  simp [isEmpty, toList]

/-- A new entry comes last. -/
theorem toList_push (queue : Queue) (entry : Int) :
    (queue.push entry).toList = queue.toList ++ [entry] := by
  simp [push, toList]

/-- The newest entry is the last one. -/
theorem newest?_eq (queue : Queue) : queue.newest? = queue.toList.getLast? := by
  cases queue with
  | mk front back => cases back <;> simp [newest?, toList]

/-- Removing the newest entry removes the last one. -/
theorem toList_dropNewest (queue : Queue) :
    queue.dropNewest.toList = queue.toList.dropLast := by
  cases queue with
  | mk front back =>
    cases back with
    | nil => simp [dropNewest, toList]
    | cons entry rest => simp [dropNewest, toList, ← List.append_assoc]

/-- Removing entries up to a bound leaves the list from its first entry beyond the bound. -/
theorem dropUpTo_snd (bound : Int) (count : Nat) (entries : List Int) :
    (dropUpTo bound count entries).2 = entries.dropWhile (· ≤ bound) := by
  induction entries generalizing count with
  | nil => rfl
  | cons entry rest ih =>
    by_cases within : entry ≤ bound
    · simp [dropUpTo, within, ih]
    · simp [dropUpTo, within]

/-- The removed entries are counted. -/
theorem dropUpTo_fst (bound : Int) (count : Nat) (entries : List Int) :
    (dropUpTo bound count entries).1 = count + (entries.takeWhile (· ≤ bound)).length := by
  induction entries generalizing count with
  | nil => rfl
  | cons entry rest ih =>
    by_cases within : entry ≤ bound
    · simp only [dropUpTo, within, if_true, ih, decide_true, List.takeWhile_cons,
        List.length_cons]
      omega
    · simp [dropUpTo, within]

/-- The entries that are left after the oldest ones up to a bound are removed. -/
theorem toList_dropOldest (queue : Queue) (bound : Int) :
    (queue.dropOldest bound).2.toList = queue.toList.dropWhile (· ≤ bound) := by
  have front := dropUpTo_snd bound 0 queue.front
  rw [show queue.toList = queue.front ++ queue.back.reverse from rfl, List.dropWhile_append,
    ← front]
  simp only [dropOldest]
  split
  · next count shape => simp [shape, toList, dropUpTo_snd]
  · next count rest nonempty shape =>
    have : rest.isEmpty = false := by simpa using nonempty
    simp [shape, toList, this]

/-- Where nothing is left, all entries were removed. -/
private theorem length_takeWhile_of_dropWhile_nil {p : Int → Bool} {entries : List Int}
    (none_left : entries.dropWhile p = []) : (entries.takeWhile p).length = entries.length := by
  have whole := congrArg List.length (List.takeWhile_append_dropWhile (p := p) (l := entries))
  simpa [none_left] using whole

/-- Where something is left, not all entries were removed. -/
private theorem length_takeWhile_of_dropWhile_ne_nil {p : Int → Bool} {entries : List Int}
    (some_left : entries.dropWhile p ≠ []) : (entries.takeWhile p).length ≠ entries.length := by
  have whole := congrArg List.length (List.takeWhile_append_dropWhile (p := p) (l := entries))
  have positive := List.length_pos_iff.2 some_left
  rw [List.length_append] at whole
  omega

/-- The number of entries that are removed. -/
theorem fst_dropOldest (queue : Queue) (bound : Int) :
    (queue.dropOldest bound).1 = (queue.toList.takeWhile (· ≤ bound)).length := by
  have counted := dropUpTo_fst bound 0 queue.front
  have left := dropUpTo_snd bound 0 queue.front
  rw [toList, List.takeWhile_append]
  simp only [dropOldest]
  split
  · next count shape =>
    rw [shape] at counted left
    have all := length_takeWhile_of_dropWhile_nil left.symm
    rw [if_pos all]
    simp only [dropUpTo_fst, List.length_append] at counted ⊢
    omega
  · next count rest nonempty shape =>
    rw [shape] at counted left
    have some_left : queue.front.dropWhile (· ≤ bound) ≠ [] := left ▸ nonempty
    rw [if_neg (length_takeWhile_of_dropWhile_ne_nil some_left)]
    simpa using counted

end Queue

end Spectrum48.Beeper
