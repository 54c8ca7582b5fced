/-!
# Reading a text from the left

A reader takes something off the front of a text and returns what is left. What is left is never
longer than the text, and this is part of its type, so readers that call each other end.

Reading stops at the first problem. There are three kinds: the text ends too early, the text is no
JSON, or it is JSON but not what is wanted at this place.
-/

namespace Spectrum48.Json

/-- Why a text is not read. -/
inductive Problem where
  /-- The text ends where more is needed. -/
  | ended
  /-- The text is no JSON. -/
  | malformed
  /-- A value of another kind or range than wanted, or a field given twice. -/
  | mismatched
  deriving DecidableEq, Repr

/-- What is left of a text. -/
abbrev Rest (text : List Char) := { rest : List Char // rest.length ≤ text.length }

/-- A whole text is left. -/
def Rest.all (text : List Char) : Rest text := ⟨text, Nat.le_refl _⟩

/-- What is left of a part that was left. -/
def Rest.within {text part : List Char} (shorter : part.length ≤ text.length) (rest : Rest part) :
    Rest text :=
  ⟨rest.val, Nat.le_trans rest.property shorter⟩

/-- What is left of the text behind its first character. -/
def Rest.tail {first : Char} {text : List Char} : Rest (first :: text) := ⟨text, Nat.le_succ _⟩

/-- What is left of the text behind the first character is left of the whole text. -/
def Rest.behind {first : Char} {text : List Char} (rest : Rest text) : Rest (first :: text) :=
  rest.within (Nat.le_succ _)

/-- What is left of what is left of a text. -/
def Rest.andThen {text : List Char} (first : Rest text) (second : Rest first.val) : Rest text :=
  second.within first.property

/-- Characters that may stand between tokens. -/
def isBlank (c : Char) : Bool := c == ' ' || c == '\t' || c == '\n' || c == '\r'

/-- Skip blanks. -/
def skipBlanks (text : List Char) : Rest text :=
  ⟨text.dropWhile isBlank, (List.dropWhile_suffix isBlank).length_le⟩

/-- What is left of a text after at least one character was read. -/
abbrev After (text : List Char) := { rest : List Char // rest.length < text.length }

/-- The first character that is no blank, and what follows it. -/
def firstToken? (text : List Char) : Option (Char × After text) :=
  match skipBlanks text with
  | ⟨[], _⟩ => none
  | ⟨first :: rest, left⟩ => some (first, ⟨rest, left⟩)

/-- The problem of a text that goes on, or ends, where something else is needed. -/
def unexpected : List Char → Problem
  | [] => .ended
  | _ :: _ => .malformed

/-- Read a fixed word. -/
def word : (expected text : List Char) → Except Problem (Rest text)
  | [], text => .ok (.all text)
  | _ :: _, [] => .error .ended
  | e :: expected, c :: text =>
    if c = e then (word expected text).map Rest.behind else .error .malformed

/-- The letters of a literal after its first one. -/
def literalTail? : Char → Option (List Char)
  | 'n' => some ['u', 'l', 'l']
  | 't' => some ['r', 'u', 'e']
  | 'f' => some ['a', 'l', 's', 'e']
  | _ => none

/-- The value of a decimal digit. -/
def digitValue? (c : Char) : Option Nat :=
  if c.isDigit then some (c.toNat - '0'.toNat) else none

/-- Take the digits off the front of a text. -/
def takeDigits : (text : List Char) → List Nat × Rest text
  | [] => ([], .all [])
  | c :: text =>
    match digitValue? c with
    | none => ([], .all (c :: text))
    | some digit =>
      let (digits, rest) := takeDigits text
      (digit :: digits, rest.behind)

end Spectrum48.Json
