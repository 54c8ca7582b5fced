import Spectrum48.Json.Text

/-!
# Quoted strings

Strings are read from behind their opening quote. A string whose value is needed is decoded, and
then every escape must stand for a character; a string that is only passed over may hold an escape
for half a surrogate pair.
-/

namespace Spectrum48.Json

/-- The value of a hexadecimal digit. -/
def hexValue? (c : Char) : Option Nat :=
  if '0' ≤ c ∧ c ≤ '9' then some (c.toNat - '0'.toNat)
  else if 'a' ≤ c ∧ c ≤ 'f' then some (c.toNat - 'a'.toNat + 10)
  else if 'A' ≤ c ∧ c ≤ 'F' then some (c.toNat - 'A'.toNat + 10)
  else none

/-- The value of four hexadecimal digits. -/
def hexValue4? (a b c d : Char) : Option Nat := do
  let a ← hexValue? a
  let b ← hexValue? b
  let c ← hexValue? c
  let d ← hexValue? d
  return ((a * 16 + b) * 16 + c) * 16 + d

/-- The number of bytes of a text. -/
def byteLength (text : List Char) : Nat := text.foldl (fun bytes c => bytes + c.utf8Size) 0

/-- Read four hexadecimal digits. The text ends too early when it has fewer than four bytes,
whatever these are. -/
def codeUnit : (text : List Char) → Except Problem (Nat × Rest text)
  | a :: b :: c :: d :: text =>
    match hexValue4? a b c d with
    | some unit => .ok (unit, ⟨text, by simp only [List.length_cons]; omega⟩)
    | none => .error .malformed
  | text => .error (if byteLength text < 4 then .ended else .malformed)

/-- The first half of a surrogate pair. -/
def isLead (unit : Nat) : Bool := 0xD800 ≤ unit && unit < 0xDC00

/-- The second half of a surrogate pair. -/
def isTrail (unit : Nat) : Bool := 0xDC00 ≤ unit && unit < 0xE000

/-- The character of a surrogate pair. -/
def joinPair (lead trail : Nat) : Char :=
  Char.ofNat (0x10000 + (lead - 0xD800) * 0x400 + (trail - 0xDC00))

/-- Read a character that is given by code units. -/
def unicodeEscape (text : List Char) : Except Problem (Char × Rest text) :=
  match codeUnit text with
  | .error problem => .error problem
  | .ok (unit, rest) =>
    if isTrail unit then .error .malformed
    else if isLead unit then
      match word ['\\', 'u'] rest.val with
      | .error problem => .error problem
      | .ok second =>
        match codeUnit second.val with
        | .error problem => .error problem
        | .ok (trail, last) =>
          if isTrail trail then
            .ok (joinPair unit trail, rest.andThen (second.andThen last))
          else .error .malformed
    else .ok (Char.ofNat unit, rest)

/-- The character of a one-letter escape. -/
def simpleEscape? : Char → Option Char
  | '"' => some '"'
  | '\\' => some '\\'
  | '/' => some '/'
  | 'b' => some '\x08'
  | 'f' => some '\x0c'
  | 'n' => some '\n'
  | 'r' => some '\r'
  | 't' => some '\t'
  | _ => none

/-- Characters that must be escaped in a string. -/
def isControl (c : Char) : Bool := c.toNat < 0x20

/-- Read one escape from behind its backslash. -/
def escape : (text : List Char) → Except Problem (Char × Rest text)
  | [] => .error .ended
  | 'u' :: text => (unicodeEscape text).map fun (c, rest) => (c, rest.behind)
  | c :: _ =>
    match simpleEscape? c with
    | some escaped => .ok (escaped, .tail)
    | none => .error .malformed

/-- Read the characters of a string; `seen` are those read before, the last one first. -/
def quotedFrom (limit : Nat) (seen : List Char) (text : List Char) (fits : text.length ≤ limit) :
    Except Problem (List Char × { rest : List Char // rest.length ≤ limit }) :=
  match text with
  | [] => .error .ended
  | '"' :: rest => .ok (seen.reverse, ⟨rest, Nat.le_of_succ_le fits⟩)
  | '\\' :: text =>
    match escape text with
    | .error problem => .error problem
    | .ok (c, ⟨rest, left⟩) =>
      quotedFrom limit (c :: seen) rest (Nat.le_trans left (Nat.le_of_succ_le fits))
  | c :: rest =>
    if isControl c then .error .malformed
    else quotedFrom limit (c :: seen) rest (Nat.le_of_succ_le fits)
  termination_by text.length
  decreasing_by
    · exact Nat.lt_succ_of_le left
    · exact Nat.lt_succ_self rest.length

/-- Read a string from behind its opening quote. -/
def quoted (text : List Char) : Except Problem (List Char × Rest text) :=
  quotedFrom text.length [] text (Rest.all text).property

/-- Pass over one escape from behind its backslash. -/
def skipEscape : (text : List Char) → Except Problem (Rest text)
  | [] => .error .ended
  | 'u' :: text => (codeUnit text).map fun (_, rest) => rest.behind
  | c :: _ =>
    match simpleEscape? c with
    | some _ => .ok .tail
    | none => .error .malformed

/-- Pass over the characters of a string. -/
def skipQuotedFrom (limit : Nat) (text : List Char) (fits : text.length ≤ limit) :
    Except Problem { rest : List Char // rest.length ≤ limit } :=
  match text with
  | [] => .error .ended
  | '"' :: rest => .ok ⟨rest, Nat.le_of_succ_le fits⟩
  | '\\' :: text =>
    match skipEscape text with
    | .error problem => .error problem
    | .ok ⟨rest, left⟩ =>
      skipQuotedFrom limit rest (Nat.le_trans left (Nat.le_of_succ_le fits))
  | c :: rest =>
    if isControl c then .error .malformed
    else skipQuotedFrom limit rest (Nat.le_of_succ_le fits)
  termination_by text.length
  decreasing_by
    · exact Nat.lt_succ_of_le left
    · exact Nat.lt_succ_self rest.length

/-- Pass over a string from behind its opening quote. -/
def skipQuoted (text : List Char) : Except Problem (Rest text) :=
  skipQuotedFrom text.length text (Rest.all text).property

end Spectrum48.Json
