import Spectrum48.Json.Number
import Spectrum48.Json.Quoted

/-!
# Values that are not used

A value whose content does not matter is passed over. Lists and objects may be nested to any
depth: the open ones are kept on a stack, so the depth of the text costs no depth of calls.

A value that stands where a number is wanted is read only as far as its kind requires.
-/

namespace Spectrum48.Json

/-- What encloses a value. -/
inductive Enclosure where
  | list
  | object
  deriving DecidableEq, Repr

/-- The enclosure that a character opens. -/
def Enclosure.opened? (c : Char) : Option Enclosure :=
  if c == '[' then some .list else if c == '{' then some .object else none

/-- The character that closes an enclosure. -/
def Enclosure.close : Enclosure → Char
  | .list => ']'
  | .object => '}'

/-- Read a mark. -/
def mark (expected : Char) (text : List Char) : Except Problem (After text) :=
  match firstToken? text with
  | none => .error .ended
  | some (first, rest) => if first == expected then .ok rest else .error .malformed

/-- Pass over the name of a member and its colon. -/
def skipName (text : List Char) : Except Problem (Rest text) := do
  let name ← mark '"' text
  let afterName ← skipQuoted name.val
  let value ← mark ':' afterName.val
  return ⟨value.val, by
    have := name.property
    have := afterName.property
    have := value.property
    omega⟩

/-- Pass over what precedes a value in an enclosure. -/
def enter : Enclosure → (text : List Char) → Except Problem (Rest text)
  | .list, text => .ok (.all text)
  | .object, text => skipName text

/-- Pass over a value without parts from its first character. -/
def skipScalar (first : Char) (text : List Char) : Except Problem (Rest text) :=
  if first == '"' then skipQuoted text
  else if first == '-' then skipNegative text
  else if first.isDigit then skipNumberAfter first text
  else match literalTail? first with
    | some letters => word letters text
    | none => .error .malformed

/-- What is wanted next while values are passed over. -/
inductive Wanted where
  /-- A value. -/
  | value
  /-- A comma or the end of the innermost enclosure. -/
  | separator

/-- Pass over values until no enclosure is open; the innermost open enclosure comes first. -/
def skipFrom (limit : Nat) (wanted : Wanted) (outer : List Enclosure) (text : List Char)
    (fits : text.length ≤ limit) : Except Problem { rest : List Char // rest.length ≤ limit } :=
  match wanted with
  | .value =>
    match firstToken? text with
    | none => .error .ended
    | some (first, ⟨inside, shorter⟩) =>
      match Enclosure.opened? first with
      | none =>
        match skipScalar first inside with
        | .error problem => .error problem
        | .ok ⟨rest, left⟩ => skipFrom limit .separator outer rest (by omega)
      | some enclosure =>
        match firstToken? inside with
        | none => .error .ended
        | some (next, ⟨after, shorter2⟩) =>
          if next == enclosure.close then
            skipFrom limit .separator outer after (by omega)
          else
            match enter enclosure inside with
            | .error problem => .error problem
            | .ok ⟨rest, left⟩ => skipFrom limit .value (enclosure :: outer) rest (by omega)
  | .separator =>
    match outer with
    | [] => .ok ⟨text, fits⟩
    | enclosure :: outer =>
      match firstToken? text with
      | none => .error .ended
      | some (next, ⟨after, shorter⟩) =>
        if next == ',' then
          match enter enclosure after with
          | .error problem => .error problem
          | .ok ⟨rest, left⟩ => skipFrom limit .value (enclosure :: outer) rest (by omega)
        else if next == enclosure.close then
          skipFrom limit .separator outer after (by omega)
        else .error .malformed
  termination_by text.length

/-- Pass over a value. -/
def skipValue (text : List Char) : Except Problem (Rest text) :=
  let ⟨whole, fits⟩ := Rest.all text
  skipFrom text.length .value [] whole fits

/-- The problem of a value that is no number where a number is wanted. Strings and literals are
read to their end first; lists and objects are not. -/
def problemOf (first : Char) (text : List Char) : Problem :=
  let reading : Except Problem (Rest text) :=
    if (Enclosure.opened? first).isSome then .ok (.all text)
    else if first == '"' then (quoted text).map Prod.snd
    else match literalTail? first with
      | some letters => word letters text
      | none => .error .malformed
  match reading with
  | .error problem => problem
  | .ok _ => .mismatched

/-- Read a number, with blanks before it. -/
def numberValue (text : List Char) : Except Problem (Number × Rest text) :=
  match firstToken? text with
  | none => .error .ended
  | some (first, ⟨inside, shorter⟩) =>
    if first == '-' || first.isDigit then
      (number (first :: inside)).map fun (number, rest) =>
        (number, ⟨rest.val, Nat.le_trans rest.property shorter⟩)
    else .error (problemOf first inside)

end Spectrum48.Json
