import Spectrum48.Config.Field
import Spectrum48.Config.Validity
import Spectrum48.Json.Value

/-!
# Configurations from text

A configuration is read from an object, whose members may be some of the parameters in any order
and anything else besides, or from a list of the first parameters in order. Parameters that are not
given keep their usual values. No parameter may be given twice.
-/

namespace Spectrum48.Config

open Json

/-- A configuration that is being read, and the parameters that were given so far. -/
structure Draft where
  /-- The parameters given so far, and usual values for the others. -/
  config : Config Float
  /-- The parameters given so far. -/
  given : List Field

/-- Nothing is given. -/
def Draft.start : Draft := ⟨standard, []⟩

/-- Store a number as a parameter. -/
def Draft.give (draft : Draft) (field : Field) (number : Number) : Except Problem Draft :=
  match draft.config.set? field number with
  | some config => .ok ⟨config, field :: draft.given⟩
  | none => .error .mismatched

/-- Read the value of a parameter. -/
def Draft.readValue (draft : Draft) (field : Field) (text : List Char) :
    Except Problem (Draft × Rest text) := do
  let (number, rest) ← numberValue text
  let draft ← draft.give field number
  return (draft, rest)

/-- Read a member from behind the opening quote of its name. -/
def Draft.readMember (draft : Draft) (text : List Char) : Except Problem (Draft × Rest text) := do
  let (name, ⟨afterName, left⟩) ← quoted text
  match Field.ofName? (String.ofList name) with
  | some field =>
    if field ∈ draft.given then
      .error .mismatched
    else
      let ⟨value, left2⟩ ← mark ':' afterName
      let (draft, ⟨rest, left3⟩) ← draft.readValue field value
      return (draft, ⟨rest, by omega⟩)
  | none =>
    let ⟨value, left2⟩ ← mark ':' afterName
    let ⟨rest, left3⟩ ← skipValue value
    return (draft, ⟨rest, by omega⟩)

/-- Read the members that follow the first one, and the end of the object. -/
def Draft.readMembers (draft : Draft) (text : List Char) : Except Problem (Draft × List Char) :=
  match firstToken? text with
  | none => .error .ended
  | some (next, ⟨after, _⟩) =>
    if next == '}' then .ok (draft, after)
    else if next == ',' then
      match mark '"' after with
      | .error problem => .error problem
      | .ok ⟨name, _⟩ =>
        match draft.readMember name with
        | .error problem => .error problem
        | .ok (draft, ⟨rest, _⟩) => draft.readMembers rest
    else .error .malformed
  termination_by text.length

/-- Read an object from behind its opening brace. -/
def Draft.readObject (draft : Draft) (text : List Char) : Except Problem (Draft × List Char) :=
  match firstToken? text with
  | none => .error .ended
  | some (next, after) =>
    if next == '}' then .ok (draft, after.val)
    else if next == '"' then do
      let (draft, rest) ← draft.readMember after.val
      draft.readMembers rest.val
    else .error .malformed

/-- Read the parameters that follow the first one, and the end of the list. -/
def Draft.readRest (draft : Draft) : List Field → (text : List Char) →
    Except Problem (Draft × List Char)
  | [], text => do
    let rest ← mark ']' text
    return (draft, rest.val)
  | field :: fields, text =>
    match firstToken? text with
    | none => .error .ended
    | some (next, after) =>
      if next == ']' then .ok (draft, after.val)
      else if next == ',' then do
        let (draft, rest) ← draft.readValue field after.val
        draft.readRest fields rest.val
      else .error .malformed

/-- Read a list from behind its opening bracket. -/
def Draft.readList (draft : Draft) (text : List Char) : Except Problem (Draft × List Char) :=
  match firstToken? text with
  | none => .error .ended
  | some (next, after) =>
    if next == ']' then .ok (draft, after.val)
    else do
      let (draft, rest) ← draft.readValue .cpuFrequency text
      draft.readRest (Field.all.drop 1) rest.val

/-- Read an object or a list. -/
def Draft.read (draft : Draft) (text : List Char) : Except Problem (Draft × List Char) :=
  match firstToken? text with
  | none => .error .ended
  | some (next, after) =>
    match Enclosure.opened? next with
    | some .object => draft.readObject after.val
    | some .list => draft.readList after.val
    | none => do
      let _ ← numberValue text
      .error .mismatched

/-- Read a configuration from the whole of a text; only blanks may follow it. -/
def ofText (text : String) : Except Problem (Config Float) := do
  let (draft, rest) ← Draft.start.read text.toList
  match firstToken? rest with
  | none => return draft.config
  | some _ => .error .malformed

/-- Why a text does not give a configuration. -/
inductive LoadFault where
  /-- The text cannot be read. -/
  | unreadable (problem : Problem)
  /-- The configuration describes no machine. -/
  | invalid (defect : Defect Float)

/-- The wording of a load fault; that of an unreadable text does not tell the problem. -/
def LoadFault.message : LoadFault → String
  | .unreadable _ => "Unable to parse machine configuration"
  | .invalid defect => defect.message

/-- Read a configuration and check that it is valid. -/
def load (text : String) : Except LoadFault (Config Float) :=
  match ofText text with
  | .error problem => .error (.unreadable problem)
  | .ok config =>
    match config.defect? with
    | some defect => .error (.invalid defect)
    | none => .ok config

end Spectrum48.Config
