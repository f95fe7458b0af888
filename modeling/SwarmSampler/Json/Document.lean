import SwarmSampler.Document
import SwarmSampler.Json.Number

/-
JSON as a form of documents. Names have to have a text even where the value is
ignored; a record may also be an array of its fields. Content is taken in
whole, so every string and number in it has to be readable, and it may not be
nested too deep, counted from the outermost record.
-/

namespace SwarmSampler.Json

/-- How deep content may be nested. -/
def depthLimit : Nat := 127

mutual

/-- A value as content, at most so deep. -/
def contentWithin : Nat → Json → Option Content
  | _, .null => some .null
  | _, .bool b => some (.bool b)
  | _, .string s => s.map .text
  | _, .number n =>
    match n.toInt? with
    | some (.ofNat k) => some (.natural k)
    | some k => some (.signed k)
    | none => n.toFloat?.map .real
  | 0, .array _ => none
  | 0, .object _ => none
  | depth + 1, .array items => (contentItems depth items).map .items
  | depth + 1, .object fields => (contentFields depth fields).map .fields

def contentItems : Nat → List Json → Option (List Content)
  | _, [] => some []
  | depth, v :: rest => do
    let v ← contentWithin depth v
    let rest ← contentItems depth rest
    some (v :: rest)

def contentFields : Nat → List (Option String × Json) → Option (List (Content × Content))
  | _, [] => some []
  | depth, (name, v) :: rest => do
    let name ← name
    let v ← contentWithin depth v
    let rest ← contentFields depth rest
    some ((.text name, v) :: rest)

end

def text? : Json → Option String
  | .string s => s
  | _ => none

def truth? : Json → Option Bool
  | .bool b => some b
  | _ => none

def real? : Json → Option Float
  | .number n =>
    match n.toInt? with
    | some k => some (Float.ofInt k)
    | none => n.toFloat?
  | _ => none

def namedMember? (field : Option String × Json) : Option (FieldName × Json) :=
  field.1.map fun s => (.name s, field.2)

def only? {α : Type} : List α → Option α
  | [x] => some x
  | _ => none

/-- The tag of a record and its other members, where the record itself stands so deep. -/
def tagged? (tag : String) (depth : Nat) : Json → Option (String × Content)
  | .array (first :: rest) => do
    let name ← text? first
    let rest ← contentItems (depthLimit - (depth + 1)) rest
    some (name, .items rest)
  | .object fields => do
    let own ← only? (fields.filter fun f => f.1 == some tag)
    let name ← text? own.2
    let rest ← contentFields (depthLimit - (depth + 1)) (fields.filter fun f => f.1 != some tag)
    some (name, .fields rest)
  | _ => none

instance : TaggedDocument Json where
  isNull?
    | .null => some true
    | _ => some false
  text? := text?
  integer?
    | .number n => n.toInt?
    | _ => none
  items?
    | .array items => some items
    | _ => none
  members?
    | .array items => some (.ordered items)
    | .object fields => (fields.mapM namedMember?).map .named
    | _ => none
  tagged? := tagged?

end SwarmSampler.Json
