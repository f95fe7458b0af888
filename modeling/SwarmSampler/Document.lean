/-
What reading a record needs of a document, whatever its form. A record shows
its members by name or in order; `slots` sorts them into the fields that are
declared, so that each record is read by one function for every form.
-/

namespace SwarmSampler

/-- How a member is named: by a text, or by the field's place. -/
inductive FieldName
  | name (s : String)
  | place (n : Nat)
  deriving DecidableEq

inductive Members (δ : Type)
  | named (fields : List (FieldName × δ))
  | ordered (items : List δ)

/-- A form of documents. -/
class Document (δ : Type) where
  /-- Whether a document stands for no value; none where it claims to and does not. -/
  isNull? : δ → Option Bool
  text? : δ → Option String
  integer? : δ → Option Int
  items? : δ → Option (List δ)
  members? : δ → Option (Members δ)

namespace Document

variable {δ : Type}

/-- The declared field a member belongs to; others are ignored. Each field has one spelling or
more. -/
def fieldOf (spellings : List (List String)) : FieldName → Option Nat
  | .name s => spellings.findIdx? (·.contains s)
  | .place n => if n < spellings.length then some n else none

def given (spellings : List (List String)) (fields : List (FieldName × δ)) (i : Nat) : List δ :=
  (fields.filter fun f => fieldOf spellings f.1 == some i).map (·.2)

/-- At most one value. -/
def single? : List δ → Option (Option δ)
  | [] => some none
  | [v] => some (some v)
  | _ => none

/-- A place for each declared field, refused when a field is given twice or when there are more
items than fields. Fewer items are taken if `short` says so. -/
def slots? (spellings : List (List String)) (short : Bool) :
    Members δ → Option (List (Option δ))
  | .named fields => (List.range spellings.length).mapM fun i => single? (given spellings fields i)
  | .ordered items =>
    if items.length = spellings.length ∨ (short ∧ items.length < spellings.length) then
      some (items.map some ++ List.replicate (spellings.length - items.length) none)
    else none

variable {α : Type}

def required? (read : δ → Option α) (slot : Option δ) : Option α := slot.bind read

def optional? [Document δ] (read : δ → Option α) : Option δ → Option (Option α)
  | none => some none
  | some v => do if ← isNull? v then some none else (read v).map some

/-- A field with a value for when it is missing. -/
def defaulted? (fallback : α) (read : δ → Option α) : Option δ → Option α
  | none => some fallback
  | some v => read v

def count32? [Document δ] (v : δ) : Option UInt32 :=
  match integer? v with
  | some n => if 0 ≤ n ∧ n < 4_294_967_296 then some (UInt32.ofNat n.toNat) else none
  | none => none

def count64? [Document δ] (v : δ) : Option UInt64 :=
  match integer? v with
  | some n => if 0 ≤ n ∧ n < 18_446_744_073_709_551_616 then some (UInt64.ofNat n.toNat) else none
  | none => none

end Document

/-- A document read as a whole before its meaning is known. -/
inductive Content
  | null
  | bool (b : Bool)
  | natural (n : Nat)
  /-- A whole number with a minus. -/
  | signed (n : Int)
  | real (x : Float)
  | text (s : String)
  | items (list : List Content)
  | fields (list : List (Content × Content))

namespace Content

/-- What a key names: texts name a field, numbers without a minus the field at that place. -/
def fieldName? : Content → Option FieldName
  | .text s => some (.name s)
  | .natural n => some (.place n)
  | _ => none

def real? : Content → Option Float
  | .natural n => some (Float.ofNat n)
  | .signed n => some (Float.ofInt n)
  | .real x => some x
  | _ => none

instance : Document Content where
  isNull?
    | .null => some true
    | _ => some false
  text?
    | .text s => some s
    | _ => none
  integer?
    | .natural n => some n
    | .signed n => some n
    | _ => none
  items?
    | .items list => some list
    | _ => none
  members?
    | .items list => some (.ordered list)
    | .fields list =>
      (list.mapM fun f => (fieldName? f.1).map fun name => (name, f.2)).map .named
    | _ => none

end Content

/-- Documents in which a tag tells what the rest is. -/
class TaggedDocument (δ : Type) extends Document δ where
  /-- The tag's text and the rest: the members without the tag, or the items after it. The number
  says how many records are around this one. -/
  tagged? : String → Nat → δ → Option (String × Content)

end SwarmSampler
