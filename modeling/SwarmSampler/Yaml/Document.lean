import SwarmSampler.Document
import SwarmSampler.Yaml.Parse

/-
YAML as a form of documents. Any scalar stands for a text; only a plain one
for a number or for nothing. An empty plain scalar also stands for a record
without members and for an empty list. Read as content, plain scalars are
told apart by how they look, and tags of one's own are refused. Aliases are
followed where something is read, and only so often while content is taken in.
-/

namespace SwarmSampler.Yaml

/-- Spellings of no value. -/
def isNullText (s : String) : Bool := ["null", "Null", "NULL", "~"].contains s

def truth? (s : String) : Option Bool :=
  if ["true", "True", "TRUE"].contains s then some true
  else if ["false", "False", "FALSE"].contains s then some false
  else none

def digitsIn? (base : Nat) (s : List Char) : Option Nat := do
  let values ← s.mapM Text.hexValue?
  if s.isEmpty || values.any (base ≤ ·) then none
  else some (values.foldl (fun n d => base * n + d) 0)

/-- A number after `0x`, `0o` or `0b`. -/
def based? : List Char → Option Nat
  | '0' :: 'x' :: rest => digitsIn? 16 rest
  | '0' :: 'o' :: rest => digitsIn? 8 rest
  | '0' :: 'b' :: rest => digitsIn? 2 rest
  | _ => none

/-- Digits with a superfluous zero in front are text. -/
def isPaddedDigits (s : List Char) : Bool :=
  s.head? == some '0' && 1 < s.length && s.all Text.isDigit

def unsigned? (s : List Char) : Option Nat :=
  (based? s).or (if isPaddedDigits s then none else digitsIn? 10 s)

/-- A whole number of 64 bits; a plus may stand in front. -/
def natural? (s : List Char) : Option Nat := do
  let n ← unsigned? (if s.head? == some '+' then s.drop 1 else s)
  if n < 18_446_744_073_709_551_616 then some n else none

def dropSign (s : List Char) : List Char :=
  if s.head? == some '+' || s.head? == some '-' then s.drop 1 else s

/-- Whether a text is a whole number of 128 bits. -/
def isLong (s : List Char) : Bool :=
  let limit := if s.head? == some '-' then Nat.pow 2 127 + 1 else Nat.pow 2 128
  (unsigned? (dropSign s)).any (· < limit)

/-- A whole number of 64 bits below zero, or zero with a minus. -/
def negative? : List Char → Option Int
  | '-' :: rest => do
    let n ← unsigned? rest
    if n ≤ 9_223_372_036_854_775_808 then some (-(n : Int)) else none
  | _ => none

/-- The decimal parts of a number: digits, digits after a point, and an exponent. -/
def decimalParts? (s : List Char) : Option (List Char × List Char × Int) := do
  let whole := s.takeWhile Text.isDigit
  let s := s.dropWhile Text.isDigit
  let (fraction, s) :=
    match s with
    | '.' :: rest => (rest.takeWhile Text.isDigit, rest.dropWhile Text.isDigit)
    | s => ([], s)
  if whole.isEmpty && fraction.isEmpty then none
  else
    match s with
    | [] => some (whole, fraction, 0)
    | c :: rest =>
      if c == 'e' || c == 'E' then
        let minus := rest.head? == some '-'
        let digits := if minus || rest.head? == some '+' then rest.drop 1 else rest
        let size ← digitsIn? 10 digits
        some (whole, fraction, if minus then -(size : Int) else (size : Int))
      else none

/-- The machine number of decimal parts, none beyond the range. -/
def floatOf? (whole fraction : List Char) (exponent : Int) : Option Float :=
  let digits := Text.readDigits (whole ++ fraction)
  let shift := exponent - fraction.length
  if digits = 0 || shift + (whole.length + fraction.length : Nat) < -400 then some 0
  else if 400 < shift then none
  else
    let x : Float := OfScientific.ofScientific digits (shift < 0) shift.natAbs
    if x.isInf then none else some x

def real? (s : List Char) : Option Float :=
  let text := String.ofList s
  let body := if s.head? == some '+' then s.drop 1 else s
  if [".inf", ".Inf", ".INF"].contains (String.ofList body) then some (1 / 0)
  else if ["-.inf", "-.Inf", "-.INF"].contains text then some (-1 / 0)
  else if [".nan", ".NaN", ".NAN"].contains text then some (0 / 0)
  else
    let minus := s.head? == some '-'
    do
      let (whole, fraction, exponent) ← decimalParts? (if minus then s.drop 1 else body)
      let x ← floatOf? whole fraction exponent
      some (if minus then -x else x)

/-- A whole number of 64 bits as content. -/
def whole? (s : List Char) : Option Content :=
  (natural? s).map .natural <|> (negative? s).map .signed

/-- A plain scalar by its looks. Whole numbers that take more than 64 bits but not more than 128
are refused. -/
def plainContent? (s : String) : Option Content :=
  let list := s.toList
  if s = "" || isNullText s then some .null
  else
    match truth? s with
    | some b => some (.bool b)
    | none =>
      match whole? list with
      | some c => some c
      | none =>
        if isLong list then none
        else if isPaddedDigits (dropSign list) then some (.text s)
        else
          match real? list with
          | some x => some (.real x)
          | none => some (.text s)

/-- The tags of the basic kinds. -/
def standardTag (kind : String) : Tag := Scan.plainBytes ("tag:yaml.org,2002:" ++ kind).toList

def isOwnTag (t : Tag) : Bool := t.head? == some 0x21

/-- Whether a tag names a variant, which content does not have. -/
def namesVariant (tag : Option Tag) : Bool :=
  tag.any fun t => isOwnTag t && (Text.ofBytes? t).isSome

/-- A scalar by its tag, its style and its looks. -/
def scalarContent? (tag : Option Tag) (style : Style) (s : String) : Option Content :=
  if namesVariant tag then none
  else
    match tag with
    | none => if style = .plain then plainContent? s else some (.text s)
    | some t =>
      if t = standardTag "bool" then (truth? s).map .bool
      else if t = standardTag "int" then whole? s.toList
      else if t = standardTag "float" then (real? s.toList).map .real
      else if t = standardTag "null" then if isNullText s then some .null else none
      else if isOwnTag t ∧ style = .plain then plainContent? s
      else some (.text s)

/-- The node that an alias stands for, any other node itself. -/
def Place.target (p : Place) : Node :=
  match p.node with
  | .alias n => (p.anchored.lookup n).getD .empty
  | v => v

def Place.at (p : Place) (node : Node) : Place := { p with node := node }

/-- Taking in content. It counts how many aliases may yet be followed. -/
abbrev Taking := StateT Nat Option

/-- The node that an alias stands for, which is counted, any other node itself. -/
def follow (p : Place) : Taking Node := do
  match p.node with
  | .alias _ =>
    match ← get with
    | 0 => failure
    | left + 1 => set left
  | _ => pure ()
  return p.target

/-- A node as content, at most so deep. -/
def contentWithin : Nat → Place → Taking Content
  | 0, p => do
    match ← follow p with
    | .scalar tag style s => (scalarContent? tag style s : Option Content)
    | _ => failure
  | depth + 1, p => do
    match ← follow p with
    | .scalar tag style s => (scalarContent? tag style s : Option Content)
    | .sequence tag items =>
      if namesVariant tag then failure
      return .items (← items.mapM fun v => contentWithin depth (p.at v))
    | .mapping tag entries =>
      if namesVariant tag then failure
      return .fields (← entries.mapM fun e => do
        let key ← contentWithin depth (p.at e.1)
        return (key, ← contentWithin depth (p.at e.2)))
    | .alias _ => failure

/-- How deep records and content may be nested. -/
def depthLimit : Nat := 128

/-- How many aliases may be followed for each event of the document. -/
def followLimit : Nat := 100

def text? (p : Place) : Option String :=
  match p.target with
  | .scalar _ _ s => some s
  | _ => none

/-- Whether a node is an empty plain scalar. -/
def isEmpty : Node → Bool
  | .scalar _ .plain s => s = ""
  | _ => false

/-- Whether a node is plain and spells no value. One tagged as no value has to spell it. -/
def isNull? (p : Place) : Option Bool :=
  match p.target with
  | .scalar none .plain s => some (s = "" || isNullText s)
  | .scalar (some t) .plain s =>
    if t = standardTag "null" then (if isNullText s then some true else none) else some false
  | _ => some false

/-- The whole number of a plain scalar, or of a literal block tagged as one. -/
def integer? (p : Place) : Option Int :=
  match p.target with
  | .scalar tag style s =>
    if style = .plain ∨ (style = .literal ∧ tag = some (standardTag "int")) then
      (natural? s.toList).map Int.ofNat
    else none
  | _ => none

/-- The items of a sequence, none of an empty scalar. -/
def items? (p : Place) : Option (List Place) :=
  match p.target with
  | .sequence _ items => some (items.map p.at)
  | v => if isEmpty v then some [] else none

def namedMember? (p : Place) (entry : Node × Node) : Option (FieldName × Place) :=
  (text? (p.at entry.1)).map fun s => (.name s, p.at entry.2)

/-- The members of a mapping, none of an empty scalar. -/
def members? (p : Place) : Option (Members Place) :=
  match p.target with
  | .mapping _ entries => (entries.mapM (namedMember? p)).map .named
  | v => if isEmpty v then some (.named []) else none

/-- An entry of a tagged record: its tag's text, or another member. -/
def taggedMember (tag : String) (depth : Nat) (p : Place) (entry : Node × Node) :
    Taking (String ⊕ (Content × Content)) := do
  match ← contentWithin depth (p.at entry.1) with
  | .text s =>
    if s = tag then
      match ← follow (p.at entry.2) with
      | .scalar _ _ name => return .inl name
      | _ => failure
    else return .inr (.text s, ← contentWithin depth (p.at entry.2))
  | key => return .inr (key, ← contentWithin depth (p.at entry.2))

/-- The tag of a record that stands so deep, and its other members. -/
def taggedWithin (tag : String) (depth : Nat) (p : Place) : Taking (String × Content) := do
  match ← follow p with
  | .sequence own (first :: rest) =>
    if namesVariant own then failure
    match ← follow (p.at first) with
    | .scalar _ _ name =>
      return (name, .items (← rest.mapM fun v => contentWithin depth (p.at v)))
    | _ => failure
  | .mapping own entries =>
    if namesVariant own then failure
    let members ← entries.mapM (taggedMember tag depth p)
    match members.filterMap Sum.getLeft? with
    | [name] => return (name, .fields (members.filterMap Sum.getRight?))
    | _ => failure
  | _ => failure

/-- The tag of a record inside so many others, and its other members. -/
def tagged? (tag : String) (depth : Nat) (p : Place) : Option (String × Content) :=
  (taggedWithin tag (depthLimit - (depth + 1)) p).run' (followLimit * p.size)

/-- What can be read of the outermost mapping of a text, as long as keys have a text. -/
def leading (text : String) : Place :=
  let (entries, s) := leadingEntries text
  s.root (.mapping none (entries.takeWhile fun e => (text? (s.root e.1)).isSome))

instance : TaggedDocument Place where
  isNull? := isNull?
  text? := text?
  integer? := integer?
  items? := items?
  members? := members?
  tagged? := tagged?

end SwarmSampler.Yaml
