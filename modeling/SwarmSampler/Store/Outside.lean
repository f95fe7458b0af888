import SwarmSampler.Store

/-
What another program may do to the tables: set a cell of a target's row, insert
a sample of its own, and try to change or delete samples. The rules of the
tables hold for it as well, except that it may switch off the checks of a
sample's own values.
-/

namespace SwarmSampler.Store

inductive TargetColumn
  | id | url | license | magnet | eligible | source | firstSeenAt | lastCheckedAt | checkCount
  deriving DecidableEq

namespace TargetColumn

def names : List (String × TargetColumn) :=
  [("id", id), ("url", url), ("license", license), ("magnet", magnet), ("eligible", eligible),
   ("source", source), ("first_seen_at", firstSeenAt), ("last_checked_at", lastCheckedAt),
   ("check_count", checkCount)]

def ofName? (name : String) : Option TargetColumn := names.lookup name

def name (c : TargetColumn) : String := ((names.find? fun n => n.2 = c).map (·.1)).getD ""

def prefers (c : TargetColumn) : Cell → Cell :=
  match c with
  | eligible => Cell.asInteger
  | checkCount => Cell.asInteger
  | _ => Cell.asText

def mayBeNull (c : TargetColumn) : Bool := c == id || c == lastCheckedAt

end TargetColumn

def setCell (r : TargetRow) (column : TargetColumn) (value : Cell) : TargetRow :=
  match column with
  | .id => { r with id := value }
  | .url => { r with url := value }
  | .license => { r with license := value }
  | .magnet => { r with magnet := value }
  | .eligible => { r with eligible := value }
  | .source => { r with source := value }
  | .firstSeenAt => { r with firstSeenAt := value }
  | .lastCheckedAt => { r with lastCheckedAt := value }
  | .checkCount => { r with checkCount := value }

def isNull : Cell → Bool
  | .null => true
  | _ => false

/-- The rule that setting a cell of a target's row breaks. An id may not be taken, nor change while
samples name it. -/
def setViolation? (s : Store) (targetId : String) (column : TargetColumn) (value : Cell) :
    Option Violation :=
  if isNull value && !column.mayBeNull then some (.missingValue column.name)
  else if column = .id && !value.same (.text targetId) then
    if s.targets.any fun r => r.id.same value then some .sameTargetId
    else if s.samples.any (·.targetId = targetId) then some .unknownTarget
    else none
  else none

/-- Sets a cell of a target's row. Answers how many rows that is. -/
def setTarget (targetId : String) (column : TargetColumn) (value : Cell) (s : Store) :
    Except Violation Nat × Store :=
  let value := column.prefers value
  let hits := (s.targets.filter (·.isOf targetId)).length
  if hits = 0 then (.ok 0, s)
  else
    match s.setViolation? targetId column value with
    | some v => (.error v, s)
    | none =>
      let set := fun (r : TargetRow) => if r.isOf targetId then setCell r column value else r
      (.ok hits, { s with targets := s.targets.map set })

/-- Inserts a sample's row as it is. -/
def insertRow (r : SampleRow) (checked : Bool) (s : Store) : Except Violation Nat × Store :=
  match s.insertSample r checked with
  | .ok s' => (.ok 1, s')
  | .error v => (.error v, s)

/-- Tries to change or delete all samples, which fails as soon as there is one. -/
def disturbSamples (s : Store) : Except Violation Nat :=
  if s.samples.isEmpty then .ok 0 else .error .appendOnly

end SwarmSampler.Store
