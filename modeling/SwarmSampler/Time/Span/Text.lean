import SwarmSampler.Text.Ascii
import SwarmSampler.Text.Blank
import SwarmSampler.Time.Span

/-
Spans as people write them: numbers, each followed by a unit, added up, as in
`1h 30m`. A number may carry a decimal fraction that must come out exact;
blanks may stand anywhere but inside a unit; `0` alone needs no unit. A month
is 30.44 days and a year 365.25. What `text` writes, `ofText?` reads back.
-/

namespace SwarmSampler.Span

/-- The units a span is written in. -/
inductive Unit
  | nanosecond | microsecond | millisecond
  | second | minute | hour | day | week | month | year
  deriving DecidableEq

namespace Unit

def spellings : List (String × Unit) :=
  [("nanos", nanosecond), ("nsec", nanosecond), ("ns", nanosecond),
   ("usec", microsecond), ("us", microsecond), ("µs", microsecond),
   ("millis", millisecond), ("msec", millisecond), ("ms", millisecond),
   ("seconds", second), ("second", second), ("secs", second), ("sec", second), ("s", second),
   ("minutes", minute), ("minute", minute), ("min", minute), ("mins", minute), ("m", minute),
   ("hours", hour), ("hour", hour), ("hr", hour), ("hrs", hour), ("h", hour),
   ("days", day), ("day", day), ("d", day),
   ("weeks", week), ("week", week), ("wk", week), ("wks", week), ("w", week),
   ("months", month), ("month", month), ("M", month),
   ("years", year), ("year", year), ("yr", year), ("yrs", year), ("y", year)]

def ofSpelling? (name : List Char) : Option Unit := spellings.lookup (String.ofList name)

/-- A unit's length: a number of nanoseconds below the second, of seconds from there on. -/
def scale : Unit → Nat ⊕ Nat
  | nanosecond => .inl 1
  | microsecond => .inl 1000
  | millisecond => .inl 1_000_000
  | second => .inr 1
  | minute => .inr 60
  | hour => .inr 3600
  | day => .inr 86400
  | week => .inr 604800
  | month => .inr 2630016
  | year => .inr 31557600

end Unit

/-- Numbers are counted in 64 bits while they are read. -/
def wordLimit : Nat := 18_446_744_073_709_551_616

/-- Why a text is no span. -/
inductive Fault
  | malformed
  /-- Nanoseconds make up one second exactly, and the seconds have no room for it. -/
  | overflow
  deriving DecidableEq

abbrev Scan (α : Type) := Except Fault α

/-- A number, refused when it does not fit the word. -/
def word (n : Nat) : Scan Nat := if n < wordLimit then .ok n else .error .malformed

/-- The quotient when it comes out exact. -/
def exactly (n d : Nat) : Scan Nat := if n % d = 0 then .ok (n / d) else .error .malformed

/-- Adds seconds and nanoseconds to a span, which fails when a count leaves its word. A full second
of nanoseconds is left as it is until the sum is made, and overflows then. -/
def extend (total : Span) (seconds nanos : Nat) : Scan Span := do
  let below ← word (total.subsecond + nanos)
  let above ← word (total.seconds + seconds)
  match ofParts? above below with
  | some sum => return sum
  | none => throw (if below = 1_000_000_000 then .overflow else .malformed)

def addWhole (total : Span) (n : Nat) (u : Unit) : Scan Span := do
  match u.scale with
  | .inl k => extend total 0 (← word (n * k))
  | .inr k => extend total (← word (n * k)) 0

/-- Adds the fraction `num / den` of a unit. From the hour on it has to be whole seconds,
below that whole nanoseconds; a nanosecond has no fraction. -/
def addFraction (total : Span) (num den : Nat) (u : Unit) : Scan Span := do
  match u with
  | .nanosecond => throw .malformed
  | .second => extend total 0 (← exactly (← word (num * 1_000_000_000)) den)
  | .minute => extend total 0 (← exactly (← word (num * 60_000_000_000)) den)
  | u =>
    match u.scale with
    | .inl k => extend total 0 (← exactly (← word (num * k)) den)
    | .inr k => extend total (← exactly (← word (num * k)) den) 0

/-- Where in the text the reading stands. -/
inductive Place
  /-- Before a number. -/
  | gap
  /-- In a number that came to `n` so far. -/
  | whole (n : Nat)
  /-- In the decimals of a number. -/
  | fraction (n num den : Nat)
  /-- In a unit, whose letters are held last first. -/
  | unit (n : Nat) (decimals : Option (Nat × Nat)) (letters : List Char)

/-- What has been read: the sum of the finished terms, none before the first, and the place. -/
structure Reading where
  total : Option Span
  place : Place

def isUnitLetter (c : Char) : Bool := Text.isLetter c || c == 'µ'

def finishTerm (total : Option Span) (n : Nat) (decimals : Option (Nat × Nat))
    (letters : List Char) : Scan Span := do
  match Unit.ofSpelling? letters.reverse with
  | none => throw .malformed
  | some u =>
    let sum ← addWhole (total.getD zero) n u
    match decimals with
    | none => return sum
    | some (num, den) => addFraction sum num den u

def readChar (r : Reading) (c : Char) : Scan Reading := do
  match r.place with
  | .gap =>
    if Text.isDigit c then return ⟨r.total, .whole (Text.digitValue c)⟩
    else if Text.isBlank c then return r
    else throw .malformed
  | .whole n =>
    if Text.isDigit c then return ⟨r.total, .whole (← word (10 * n + Text.digitValue c))⟩
    else if Text.isBlank c then return r
    else if isUnitLetter c then return ⟨r.total, .unit n none [c]⟩
    else if c = '.' then return ⟨r.total, .fraction n 0 1⟩
    else throw .malformed
  | .fraction n num den =>
    if Text.isDigit c then
      return ⟨r.total, .fraction n (← word (10 * num + Text.digitValue c)) (← word (10 * den))⟩
    else if Text.isBlank c then return r
    else if isUnitLetter c ∧ den ≠ 1 then return ⟨r.total, .unit n (some (num, den)) [c]⟩
    else throw .malformed
  | .unit n decimals letters =>
    if Text.isDigit c then
      return ⟨some (← finishTerm r.total n decimals letters), .whole (Text.digitValue c)⟩
    else if Text.isBlank c then return ⟨some (← finishTerm r.total n decimals letters), .gap⟩
    else if isUnitLetter c then return ⟨r.total, .unit n decimals (c :: letters)⟩
    else throw .malformed

def read (text : String) : Scan Span := do
  if text = "0" then return zero
  let r ← text.toList.foldlM readChar ⟨none, .gap⟩
  match r.place, r.total with
  | .gap, some sum => return sum
  | .unit n decimals letters, total => finishTerm total n decimals letters
  | _, _ => throw .malformed

def ofText? (text : String) : Option Span := (read text).toOption

/-- A count and its unit, nothing for a count of zero. -/
def term (n : Nat) (unit : String) : List String :=
  if n = 0 then [] else [toString n ++ unit]

/-- A count and its unit, in the plural above one. -/
def pluralTerm (n : Nat) (unit : String) : List String :=
  term n (if 1 < n then unit ++ "s" else unit)

/-- The span in years, months, days, hours and so on, `0s` for none. -/
def text (s : Span) : String :=
  let inYear := s.seconds % 31557600
  let inMonth := inYear % 2630016
  let inDay := inMonth % 86400
  let terms :=
    pluralTerm (s.seconds / 31557600) "year" ++ pluralTerm (inYear / 2630016) "month" ++
    pluralTerm (inMonth / 86400) "day" ++ term (inDay / 3600) "h" ++
    term (inDay % 3600 / 60) "m" ++ term (inDay % 60) "s" ++
    term (s.subsecond / 1_000_000) "ms" ++ term (s.subsecond / 1000 % 1000) "us" ++
    term (s.subsecond % 1000) "ns"
  if terms = [] then "0s" else " ".intercalate terms

end SwarmSampler.Span
