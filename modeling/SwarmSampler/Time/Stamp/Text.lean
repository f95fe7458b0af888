import SwarmSampler.Text.Ascii
import SwarmSampler.Text.Blank
import SwarmSampler.Text.Utf8
import SwarmSampler.Time.Stamp

/-
Instants as text in the form of RFC 3339, as in `2025-01-01T00:00:00.500Z`.
Written are 0, 3, 6 or 9 decimals, the fewest that are exact, and a sign on
years outside 0 to 9999. Two readers differ in strictness: `read` takes the
form alone, as rows of the store hold it; `readLoose` also takes shorter
numbers, signed years, blanks between the parts and `UTC`.
-/

namespace SwarmSampler.Stamp

/-- A number in decimal, at least so many digits wide. -/
def padded (width n : Nat) : String :=
  let digits := Nat.toDigits 10 n
  String.ofList (List.replicate (width - digits.length) '0' ++ digits)

/-- A year in four digits, or with a sign when it has no four. -/
def yearText (y : Int) : String :=
  if 0 ≤ y ∧ y ≤ 9999 then padded 4 y.toNat
  else (if y < 0 then "-" else "+") ++ padded 4 y.natAbs

/-- The fewest of 0, 3, 6 or 9 decimals that are exact. -/
def decimalsText (nano : Nat) : String :=
  if nano = 0 then ""
  else if nano % 1_000_000 = 0 then "." ++ padded 3 (nano / 1_000_000)
  else if nano % 1000 = 0 then "." ++ padded 6 (nano / 1000)
  else "." ++ padded 9 nano

/-- The instant as text, with a given spelling of the offset zero. -/
def textWith (offset : String) (s : Stamp) : String :=
  let date := Date.ofDays (s.second / 86400)
  let inDay := (s.second % 86400).toNat
  yearText date.year ++ "-" ++ padded 2 date.month ++ "-" ++ padded 2 date.day ++ "T" ++
    padded 2 (inDay / 3600) ++ ":" ++ padded 2 (inDay / 60 % 60) ++ ":" ++
    padded 2 (inDay % 60 + s.nano / 1_000_000_000) ++ decimalsText (s.nano % 1_000_000_000) ++ offset

/-- The form of documents, with `Z`. -/
def text (s : Stamp) : String := s.textWith "Z"

/-- The form of stored rows, with `+00:00`. -/
def storedText (s : Stamp) : String := s.textWith "+00:00"

/-- Why a text is no instant. -/
inductive Fault
  | outOfRange | impossible | invalid | tooShort | tooLong
  deriving DecidableEq

def Fault.message : Fault → String
  | outOfRange => "input is out of range"
  | impossible => "no possible date and time matching input"
  | invalid => "input contains invalid characters"
  | tooShort => "premature end of input"
  | tooLong => "trailing input"

/-- A step of reading: takes from the front of the text. -/
abbrev Scan (α : Type) := StateT (List Char) (Except Fault) α

/-- A number of at least `least` and at most `most` digits, kept within 63 bits. A text of fewer
bytes than that is short, whatever it holds. -/
def number (least most : Nat) : Scan Nat := do
  let s ← get
  if Text.byteLength s < least then throw .tooShort
  let digits := (s.take most).takeWhile Text.isDigit
  if 9_223_372_036_854_775_808 ≤ Text.readDigits digits then throw .outOfRange
  if digits.length < least then throw .invalid
  set (s.drop digits.length)
  return Text.readDigits digits

def mark (c : Char) : Scan Unit := do
  match ← get with
  | [] => throw .tooShort
  | d :: rest => if d = c then set rest else throw .invalid

def bounded (scan : Scan Nat) (low high : Nat) : Scan Nat := do
  let n ← scan
  if n < low ∨ high < n then throw .outOfRange
  return n

/-- Decimals of a second in nanoseconds; from the tenth digit on they are dropped. -/
def decimals : Scan Nat := do
  let before ← get
  let n ← number 1 9
  let after ← get
  set (after.dropWhile Text.isDigit)
  return n * Nat.pow 10 (9 - (before.length - after.length))

/-- A point and decimals, zero if no point stands here. -/
def fraction : Scan Nat := do
  match ← get with
  | '.' :: rest => set rest; decimals
  | _ => return 0

def dateEnd : Scan Unit := do
  match ← get with
  | [] => throw .tooShort
  | c :: rest => if c = 't' ∨ c = 'T' ∨ c = ' ' then set rest else throw .invalid

/-- Two digits of an offset: the first two bytes have to be digits. -/
def offsetDigits? (s : List Char) : Except Fault (Nat × Nat) :=
  if Text.byteLength s < 2 then .error .tooShort
  else
    match s with
    | a :: b :: _ =>
      if Text.isDigit a && Text.isDigit b then .ok (Text.digitValue a, Text.digitValue b)
      else .error .invalid
    | _ => .error .invalid

def offsetMinutes : Scan Nat := do
  let s ← get
  match offsetDigits? s with
  | .error f => throw f
  | .ok (a, b) =>
    if 6 ≤ a then throw .outOfRange
    set (s.drop 2)
    return 10 * a + b

/-- An offset in seconds: `Z`, or a sign, two digits, a separator and minutes. -/
def offset (separator : Scan Unit) : Scan Int := do
  match ← get with
  | [] => throw .tooShort
  | c :: rest =>
    if c = 'Z' ∨ c = 'z' then
      set rest
      return 0
    if c ≠ '+' ∧ c ≠ '-' ∧ c ≠ '\u2212' then throw .invalid
    match offsetDigits? rest with
    | .error f => throw f
    | .ok (a, b) =>
      set (rest.drop 2)
      separator
      let minutes ← offsetMinutes
      let seconds : Int := ((10 * a + b) * 3600 + minutes * 60 : Nat)
      return if c = '+' then seconds else -seconds

/-- The parts of an instant as they stand in the text. -/
structure Parts where
  date : Date
  hour : Nat
  minute : Nat
  second : Nat
  nano : Nat
  offset : Int

/-- The instant of parts each in its own range. -/
def ofParts (p : Parts) : Except Fault Stamp := do
  if p.date.year < -262143 ∨ 262142 < p.date.year ∨ ¬ p.date.Exists then throw .outOfRange
  if p.offset ≤ -86400 ∨ 86400 ≤ p.offset then throw .outOfRange
  let second := if p.second = 60 then 59 else p.second
  let nano := if p.second = 60 then p.nano + 1_000_000_000 else p.nano
  let total := p.date.toDays * 86400 + (p.hour * 3600 + p.minute * 60 + second : Nat) - p.offset
  match Stamp.ofParts? total nano with
  | some s => return s
  | none => throw .impossible

/-- Runs a scan over a text. -/
def Scan.over {α : Type} (scan : Scan α) (text : String) : Except Fault (α × List Char) :=
  StateT.run scan text.toList

def digits (n : Nat) : Scan Nat := number n n

/-- The date and the time to the second in the strict form, the date's own faults first. -/
def strictSecond : Scan (Date × Nat × Nat × Nat) := do
  let year ← digits 4
  mark '-'
  let month ← digits 2
  mark '-'
  let day ← digits 2
  let date : Date := ⟨year, month, day⟩
  if ¬ date.Exists then throw .outOfRange
  dateEnd
  let hour ← digits 2
  mark ':'
  let minute ← digits 2
  mark ':'
  let second ← digits 2
  return (date, hour, minute, second)

/-- The parts in the strict form. A text too short for a date and a time is short whatever it
holds, and the time's range is looked at once all of it is read. -/
def strictParts : Scan Parts := do
  if Text.byteLength (← get) < 19 then throw .tooShort
  let (date, hour, minute, second) ← strictSecond
  let nano ← fraction
  if 23 < hour ∨ 59 < minute ∨ 60 < second then throw .outOfRange
  return ⟨date, hour, minute, second, nano, ← offset (mark ':')⟩

def read (text : String) : Except Fault Stamp := do
  let (parts, rest) ← strictParts.over text
  if rest ≠ [] then throw .tooLong
  ofParts parts

def blanks : Scan Unit := modify Text.trimStartList

/-- A year of up to four digits, or of any number of digits after a sign. -/
def looseYear : Scan Int := do
  blanks
  let s ← get
  let year : Int ←
    match s with
    | '-' :: rest => do set rest; let n ← number 1 s.length; pure (-(n : Int))
    | '+' :: rest => do set rest; let n ← number 1 s.length; pure (n : Int)
    | _ => do let n ← number 1 4; pure (n : Int)
  if year < -2_147_483_648 ∨ 2_147_483_648 ≤ year then throw .outOfRange
  return year

/-- A number of one or two digits after blanks. -/
def looseNumber : Scan Nat := do
  blanks
  number 1 2

def looseMark (c : Char) : Scan Unit := do
  blanks
  mark c

/-- An offset, or the word `UTC`. -/
def looseOffset : Scan Int := do
  let s ← get
  if Text.sameFolded (s.take 3) ['u', 't', 'c'] then
    set (s.drop 3)
    return 0
  offset (modify fun t => t.dropWhile fun c => c == ':' || Text.isBlank c)

def looseParts : Scan Parts := do
  let year ← looseYear
  looseMark '-'
  let month ← bounded looseNumber 1 12
  looseMark '-'
  let day ← bounded looseNumber 1 31
  dateEnd
  let hour ← bounded looseNumber 0 23
  looseMark ':'
  let minute ← bounded looseNumber 0 59
  looseMark ':'
  let second ← bounded looseNumber 0 60
  let nano ← fraction
  blanks
  let off ← looseOffset
  return ⟨⟨year, month, day⟩, hour, minute, second, nano, off⟩

/-- Reads the loose form; blanks may follow. -/
def readLoose (text : String) : Except Fault Stamp := do
  let (parts, rest) ← looseParts.over text
  if Text.trimStartList rest ≠ [] then throw .tooLong
  ofParts parts

end SwarmSampler.Stamp
