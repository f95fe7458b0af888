import SwarmSampler.Json.Value

/-
Reading JSON text. The grammar is the strict one: no comments, no comma at the
end, no control character inside a string, no digit after a leading zero, and
nothing but blanks after the value.
-/

namespace SwarmSampler.Json

def isSpace (c : Char) : Bool := c == ' ' || c == '\n' || c == '\r' || c == '\t'

def skipSpace (s : List Char) : List Char := s.dropWhile isSpace

/-- What a single letter after a backslash stands for. -/
def escape? (c : Char) : Option Char :=
  if c == '"' then some '"'
  else if c == '\\' then some '\\'
  else if c == '/' then some '/'
  else if c == 'b' then some '\x08'
  else if c == 'f' then some '\x0c'
  else if c == 'n' then some '\n'
  else if c == 'r' then some '\r'
  else if c == 't' then some '\t'
  else none

def unit? (a b c d : Char) : Option Nat := do
  let a ← Text.hexValue? a
  let b ← Text.hexValue? b
  let c ← Text.hexValue? c
  let d ← Text.hexValue? d
  some (a * 4096 + b * 256 + c * 16 + d)

/-- Reads the pieces of a string up to its closing quote. -/
def readPieces : List Char → Option (List Piece × List Char)
  | [] => none
  | '"' :: rest => some ([], rest)
  | '\\' :: 'u' :: a :: b :: c :: d :: rest => do
    let n ← unit? a b c d
    let (pieces, rest) ← readPieces rest
    some (.unit n :: pieces, rest)
  | '\\' :: c :: rest => do
    let c ← escape? c
    let (pieces, rest) ← readPieces rest
    some (.char c :: pieces, rest)
  | c :: rest =>
    if c.toNat < 0x20 || c == '\\' then none
    else do
      let (pieces, rest) ← readPieces rest
      some (.char c :: pieces, rest)

def readString (s : List Char) : Option (Option String × List Char) := do
  let (pieces, rest) ← readPieces s
  some ((assemble? pieces).map String.ofList, rest)

def readDigits1 (s : List Char) : Option (List Char × List Char) :=
  let digits := s.takeWhile Text.isDigit
  if digits.isEmpty then none else some (digits, s.dropWhile Text.isDigit)

/-- Reads the digits before the point: a zero alone, or digits that start with another one. -/
def readWhole (s : List Char) : Option (List Char × List Char) := do
  let (digits, rest) ← readDigits1 s
  if digits.head? == some '0' && 1 < digits.length then none else some (digits, rest)

/-- Reads a point and digits, nothing if no point stands here. -/
def readFraction : List Char → Option (List Char × List Char)
  | '.' :: rest => readDigits1 rest
  | s => some ([], s)

/-- Reads an exponent, nothing if none stands here. -/
def readExponent : List Char → Option (Option Int × List Char)
  | [] => some (none, [])
  | c :: rest =>
    if c == 'e' || c == 'E' then
      match rest with
      | '-' :: rest => do
        let (digits, rest) ← readDigits1 rest
        some (some (-(Text.readDigits digits : Int)), rest)
      | '+' :: rest => do
        let (digits, rest) ← readDigits1 rest
        some (some (Text.readDigits digits : Int), rest)
      | rest => do
        let (digits, rest) ← readDigits1 rest
        some (some (Text.readDigits digits : Int), rest)
    else some (none, c :: rest)

def readUnsigned (negative : Bool) (s : List Char) : Option (Numeral × List Char) := do
  let (whole, s) ← readWhole s
  let (fraction, s) ← readFraction s
  let (exponent, s) ← readExponent s
  some (⟨negative, whole, fraction, exponent⟩, s)

def readNumeral : List Char → Option (Numeral × List Char)
  | '-' :: rest => readUnsigned true rest
  | s => readUnsigned false s

def readName (s : List Char) : Option (Option String × List Char) :=
  match skipSpace s with
  | '"' :: rest => do
    let (name, rest) ← readString rest
    match skipSpace rest with
    | ':' :: rest => some (name, rest)
    | _ => none
  | _ => none

mutual

/-- Reads a value; fuel bounds the number of steps. -/
def readValue : Nat → List Char → Option (Json × List Char)
  | 0, _ => none
  | fuel + 1, s =>
    match skipSpace s with
    | 'n' :: 'u' :: 'l' :: 'l' :: rest => some (.null, rest)
    | 't' :: 'r' :: 'u' :: 'e' :: rest => some (.bool true, rest)
    | 'f' :: 'a' :: 'l' :: 's' :: 'e' :: rest => some (.bool false, rest)
    | '"' :: rest => do
      let (text, rest) ← readString rest
      some (.string text, rest)
    | '[' :: rest =>
      match skipSpace rest with
      | ']' :: rest => some (.array [], rest)
      | rest => do
        let (items, rest) ← readItems fuel rest
        some (.array items, rest)
    | '\x7b' :: rest =>
      match skipSpace rest with
      | '\x7d' :: rest => some (.object [], rest)
      | rest => do
        let (fields, rest) ← readFields fuel rest
        some (.object fields, rest)
    | rest => do
      let (n, rest) ← readNumeral rest
      some (.number n, rest)

def readItems : Nat → List Char → Option (List Json × List Char)
  | 0, _ => none
  | fuel + 1, s => do
    let (item, s) ← readValue fuel s
    match skipSpace s with
    | ']' :: rest => some ([item], rest)
    | ',' :: rest => do
      let (items, rest) ← readItems fuel rest
      some (item :: items, rest)
    | _ => none

def readFields : Nat → List Char → Option (List (Option String × Json) × List Char)
  | 0, _ => none
  | fuel + 1, s => do
    let (name, s) ← readName s
    let (value, s) ← readValue fuel s
    match skipSpace s with
    | '\x7d' :: rest => some ([(name, value)], rest)
    | ',' :: rest => do
      let (fields, rest) ← readFields fuel rest
      some ((name, value) :: fields, rest)
    | _ => none

end

/-- Reads a whole text as one value. Every step consumes a character, so the fuel suffices. -/
def read? (text : String) : Option Json :=
  let s := text.toList
  match readValue (2 * s.length + 1) s with
  | some (value, rest) => if (skipSpace rest).isEmpty then some value else none
  | none => none

/-- Fields up to the last, or up to the first that cannot be read or whose name has no text. -/
def leadingFields : Nat → List Char → List (Option String × Json)
  | 0, _ => []
  | fuel + 1, s =>
    match readName s with
    | some (some name, s) =>
      match readValue fuel s with
      | none => []
      | some (value, s) =>
        match skipSpace s with
        | ',' :: rest => (some name, value) :: leadingFields fuel rest
        | _ => [(some name, value)]
    | _ => []

/-- Items up to the last, or up to the first that cannot be read. -/
def leadingItems : Nat → List Char → List Json
  | 0, _ => []
  | fuel + 1, s =>
    match readValue fuel s with
    | none => []
    | some (value, s) =>
      match skipSpace s with
      | ',' :: rest => value :: leadingItems fuel rest
      | _ => [value]

/-- What can be read of an object or an array before the first mistake. -/
def leading (text : String) : Json :=
  match skipSpace text.toList with
  | '\x7b' :: rest => .object (leadingFields (2 * rest.length + 1) rest)
  | '[' :: rest => .array (leadingItems (2 * rest.length + 1) rest)
  | _ => .null

end SwarmSampler.Json
