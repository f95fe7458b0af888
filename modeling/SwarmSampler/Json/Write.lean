import SwarmSampler.Json.Value

/-
Writing JSON without blanks. Quotes, backslashes and control characters are
escaped, everything else stands for itself.
-/

namespace SwarmSampler.Json

def escaped (c : Char) : List Char :=
  if c == '"' then ['\\', '"']
  else if c == '\\' then ['\\', '\\']
  else if c == '\n' then ['\\', 'n']
  else if c == '\r' then ['\\', 'r']
  else if c == '\t' then ['\\', 't']
  else if c == '\x08' then ['\\', 'b']
  else if c == '\x0c' then ['\\', 'f']
  else if c.toNat < 0x20 then
    ['\\', 'u', '0', '0', Text.hexDigit (c.toNat / 16), Text.hexDigit (c.toNat % 16)]
  else [c]

def writeString (s : String) : List Char := '"' :: s.toList.flatMap escaped ++ ['"']

def writeInt (n : Int) : List Char :=
  if n < 0 then '-' :: Nat.toDigits 10 n.natAbs else Nat.toDigits 10 n.natAbs

/-- A number as it was written, the exponent without a plus. -/
def writeNumeral (n : Numeral) : List Char :=
  (if n.negative then ['-'] else []) ++ n.whole ++
    (if n.fraction.isEmpty then [] else '.' :: n.fraction) ++
    (match n.exponent with
     | none => []
     | some e => 'e' :: writeInt e)

mutual

/-- A value as text; a string without a text is written empty. -/
def writeList : Json → List Char
  | .null => "null".toList
  | .bool true => "true".toList
  | .bool false => "false".toList
  | .number n => writeNumeral n
  | .string s => writeString (s.getD "")
  | .array [] => ['[', ']']
  | .array (item :: items) => '[' :: writeList item ++ writeItems items
  | .object [] => ['\x7b', '\x7d']
  | .object ((name, value) :: fields) =>
    '\x7b' :: writeString (name.getD "") ++ ':' :: writeList value ++ writeFields fields

def writeItems : List Json → List Char
  | [] => [']']
  | item :: items => ',' :: writeList item ++ writeItems items

def writeFields : List (Option String × Json) → List Char
  | [] => ['\x7d']
  | (name, value) :: fields =>
    ',' :: writeString (name.getD "") ++ ':' :: writeList value ++ writeFields fields

end

def write (v : Json) : String := String.ofList v.writeList

end SwarmSampler.Json
