import SwarmSampler.Text.Hex

/-
JSON values. Numbers stay as they were written, so that reading them as
integers or as machine numbers is a separate step; fields stay in their order,
repeated ones included. A string whose escapes leave half of a surrogate pair
has no text: it may be skipped but not read.
-/

namespace SwarmSampler

/-- A number as written: digits, digits after the point if there is one, and an exponent. -/
structure Numeral where
  negative : Bool
  whole : List Char
  fraction : List Char
  exponent : Option Int
  deriving DecidableEq

def Numeral.ofInt (n : Int) : Numeral := ⟨n < 0, Nat.toDigits 10 n.natAbs, [], none⟩

inductive Json
  | null
  | bool (b : Bool)
  | number (n : Numeral)
  | string (s : Option String)
  | array (items : List Json)
  | object (fields : List (Option String × Json))

namespace Json

instance : Inhabited Json := ⟨.null⟩

/-- A piece of a string as written: a character, or an escaped unit of 16 bits. -/
inductive Piece
  | char (c : Char)
  | unit (n : Nat)

/-- The first half of a surrogate pair. -/
def isHighHalf (n : Nat) : Bool := 0xD800 ≤ n && n ≤ 0xDBFF

/-- The second half of a surrogate pair. -/
def isLowHalf (n : Nat) : Bool := 0xDC00 ≤ n && n ≤ 0xDFFF

/-- The character of a surrogate pair. -/
def joinHalves (high low : Nat) : Char :=
  Char.ofNat (0x10000 + (high - 0xD800) * 0x400 + (low - 0xDC00))

/-- The text of some pieces, none when half of a pair is left over. -/
def assemble? : List Piece → Option (List Char)
  | [] => some []
  | .char c :: rest => (assemble? rest).map (c :: ·)
  | .unit n :: .unit m :: rest =>
    if isHighHalf n then
      if isLowHalf m then (assemble? rest).map (joinHalves n m :: ·) else none
    else if isLowHalf n then none
    else (assemble? (.unit m :: rest)).map (Char.ofNat n :: ·)
  | .unit n :: rest =>
    if isHighHalf n || isLowHalf n then none else (assemble? rest).map (Char.ofNat n :: ·)

/-- A string that has a text. -/
def text (s : String) : Json := .string (some s)

def int (n : Int) : Json := .number (.ofInt n)

def record (fields : List (String × Json)) : Json :=
  .object (fields.map fun f => (some f.1, f.2))

/-- A value that may be missing, which is then `null`. -/
def optional {α : Type} (write : α → Json) : Option α → Json
  | none => .null
  | some x => write x

end Json

end SwarmSampler
