/-
The letters and digits of ASCII, and nothing beyond it: a character outside
ASCII is in none of these classes and no case map moves it.
-/

namespace SwarmSampler.Text

def isDigit (c : Char) : Bool := '0' ≤ c && c ≤ '9'

def isLower (c : Char) : Bool := 'a' ≤ c && c ≤ 'z'

def isUpper (c : Char) : Bool := 'A' ≤ c && c ≤ 'Z'

def isLetter (c : Char) : Bool := isLower c || isUpper c

def isHexDigit (c : Char) : Bool :=
  isDigit c || ('a' ≤ c && c ≤ 'f') || ('A' ≤ c && c ≤ 'F')

def lower (c : Char) : Char := if isUpper c then Char.ofNat (c.toNat + 32) else c

def upper (c : Char) : Char := if isLower c then Char.ofNat (c.toNat - 32) else c

def digitValue (c : Char) : Nat := c.toNat - '0'.toNat

/-- The value of a hexadecimal digit, none for another character. -/
def hexValue? (c : Char) : Option Nat :=
  if isDigit c then some (c.toNat - '0'.toNat)
  else if 'a' ≤ c && c ≤ 'f' then some (c.toNat - 'a'.toNat + 10)
  else if 'A' ≤ c && c ≤ 'F' then some (c.toNat - 'A'.toNat + 10)
  else none

/-- Equal up to the case of ASCII letters. -/
def sameFolded (a b : List Char) : Bool := a.map lower == b.map lower

/-- Reads decimal digits as a number; any text of digits is accepted, the empty one is zero. -/
def readDigits (digits : List Char) : Nat :=
  digits.foldl (fun n c => 10 * n + digitValue c) 0

/-- The rest after an exact prefix, none if the text does not start with it. -/
def dropPrefix? : List Char → List Char → Option (List Char)
  | [], rest => some rest
  | _ :: _, [] => none
  | p :: ps, c :: cs => if p = c then dropPrefix? ps cs else none

theorem dropPrefix?_append (p s : List Char) : dropPrefix? p (p ++ s) = some s := by
  induction p with
  | nil => cases s <;> rfl
  | cons c r ih => simp [dropPrefix?, ih]

theorem eq_append_of_dropPrefix? {p s rest : List Char} (h : dropPrefix? p s = some rest) :
    s = p ++ rest := by
  induction p generalizing s with
  | nil => simp [dropPrefix?] at h; simp [h]
  | cons c r ih =>
    cases s with
    | nil => simp [dropPrefix?] at h
    | cons d t =>
      by_cases hc : c = d
      · subst hc
        simp [dropPrefix?] at h
        simp [ih h]
      · simp [dropPrefix?, hc] at h

end SwarmSampler.Text
