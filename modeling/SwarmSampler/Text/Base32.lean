import SwarmSampler.Text.Ascii

/-
Base 32 with the alphabet A to Z, 2 to 7. Only whole groups are read: eight
digits carry five bytes, so a text whose length is no multiple of eight, or
that holds another character, is refused.
-/

namespace SwarmSampler.Text.Base32

/-- The value of a digit, none outside the alphabet. Digits are capitals. -/
def value? (c : Char) : Option Nat :=
  if isUpper c then some (c.toNat - 'A'.toNat)
  else if '2' ≤ c && c ≤ '7' then some (c.toNat - '2'.toNat + 26)
  else none

/-- The five bytes of forty bits, the highest first. -/
def bytesOfGroup (n : Nat) : List UInt8 :=
  [n >>> 32, n >>> 24, n >>> 16, n >>> 8, n].map fun k => UInt8.ofNat (k % 256)

/-- Eight digits as one number of forty bits. -/
def group (digits : List Nat) : Nat := digits.foldl (fun n d => 32 * n + d) 0

/-- Reads digit values eight at a time. -/
def bytesOfValues? : List Nat → Option (List UInt8)
  | [] => some []
  | a :: b :: c :: d :: e :: f :: g :: h :: rest =>
    (bytesOfValues? rest).map (bytesOfGroup (group [a, b, c, d, e, f, g, h]) ++ ·)
  | _ => none

/-- The bytes a text of whole groups stands for. -/
def decode? (text : List Char) : Option (List UInt8) :=
  (text.mapM value?).bind bytesOfValues?

end SwarmSampler.Text.Base32
