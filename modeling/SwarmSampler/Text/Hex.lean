import SwarmSampler.Text.Ascii

/-
Bytes as lower-case hexadecimal, two digits a byte, high half first.
-/

namespace SwarmSampler.Text

/-- The lower-case hexadecimal digit of a number below sixteen. -/
def hexDigit (n : Nat) : Char :=
  if n < 10 then Char.ofNat ('0'.toNat + n) else Char.ofNat ('a'.toNat + (n - 10))

def hexByte (b : UInt8) : List Char := [hexDigit (b.toNat / 16), hexDigit (b.toNat % 16)]

def hexBytes (bytes : List UInt8) : List Char := bytes.flatMap hexByte

/-- Reads digits of either case two at a time. -/
def bytesOfHex? : List Char → Option (List UInt8)
  | [] => some []
  | a :: b :: rest => do
    let high ← hexValue? a
    let low ← hexValue? b
    let bytes ← bytesOfHex? rest
    some (UInt8.ofNat (16 * high + low) :: bytes)
  | [_] => none

theorem length_hexBytes (bytes : List UInt8) : (hexBytes bytes).length = 2 * bytes.length := by
  induction bytes with
  | nil => rfl
  | cons b r ih =>
    have step : hexBytes (b :: r) = hexByte b ++ hexBytes r := rfl
    simp only [step, List.length_append, ih, hexByte, List.length_cons, List.length_nil]
    omega

end SwarmSampler.Text
