import SwarmSampler.Json.Value

/-
Numbers of JSON as machine numbers. A numeral without point and exponent is an
integer if it fits 64 bits. Otherwise the leading digits that fit 64 bits are
taken, digits beyond only shift the exponent or are dropped, and the power of
ten is applied in one multiplication or division; so the last bit may differ
from the nearest number.
-/

namespace SwarmSampler.Numeral

/-- Digits are gathered in 64 bits. -/
def significandLimit : Nat := 18_446_744_073_709_551_616

/-- Digits gathered so far, the power of ten they stand at, and whether they are full. -/
structure Gathered where
  significand : Nat
  shift : Int
  full : Bool

/-- One more digit before the point: once full, it only shifts. -/
def gatherWhole (g : Gathered) (c : Char) : Gathered :=
  let next := 10 * g.significand + Text.digitValue c
  if g.full || significandLimit ≤ next then ⟨g.significand, g.shift + 1, true⟩
  else ⟨next, g.shift, false⟩

/-- One more digit after the point: once full, it is dropped. -/
def gatherFraction (g : Gathered) (c : Char) : Gathered :=
  let next := 10 * g.significand + Text.digitValue c
  if g.full || significandLimit ≤ next then ⟨g.significand, g.shift, true⟩
  else ⟨next, g.shift - 1, false⟩

/-- All digits; the ones after the point start over in filling up. -/
def gather (n : Numeral) : Gathered :=
  let whole := n.whole.foldl gatherWhole ⟨0, 0, false⟩
  n.fraction.foldl gatherFraction ⟨whole.significand, whole.shift, false⟩

def powerOfTen (n : Nat) : Float := OfScientific.ofScientific 1 false n

/-- Applies a power of ten, in steps of the largest one when it is too small. None if the
number grows beyond the machine's range. -/
def scaled? : Nat → Float → Int → Option Float
  | 0, x, _ => some x
  | fuel + 1, x, e =>
    if e.natAbs ≤ 308 then
      if 0 ≤ e then
        let y := x * powerOfTen e.natAbs
        if y.isInf then none else some y
      else some (x / powerOfTen e.natAbs)
    else if x == 0 then some x
    else if 0 ≤ e then none
    else scaled? fuel (x / powerOfTen 308) (e + 308)

/-- The integer a numeral without point and exponent stands for, if it fits 64 bits and is not
zero with a sign. -/
def toInt? (n : Numeral) : Option Int :=
  if n.fraction ≠ [] ∨ n.exponent ≠ none then none
  else
    let size := Text.readDigits n.whole
    if n.negative then
      if 0 < size ∧ size ≤ 9_223_372_036_854_775_808 then some (-(size : Int)) else none
    else if size < significandLimit then some size
    else none

/-- The machine number, none beyond the range. Four steps of the largest power make any
significand zero. -/
def toFloat? (n : Numeral) : Option Float :=
  let g := n.gather
  let shift := g.shift + n.exponent.getD 0
  (scaled? 5 (UInt64.ofNat g.significand).toFloat shift).map fun x =>
    if n.negative then -x else x

end SwarmSampler.Numeral
