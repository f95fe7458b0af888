import SwarmSampler.Text.Ascii

/-
The number at the front of a text, as the store takes it. Only about nineteen
digits count, the others give the size alone. Powers of ten are multiplied in
with twice the digits of a machine number: as a head and a tail, whose sum is
rounded once at the end.
-/

namespace SwarmSampler.Store

/-- A machine number and the small one that its rounding left over. -/
structure Doubled where
  head : Float
  tail : Float

namespace Doubled

/-- The upper half of a machine number's digits, so that products of halves are exact. -/
def upperHalf (x : Float) : Float := Float.ofBits (x.toBits &&& 0xfffffffffc000000)

/-- The product with another number, itself given with what its rounding left over. -/
def times (x y : Doubled) : Doubled :=
  let hx := upperHalf x.head
  let tx := x.head - hx
  let hy := upperHalf y.head
  let ty := y.head - hy
  let p := hx * hy
  let q := hx * ty + tx * hy
  let c := p + q
  let cc := p - c + q + tx * ty
  let cc := x.head * y.tail + x.tail * y.head + cc
  let head := c + cc
  ⟨head, c - head + cc⟩

/-- The product with a number a few times over. -/
def timesOften (y : Doubled) : Nat → Doubled → Doubled
  | 0, x => x
  | n + 1, x => timesOften y n (x.times y)

/-- The product with a power of ten, in steps of a hundred, ten and one. -/
def scaled (x : Doubled) (power : Int) : Doubled :=
  let n := power.natAbs
  if 0 ≤ power then
    let x := timesOften ⟨1.0e100, -1.5902891109759918046e83⟩ (n / 100) x
    let x := timesOften ⟨1.0e10, 0⟩ (n % 100 / 10) x
    timesOften ⟨10, 0⟩ (n % 10) x
  else
    let x := timesOften ⟨1.0e-100, -1.99918998026028836196e-117⟩ (n / 100) x
    let x := timesOften ⟨1.0e-10, -3.6432197315497741579e-27⟩ (n % 100 / 10) x
    timesOften ⟨0.1, -5.5511151231257827021e-18⟩ (n % 10) x

def ofCount (n : UInt64) : Doubled :=
  let head := n.toFloat
  if head ≤ 18446744073709549568.0 then
    let back := head.toUInt64
    ⟨head, if back ≤ n then (n - back).toFloat else -(back - n).toFloat⟩
  else ⟨head, 0⟩

/-- The sum, rounded; what is no number any more was too great for one. -/
def round (x : Doubled) : Float :=
  let sum := x.head + x.tail
  if sum.isNaN then 1 / 0 else sum

end Doubled

/-- The number at the front of a text, as it is written. -/
structure Numeral where
  negative : Bool
  whole : List Char
  /-- The digits after a point, if there is one. -/
  fraction : Option (List Char)
  /-- Whether the exponent has a minus, and its digits, if there is an `e`. -/
  exponent : Option (Bool × List Char)
  /-- Whether nothing but blanks follows. -/
  complete : Bool

namespace Numeral

/-- A blank of the store's own kind. -/
def isBlank (c : Char) : Bool :=
  c == ' ' || c == '\t' || c == '\n' || c == '\x0b' || c == '\x0c' || c == '\r'

/-- Whether a sign is a minus, and the text after it. -/
def takeSign (s : List Char) : Bool × List Char :=
  match s with
  | '-' :: rest => (true, rest)
  | '+' :: rest => (false, rest)
  | s => (false, s)

def takeDigits (s : List Char) : List Char × List Char :=
  (s.takeWhile Text.isDigit, s.dropWhile Text.isDigit)

def ofText (s : List Char) : Numeral :=
  let (negative, s) := takeSign (s.dropWhile isBlank)
  let (whole, s) := takeDigits s
  let (fraction, s) :=
    match s with
    | '.' :: rest =>
      let (digits, rest) := takeDigits rest
      (some digits, rest)
    | s => (none, s)
  let (exponent, s) :=
    match s with
    | c :: rest =>
      if c == 'e' || c == 'E' then
        let (minus, rest) := takeSign rest
        let (digits, rest) := takeDigits rest
        (some (minus, digits), rest)
      else (none, s)
    | [] => (none, s)
  ⟨negative, whole, fraction, exponent, (s.dropWhile isBlank).isEmpty⟩

def digits (n : Numeral) : List Char := n.whole ++ n.fraction.getD []

def isPlain (n : Numeral) : Bool := n.fraction.isNone && n.exponent.isNone

/-- Whether an `e` without digits ends it. -/
def isCut (n : Numeral) : Bool := n.exponent.any (·.2.isEmpty)

def isNumber (n : Numeral) : Bool := n.complete && !n.digits.isEmpty && !n.isCut

/-- Whether the text counts as a real where one is needed: it has a point or an exponent, and both
if the exponent is cut. -/
def isReal (n : Numeral) : Bool :=
  !n.isPlain && !n.digits.isEmpty && (!n.isCut || n.fraction.isSome)

/-- The digits before the point as a whole number. -/
def wholeValue (n : Numeral) : Int :=
  if n.negative then -(Text.readDigits n.whole : Int) else Text.readDigits n.whole

/-- From here on a significand takes no more digits. -/
def significandLimit : Nat := 1_844_674_407_370_955_160

/-- Takes a digit before the point, or counts it when it no longer fits. -/
def pushWhole (x : Nat × Int) (c : Char) : Nat × Int :=
  if x.1 < significandLimit then (10 * x.1 + Text.digitValue c, x.2) else (x.1, x.2 + 1)

/-- Takes a digit after the point while it fits. -/
def pushFraction (x : Nat × Int) (c : Char) : Nat × Int :=
  if x.1 < significandLimit then (10 * x.1 + Text.digitValue c, x.2 - 1) else x

/-- The significand and the power of ten that the digits stand for. -/
def significand (n : Numeral) : Nat × Int :=
  (n.fraction.getD []).foldl pushFraction (n.whole.foldl pushWhole (0, 0))

/-- The value of an exponent's digits, which stops counting beyond five of them. -/
def exponentValue (digits : List Char) : Nat :=
  digits.foldl (fun e c => if e < 10000 then 10 * e + Text.digitValue c else 10000) 0

/-- Moves tens from a power of ten into the significand while they fit. -/
def absorb (s : Nat) : Nat → Nat × Nat
  | 0 => (s, 0)
  | n + 1 => if s < 1_844_674_407_370_954_956 then absorb (10 * s) n else (s, n + 1)

/-- Takes tens out of the significand against a negative power of ten. -/
def cancel (s : Nat) : Nat → Nat × Nat
  | 0 => (s, 0)
  | n + 1 => if s % 10 = 0 then cancel (s / 10) n else (s, n + 1)

/-- The size of the number as a machine number. -/
def magnitude (n : Numeral) : Float :=
  let (s, shift) := n.significand
  if s = 0 then 0
  else
    let power : Int :=
      match n.exponent with
      | some (minus, digits) =>
        if minus then shift - exponentValue digits else shift + exponentValue digits
      | none => shift
    let (s, power) : Nat × Int :=
      if 0 ≤ power then
        let (s, left) := absorb s power.toNat
        (s, left)
      else
        let (s, left) := cancel s power.natAbs
        (s, -left)
    ((Doubled.ofCount (UInt64.ofNat s)).scaled power).round

def real (n : Numeral) : Float := if n.negative then -n.magnitude else n.magnitude

end Numeral

end SwarmSampler.Store
