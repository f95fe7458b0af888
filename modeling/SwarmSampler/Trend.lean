import SwarmSampler.Sample

/-
The trend of a swarm from the totals of its ok samples, oldest first: growth
between the last two, its change over the last three, and a score from 0 to
100 that favours growing swarms with a history and with peers. Everything is
written over an arithmetic to be chosen, so that one definition serves machine
numbers and exact ones; only the weight of the peer count is a parameter.
-/

namespace SwarmSampler

/-- An arithmetic to compute trends in. -/
class Quantity (α : Type) extends Add α, Sub α, Mul α, Div α, Neg α where
  count : Nat → α
  less : α → α → Bool

namespace Trend

open Quantity

/-- The growth ascribed to a swarm that had no peers. -/
def growthFromZero : Nat := 100

/-- Below so many peers the score is capped. -/
def peerFloor : Nat := 5

/-- The cap of the score of small swarms. -/
def floorCap : Nat := 30

/-- Samples beyond so many add no confidence. -/
def sampleCap : Nat := 5

def peerSaturation : Nat := 100

def growthWeight : Nat := 60

def accelerationWeight : Nat := 40

section Arithmetic

variable {α : Type} [Quantity α]

/-- The growth from one total to the next in per cent. -/
def growthBetween (previous current : UInt32) : α :=
  if previous = 0 then
    if current = 0 then count 0 else count growthFromZero
  else
    (count current.toNat - count previous.toNat) / count previous.toNat * count 100

def growth? : List UInt32 → Option α
  | [] => none
  | [_] => none
  | [previous, current] => some (growthBetween previous current)
  | _ :: rest => growth? rest

/-- The change of growth over the last three totals. -/
def acceleration? : List UInt32 → Option α
  | [] => none
  | [_] => none
  | [_, _] => none
  | [first, second, third] => some (growthBetween second third - growthBetween first second)
  | _ :: rest => acceleration? rest

/-- The loss, zero for a growing swarm. -/
def shrink (growth : α) : α := if less (count 0) (-growth) then -growth else count 0

/-- The value kept within 0 and 1. -/
def unit (x : α) : α :=
  if less (count 0) x then if less (count 1) x then count 1 else x else count 0

def least (x y : α) : α := if less y x then y else x

/-- The value kept within 0 and 100. -/
def percent (x : α) : α :=
  if less x (count 0) then count 0 else least x (count 100)

/-- How much a history of so many totals is trusted: half at two, all from the cap on. -/
def sampleConfidence (samples : Nat) : α :=
  count 1 / count 2 +
    count 1 / count 2 * count (min samples sampleCap - 2) / count (sampleCap - 2)

/-- What growth and acceleration come to, at most 100. -/
def momentum (growth acceleration : α) : α :=
  count growthWeight * unit (growth / count 100) +
    count accelerationWeight * unit (acceleration / count 100)

/-- The score, given what the current number of peers weighs. -/
def score (peerConfidence : UInt32 → α) (totals : List UInt32) : α :=
  match growth? totals with
  | none => count 0
  | some growth =>
    let current := totals.getLastD 0
    let base := momentum growth ((acceleration? totals).getD (count 0))
    let s := percent (base * sampleConfidence totals.length * peerConfidence current)
    if current.toNat < peerFloor then least s (count floorCap) else s

end Arithmetic

end Trend

/-- A trend at one moment, over some number of ok samples. -/
structure Snapshot (α : Type) where
  growth : α
  shrink : α
  score : α
  samplesConsidered : UInt32

/-- A trend, or how many samples there were when they were too few. -/
inductive Reading (α : Type)
  | ready (snapshot : Snapshot α)
  | insufficient (samplesAvailable : UInt32)

namespace Reading

variable {α : Type}

def snapshot? : Reading α → Option (Snapshot α)
  | ready s => some s
  | insufficient _ => none

/-- The score, zero without a trend. -/
def score [Quantity α] (r : Reading α) : α :=
  match r with
  | ready s => s.score
  | insufficient _ => Quantity.count 0

def ofTotals [Quantity α] (peerConfidence : UInt32 → α) (totals : List UInt32) : Reading α :=
  match (Trend.growth? totals : Option α) with
  | none => insufficient (UInt32.ofNat totals.length)
  | some growth =>
    ready ⟨growth, Trend.shrink growth, Trend.score peerConfidence totals,
      UInt32.ofNat totals.length⟩

/-- The reading of a history, of which only ok samples count. -/
def ofSamples [Quantity α] (peerConfidence : UInt32 → α) (samples : List HealthSample) :
    Reading α :=
  ofTotals peerConfidence ((samples.filter (·.outcome == .ok)).map (·.totalPeers))

end Reading

instance : Quantity Float where
  count := Float.ofNat
  less x y := x < y

/-- The weight of a peer count in machine numbers: logarithmic, full from the saturation on. -/
def peerConfidence (peers : UInt32) : Float :=
  Trend.unit (Float.log10 (1 + Float.ofNat peers.toNat) /
    Float.log10 (1 + Float.ofNat Trend.peerSaturation))

abbrev MetricsSnapshot := Snapshot Float

abbrev MetricsReading := Reading Float

end SwarmSampler
