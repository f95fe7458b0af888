import SwarmSampler.Time.Date

/-
Instants of the calendar: seconds since 1970 and nanoseconds into the second,
within the years -262143 to 262142. A leap second is the second before it with
a full second of nanoseconds on top, and stands at the end of a minute only.
-/

namespace SwarmSampler

/-- The first second of the year -262143. -/
def firstSecond : Int := -8334601228800

/-- The last second of the year 262142. -/
def lastSecond : Int := 8210266876799

/-- An instant of the calendar. -/
structure Stamp where
  second : Int
  nano : Nat
  second_range : firstSecond ≤ second ∧ second ≤ lastSecond
  nano_range : nano < 1_000_000_000 ∨ nano < 2_000_000_000 ∧ second % 60 = 59
  deriving DecidableEq

namespace Stamp

/-- The instant of seconds and nanoseconds, none outside the calendar's range. -/
def ofParts? (second : Int) (nano : Nat) : Option Stamp :=
  if h : (firstSecond ≤ second ∧ second ≤ lastSecond) ∧
      (nano < 1_000_000_000 ∨ nano < 2_000_000_000 ∧ second % 60 = 59) then
    some ⟨second, nano, h.1, h.2⟩
  else none

/-- The instant of milliseconds since 1970, none outside the calendar's range. -/
def ofMillis? (ms : Int) : Option Stamp :=
  ofParts? (ms / 1000) ((ms % 1000).toNat * 1_000_000)

/-- Milliseconds since 1970, rounded down. -/
def toMillis (s : Stamp) : Int := s.second * 1000 + (s.nano / 1_000_000 : Nat)

def epoch : Stamp := ⟨0, 0, by decide, by decide⟩

instance : Inhabited Stamp := ⟨epoch⟩

/-- The instant a number of nanoseconds later, none outside the calendar's range. -/
def later? (s : Stamp) (nanos : Nat) : Option Stamp :=
  ofParts? (s.second + ((s.nano + nanos) / 1_000_000_000 : Nat)) ((s.nano + nanos) % 1_000_000_000)

theorem ofParts?_self (s : Stamp) : ofParts? s.second s.nano = some s :=
  dif_pos ⟨s.second_range, s.nano_range⟩

end Stamp

end SwarmSampler
