/-
Lengths of time. A span counts whole nanoseconds, fewer than make up the seconds
that 64 bits can count, so adding two can fail; a span's label shows it in the
largest unit that leaves a whole part, with as many decimals as it needs.

The timers that spans are waited for with go by whole milliseconds and never go
off early, so a span takes the time it has when it is rounded up to these. This
is said of timers that are set at a whole millisecond, as all of them are where
only timers make time pass.
-/

namespace SwarmSampler

/-- Spans stay below this many nanoseconds. -/
def spanLimit : Nat := 18_446_744_073_709_551_616_000_000_000

/-- A length of time in whole nanoseconds. -/
structure Span where
  nanos : Nat
  nanos_lt : nanos < spanLimit
  deriving DecidableEq

namespace Span

/-- The span of a number of nanoseconds, none beyond the limit. -/
def ofNanos? (n : Nat) : Option Span :=
  if h : n < spanLimit then some ⟨n, h⟩ else none

/-- The span of a number of milliseconds given in 64 bits. -/
def ofMillis (n : UInt64) : Span :=
  ⟨n.toNat * 1_000_000, by
    have := n.toNat_lt
    unfold spanLimit
    omega⟩

def zero : Span := ⟨0, by decide⟩

instance : Inhabited Span := ⟨zero⟩

def seconds (s : Span) : Nat := s.nanos / 1_000_000_000

/-- Nanoseconds past the last whole second. -/
def subsecond (s : Span) : Nat := s.nanos % 1_000_000_000

/-- The span of whole seconds and nanoseconds, none beyond the limit. -/
def ofParts? (seconds nanos : Nat) : Option Span := ofNanos? (seconds * 1_000_000_000 + nanos)

/-- The sum, none beyond the limit. -/
def add? (a b : Span) : Option Span := ofNanos? (a.nanos + b.nanos)

/-- Nanoseconds rounded up to whole milliseconds. -/
def wholeMillis (n : Nat) : Nat := if n % 1_000_000 = 0 then n else (n / 1_000_000 + 1) * 1_000_000

/-- The nanoseconds after which a timer goes off that is set to a span. -/
def timer (s : Span) : Nat := wholeMillis s.nanos

/-- No wait takes more than this many nanoseconds, which are thirty years of 365 days. -/
def longestWait : Nat := 946_080_000_000_000_000

/-- The nanoseconds a wait for a span takes, which is cut where its timer would run for longer than any wait. -/
def wait (s : Span) : Nat := min s.timer longestWait

def longer (a b : Span) : Span := if a.nanos ≤ b.nanos then b else a

instance : LE Span := ⟨fun a b => a.nanos ≤ b.nanos⟩
instance : LT Span := ⟨fun a b => a.nanos < b.nanos⟩
instance (a b : Span) : Decidable (a ≤ b) := inferInstanceAs (Decidable (a.nanos ≤ b.nanos))
instance (a b : Span) : Decidable (a < b) := inferInstanceAs (Decidable (a.nanos < b.nanos))

theorem wholeMillis_eq (n : Nat) : wholeMillis n = (n + 999_999) / 1_000_000 * 1_000_000 := by
  unfold wholeMillis
  split <;> omega

theorem wholeMillis_mono {a b : Nat} (h : a ≤ b) : wholeMillis a ≤ wholeMillis b := by
  rw [wholeMillis_eq, wholeMillis_eq]
  omega

theorem wholeMillis_add_mul (n k : Nat) : wholeMillis (n + k * 1_000_000) = wholeMillis n + k * 1_000_000 := by
  rw [wholeMillis_eq, wholeMillis_eq]
  omega

theorem wait_of_nanos_eq_zero {s : Span} (h : s.nanos = 0) : s.wait = 0 := by
  rw [wait, timer, h]
  rfl

theorem ext_nanos {a b : Span} (h : a.nanos = b.nanos) : a = b := by
  cases a; cases b; simp_all

theorem ofNanos?_nanos (s : Span) : ofNanos? s.nanos = some s := by
  simp [ofNanos?, s.nanos_lt]

theorem ofNanos?_of_lt {n : Nat} (h : n < spanLimit) : ofNanos? n = some ⟨n, h⟩ := dif_pos h

theorem ofNanos?_eq_none_iff {n : Nat} : ofNanos? n = none ↔ spanLimit ≤ n := by
  simp [ofNanos?]

theorem nanos_of_add? {a b c : Span} (h : a.add? b = some c) : c.nanos = a.nanos + b.nanos := by
  unfold add? ofNanos? at h
  split at h
  · cases h
    rfl
  · cases h

/-- A timer goes off no later than one that is set to more. -/
theorem timer_le_of_add? {a b c : Span} (h : a.add? b = some c) : a.timer ≤ c.timer :=
  wholeMillis_mono (nanos_of_add? h ▸ Nat.le_add_right a.nanos b.nanos)

theorem longer_nanos (a b : Span) : (a.longer b).nanos = max a.nanos b.nanos := by
  unfold longer
  split <;> omega

theorem not_lt {a b : Span} : ¬ a < b ↔ b ≤ a := Nat.not_lt

/-- The decimals of `part` out of ten to the `places`, without trailing zeros. -/
def decimals (places part : Nat) : String :=
  let digits := (Nat.toDigits 10 part)
  let padded := List.replicate (places - digits.length) '0' ++ digits
  String.ofList (padded.reverse.dropWhile (· == '0')).reverse

/-- A whole part, and a point with decimals if there are any. -/
def decimalText (whole places part : Nat) : String :=
  if part = 0 then toString whole else toString whole ++ "." ++ decimals places part

/-- The span in the largest unit that leaves a whole part. -/
def label (s : Span) : String :=
  let n := s.nanos
  if 1_000_000_000 ≤ n then decimalText (n / 1_000_000_000) 9 (n % 1_000_000_000) ++ "s"
  else if 1_000_000 ≤ n then decimalText (n / 1_000_000) 6 (n % 1_000_000) ++ "ms"
  else if 1000 ≤ n then decimalText (n / 1000) 3 (n % 1000) ++ "µs"
  else toString n ++ "ns"

end Span

end SwarmSampler
