import SwarmSampler.Proofs.Check.Pursuit
import SwarmSampler.Proofs.Check.Verdict

/-
Attempts in a row, told apart from the check that makes them: each is put to the
client as it is after the ones before it, and begins a pause after the end of
the last. `exists_trials` finds the attempts of a check: those up to the first
that decides, to the last of the budget, or to a breakdown of the client.
`pursue_of_trials` says that a check that is not cancelled makes just these.
-/

namespace SwarmSampler

variable {κ τ : Type} [SwarmClient κ τ]

/-- An attempt: when it begins and ends, and what it brings. -/
structure Trial where
  startedAt : Nat
  endedAt : Nat
  result : QueryResult

/-- How an attempt goes that is put to a client at an instant. -/
inductive Trial.Goes (magnet : String) (policy : RetryPolicy) (now : Nat) (client : κ) :
    Trial → κ → Prop
  /-- The client answers by the deadline. -/
  | answered {query : Query τ} {client' : κ} {age : Nat}
      (ask : SwarmClient.ask now magnet policy.queryTimeout client = (.underway query, client'))
      (takes : query.takes = some age) (inTime : age ≤ policy.attemptDeadline.timer) :
      Goes magnet policy now client ⟨now, now + age, query.result⟩
        (SwarmClient.leave query.session age client')
  /-- The deadline cuts the attempt. -/
  | cut {query : Query τ} {client' : κ}
      (ask : SwarmClient.ask now magnet policy.queryTimeout client = (.underway query, client'))
      (late : ∀ age, query.takes = some age → policy.attemptDeadline.timer < age) :
      Goes magnet policy now client
        ⟨now, now + policy.attemptDeadline.timer, .error (.timeout policy.attemptDeadline)⟩
        (SwarmClient.leave query.session policy.attemptDeadline.timer client')

/-- Attempts in a row from an instant and a client on, up to the instant at which another would
begin and the client it would find. -/
inductive Trials (magnet : String) (policy : RetryPolicy) : Nat → κ → List Trial → Nat → κ → Prop
  | nil {now : Nat} {client : κ} : Trials magnet policy now client [] now client
  | cons {now next : Nat} {client client' after : κ} {t : Trial} {ts : List Trial}
      (first : Trial.Goes magnet policy now client t client')
      (rest : Trials magnet policy (t.endedAt + policy.backoff.wait) client' ts next after) :
      Trials magnet policy now client (t :: ts) next after

theorem Trial.goes_within {magnet : String} {policy : RetryPolicy} {now : Nat} {client client' : κ}
    {query : Query τ}
    (h : SwarmClient.ask now magnet policy.queryTimeout client = (.underway query, client')) :
    Trial.Goes magnet policy now client
      ⟨now, now + (query.within policy.attemptDeadline).1, (query.within policy.attemptDeadline).2⟩
      (SwarmClient.leave query.session (query.within policy.attemptDeadline).1 client') := by
  unfold Query.within
  cases ht : query.takes with
  | none => exact .cut h (by simp [ht])
  | some age =>
    by_cases hle : age ≤ policy.attemptDeadline.timer
    · simp only [hle, if_true]
      exact .answered h ht hle
    · simp only [hle, if_false]
      refine .cut h fun age' ha => ?_
      rw [ht, Option.some.injEq] at ha
      omega

/-- An attempt is a query that is left when it answers or at the deadline. -/
theorem Trial.Goes.within {magnet : String} {policy : RetryPolicy} {now : Nat} {client after : κ}
    {t : Trial} (h : Trial.Goes magnet policy now client t after) :
    ∃ query client', SwarmClient.ask now magnet policy.queryTimeout client = (.underway query, client') ∧
      t = ⟨now, now + (query.within policy.attemptDeadline).1, (query.within policy.attemptDeadline).2⟩ ∧
      after = SwarmClient.leave query.session (query.within policy.attemptDeadline).1 client' := by
  cases h with
  | @answered query client' age ask takes inTime =>
    exact ⟨query, client', ask, by simp [Query.within, takes, inTime]⟩
  | @cut query client' ask late =>
    refine ⟨query, client', ask, ?_⟩
    cases ht : query.takes with
    | none => simp [Query.within, ht]
    | some age =>
      have hlt := late age ht
      have hle : ¬ age ≤ policy.attemptDeadline.timer := by omega
      simp [Query.within, ht, hle]

theorem Trial.Goes.startedAt_le {magnet : String} {policy : RetryPolicy} {now : Nat}
    {client after : κ} {t : Trial} (h : Trial.Goes magnet policy now client t after) :
    t.startedAt = now ∧ now ≤ t.endedAt := by
  cases h <;> exact ⟨rfl, Nat.le_add_right _ _⟩

/-- A client that is asked breaks down or lets an attempt go. -/
theorem Trial.crashed_or_goes (magnet : String) (policy : RetryPolicy) (now : Nat) (client : κ) :
    (∃ broken, SwarmClient.ask now magnet policy.queryTimeout client = (.crashed, broken)) ∨
      ∃ t after, Trial.Goes magnet policy now client t after := by
  cases h : SwarmClient.ask now magnet policy.queryTimeout client with
  | mk asked client' =>
    cases asked with
    | crashed => exact .inl ⟨client', rfl⟩
    | underway query => exact .inr ⟨_, _, Trial.goes_within h⟩

/-- An attempt as a log keeps it. -/
def Trial.attempt (t : Trial) (number : UInt32) : Attempt := ⟨number, t.startedAt, t.result⟩

/-- The attempts as a log keeps them, numbered in order. -/
def numbered : UInt32 → List Trial → List Attempt
  | _, [] => []
  | n, t :: ts => t.attempt n :: numbered (n + 1) ts

namespace Probe

theorem pursue_of_crashed {cancelAt : Option Nat} {now : Nat} {n : UInt32} {p : Probe τ}
    {client broken : κ}
    (h : SwarmClient.ask now p.magnet p.policy.queryTimeout client = (.crashed, broken)) :
    p.pursue cancelAt now n client = (none, broken) := by
  rw [pursue]
  simp only [h]

/-- An attempt that is not cancelled before its end settles the check or leads to the next, up to
which the check may still be cancelled. -/
theorem pursue_of_goes {cancelAt : Option Nat} {now : Nat} {n : UInt32} {p : Probe τ}
    {client after : κ} {t : Trial} (h : Trial.Goes p.magnet p.policy now client t after)
    (hc : cancelAt.filter (· ≤ t.endedAt) = none) :
    pursue cancelAt now n p client =
      match p.outcomeWith (t.attempt n) with
      | some o => (some ⟨o, t.endedAt⟩, after)
      | none =>
        match cancelAt.filter (· ≤ t.endedAt + p.policy.backoff.wait) with
        | some instant => (some ⟨(p.record (t.attempt n)).aborted n, instant⟩, after)
        | none =>
          pursue cancelAt (t.endedAt + p.policy.backoff.wait) (n + 1) (p.record (t.attempt n)) after := by
  obtain ⟨query, client', hask, rfl, rfl⟩ := h.within
  rw [pursue]
  simp only [hask, hc, Trial.attempt]
  split
  next o ho => exact ho ▸ rfl
  next ho => exact ho ▸ rfl

section

variable {cancelAt : Option Nat} {now : Nat} {n : UInt32} {p : Probe τ} {client after : κ} {t : Trial}
  (h : Trial.Goes p.magnet p.policy now client t after) (hc : cancelAt.filter (· ≤ t.endedAt) = none)

include h hc

theorem pursue_of_settled {o : CheckOutcome} (ho : p.outcomeWith (t.attempt n) = some o) :
    pursue cancelAt now n p client = (some ⟨o, t.endedAt⟩, after) := by
  rw [pursue_of_goes h hc, ho]

theorem pursue_of_rest_cut {instant : Nat} (ho : p.outcomeWith (t.attempt n) = none)
    (hr : cancelAt.filter (· ≤ t.endedAt + p.policy.backoff.wait) = some instant) :
    pursue cancelAt now n p client =
      (some ⟨(p.record (t.attempt n)).aborted n, instant⟩, after) := by
  rw [pursue_of_goes h hc, ho]
  simp only [hr]

theorem pursue_of_next (ho : p.outcomeWith (t.attempt n) = none)
    (hr : cancelAt.filter (· ≤ t.endedAt + p.policy.backoff.wait) = none) :
    pursue cancelAt now n p client =
      pursue cancelAt (t.endedAt + p.policy.backoff.wait) (n + 1) (p.record (t.attempt n)) after := by
  rw [pursue_of_goes h hc, ho]
  simp only [hr]

end

/-- An attempt that is cancelled is left at that instant. -/
theorem pursue_of_cut {cancelAt : Option Nat} {now instant : Nat} {n : UInt32} {p : Probe τ}
    {client client' : κ} {query : Query τ}
    (h : SwarmClient.ask now p.magnet p.policy.queryTimeout client = (.underway query, client'))
    (hc : cancelAt.filter (· ≤ now + (query.within p.policy.attemptDeadline).1) = some instant) :
    pursue cancelAt now n p client =
      (some ⟨p.aborted n, instant⟩, SwarmClient.leave query.session (instant - now) client') := by
  rw [pursue]
  simp only [h, hc]

end Probe

/-- Counting attempts does not start over before a limit. -/
theorem toNat_add_one {n limit : UInt32} (h : n < limit) : (n + 1).toNat = n.toNat + 1 := by
  have hlt : n.toNat < limit.toNat := UInt32.lt_iff_toNat_lt.mp h
  have hmax := limit.toNat_lt
  rw [UInt32.toNat_add, UInt32.toNat_one]
  omega

theorem add_one_add_ofNat (n : UInt32) (k : Nat) : n + 1 + UInt32.ofNat k = n + UInt32.ofNat (k + 1) := by
  rw [UInt32.ofNat_add, UInt32.add_assoc, UInt32.add_comm 1]
  rfl

/-- An instant that lies before a cancellation has only earlier instants before it. -/
theorem filter_le_eq_none {cancelAt : Option Nat} {a b : Nat} (hab : a ≤ b)
    (h : cancelAt.filter (· ≤ b) = none) : cancelAt.filter (· ≤ a) = none := by
  rw [Option.filter_eq_none_iff] at h ⊢
  intro c hc hca
  exact h c hc (by simp only [decide_eq_true_eq] at hca ⊢; omega)

theorem Trials.le_next {magnet : String} {policy : RetryPolicy} {now next : Nat}
    {client after : κ} {ts : List Trial} (h : Trials magnet policy now client ts next after) :
    now ≤ next := by
  induction h with
  | nil => exact Nat.le_refl _
  | cons first rest ih =>
    have := first.startedAt_le
    omega

/-- The check with more attempts in its log. -/
def Probe.recordAll (p : Probe τ) (log : List Attempt) : Probe τ := { p with log := p.log ++ log }

/-- **A check makes its attempts one by one.** After attempts that do not decide it is where it
would be had it begun there, with the attempts in its log. -/
theorem Probe.pursue_of_trials {cancelAt : Option Nat} {now next : Nat} {n : UInt32} {p : Probe τ}
    {client after : κ} {ts : List Trial}
    (h : Trials p.magnet p.policy now client ts next after)
    (hq : ∀ u ∈ ts, ¬ QueryResult.Decisive u.result)
    (hb : ts.length ≤ p.policy.maxAttempts.toNat - n.toNat)
    (hc : cancelAt.filter (· ≤ next) = none) :
    pursue cancelAt now n p client =
      pursue cancelAt next (n + UInt32.ofNat ts.length) (p.recordAll (numbered n ts)) after := by
  generalize hm : p.magnet = magnet at h
  generalize hp : p.policy = policy at h hb
  induction h generalizing n p with
  | nil => simp [recordAll, numbered]
  | @cons now next client client' after t ts first rest ih =>
    subst hm hp
    have hn : n < p.policy.maxAttempts := by
      rw [UInt32.lt_iff_toNat_lt]
      simp only [List.length_cons] at hb
      omega
    have hnext : t.endedAt + p.policy.backoff.wait ≤ next := rest.le_next
    have ho : p.outcomeWith (t.attempt n) = none :=
      outcomeWith_eq_none_iff.mpr ⟨hq t (by simp), hn⟩
    have hd := toNat_add_one hn
    rw [pursue_of_next first (filter_le_eq_none (by omega) hc) ho (filter_le_eq_none hnext hc)]
    rw [ih (n := n + 1) (p := p.record (t.attempt n)) (fun u hu => hq u (by simp [hu])) hc rfl rfl
      (by simp only [List.length_cons] at hb; show ts.length ≤ p.policy.maxAttempts.toNat - _; omega)]
    have hlog : (p.record (t.attempt n)).recordAll (numbered (n + 1) ts) =
        p.recordAll (numbered n (t :: ts)) := by
      simp [record, recordAll, numbered]
    rw [hlog, add_one_add_ofNat, List.length_cons]

/-! ## The attempts of a check -/

/-- **The attempts of a check.** From any client, either one of the first attempts decides or the
budget is used up, and no attempt before that decides; or the client breaks down earlier. -/
theorem exists_trials (magnet : String) (policy : RetryPolicy) (budget : Nat) (hb : 0 < budget)
    (now : Nat) (client : κ) :
    (∃ ts t next after, Trials magnet policy now client (ts ++ [t]) next after ∧
      (∀ u ∈ ts, ¬ QueryResult.Decisive u.result) ∧ ts.length < budget ∧
      (QueryResult.Decisive t.result ∨ ts.length + 1 = budget)) ∨
    (∃ ts next after broken, Trials magnet policy now client ts next after ∧
      (∀ u ∈ ts, ¬ QueryResult.Decisive u.result) ∧ ts.length < budget ∧
      SwarmClient.ask next magnet policy.queryTimeout after = (.crashed, broken)) := by
  induction budget generalizing now client with
  | zero => exact absurd hb (Nat.lt_irrefl 0)
  | succ budget ih =>
    rcases Trial.crashed_or_goes magnet policy now client with ⟨broken, hbroken⟩ | ⟨t, client', ht⟩
    · exact .inr ⟨[], now, client, broken, .nil, by simp, Nat.succ_pos _, hbroken⟩
    by_cases hd : QueryResult.Decisive t.result ∨ budget = 0
    · refine .inl ⟨[], t, _, client', .cons ht .nil, by simp, Nat.succ_pos _, ?_⟩
      simpa [eq_comm] using hd
    · rw [not_or] at hd
      have quiet : ∀ {ts : List Trial}, (∀ u ∈ ts, ¬ QueryResult.Decisive u.result) →
          ∀ u ∈ t :: ts, ¬ QueryResult.Decisive u.result := by
        intro ts hts
        simpa [hd.1] using hts
      rcases ih (Nat.pos_of_ne_zero hd.2) (t.endedAt + policy.backoff.wait) client' with
        ⟨ts, u, next, after, hts, hq, hl, hu⟩ | ⟨ts, next, after, broken, hts, hq, hl, hbroken⟩
      · exact .inl ⟨t :: ts, u, next, after, .cons ht hts, quiet hq, by simpa using hl, by simpa using hu⟩
      · exact .inr ⟨t :: ts, next, after, broken, .cons ht hts, quiet hq, by simpa using hl, hbroken⟩

end SwarmSampler
