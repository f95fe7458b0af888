import SwarmSampler.Proofs.Check.Trials

/-
A client that notes the queries put to it and the instants at which they are
left. It answers as the client inside does, so a check goes with it as it goes
without it, and what it has noted at the end is what the check has asked.
-/

namespace SwarmSampler

/-- A query as its client has seen it. -/
structure Visit where
  askedAt : Nat
  magnet : String
  timeout : Span
  /-- When the query was left, none if it never was. -/
  leftAt : Option Nat

/-- The query left at some age. -/
def Visit.leave (v : Visit) (age : Nat) : Visit := { v with leftAt := some (v.askedAt + age) }

/-- A client with the queries put to it so far. -/
structure Observed (κ : Type) where
  client : κ
  visits : List Visit

namespace Observed

variable {κ τ : Type}

/-- A client that was not asked yet. -/
def of (client : κ) : Observed κ := ⟨client, []⟩

/-- What comes of asking, with the number of the query along with its session. -/
def numbered (number : Nat) : Asked τ → Asked (Nat × τ)
  | .crashed => .crashed
  | .underway query => .underway ⟨query.takes, query.result, (number, query.session)⟩

instance [SwarmClient κ τ] : SwarmClient (Observed κ) (Nat × τ) where
  ask now magnet timeout o :=
    let asked := SwarmClient.ask now magnet timeout o.client
    (numbered o.visits.length asked.1, ⟨asked.2, o.visits ++ [⟨now, magnet, timeout, none⟩]⟩)
  leave session age o :=
    ⟨SwarmClient.leave session.2 age o.client, o.visits.modify session.1 (·.leave age)⟩

variable [SwarmClient κ τ]

theorem ask_of_crashed {now : Nat} {magnet : String} {timeout : Span} {o : Observed κ} {broken : κ}
    (h : SwarmClient.ask now magnet timeout o.client = (.crashed, broken)) :
    SwarmClient.ask now magnet timeout o =
      (.crashed, ⟨broken, o.visits ++ [⟨now, magnet, timeout, none⟩]⟩) := by
  simp only [SwarmClient.ask, h, numbered]

theorem ask_of_underway {now : Nat} {magnet : String} {timeout : Span} {o : Observed κ}
    {query : Query τ} {client' : κ}
    (h : SwarmClient.ask now magnet timeout o.client = (.underway query, client')) :
    SwarmClient.ask now magnet timeout o =
      (.underway ⟨query.takes, query.result, (o.visits.length, query.session)⟩,
        ⟨client', o.visits ++ [⟨now, magnet, timeout, none⟩]⟩) := by
  simp only [SwarmClient.ask, h, numbered]

theorem modify_last (visits : List Visit) (v : Visit) (f : Visit → Visit) :
    (visits ++ [v]).modify visits.length f = visits ++ [f v] := by
  induction visits with
  | nil => rfl
  | cons u visits ih => simp [ih]

/-- Leaving the latest query notes when that was. -/
theorem leave_last (client : κ) (visits : List Visit) (v : Visit) (session : τ) (age : Nat) :
    SwarmClient.leave (visits.length, session) age (⟨client, visits ++ [v]⟩ : Observed κ) =
      ⟨SwarmClient.leave session age client, visits ++ [v.leave age]⟩ := by
  simp only [SwarmClient.leave, modify_last]

end Observed

/-! ## Attempts with an observed client -/

section

variable {κ τ : Type} [SwarmClient κ τ]

/-- The query of an attempt as its client sees it. -/
def Trial.visit (magnet : String) (policy : RetryPolicy) (t : Trial) : Visit :=
  ⟨t.startedAt, magnet, policy.queryTimeout, some t.endedAt⟩

/-- An attempt goes with an observed client as it goes without. -/
theorem Trial.Goes.observed {magnet : String} {policy : RetryPolicy} {now : Nat} {client after : κ}
    {t : Trial} (h : Trial.Goes magnet policy now client t after) (visits : List Visit) :
    Trial.Goes magnet policy now (⟨client, visits⟩ : Observed κ) t
      ⟨after, visits ++ [t.visit magnet policy]⟩ := by
  cases h with
  | @answered query client' age ask takes inTime =>
    have hg := Trial.Goes.answered (Observed.ask_of_underway (o := ⟨client, visits⟩) ask) takes inTime
    rwa [Observed.leave_last] at hg
  | @cut query client' ask late =>
    have hg := Trial.Goes.cut (Observed.ask_of_underway (o := ⟨client, visits⟩) ask) late
    rwa [Observed.leave_last] at hg

theorem Trials.observed {magnet : String} {policy : RetryPolicy} {now next : Nat} {client after : κ}
    {ts : List Trial} (h : Trials magnet policy now client ts next after) (visits : List Visit) :
    Trials magnet policy now (⟨client, visits⟩ : Observed κ) ts next
      ⟨after, visits ++ ts.map (Trial.visit magnet policy)⟩ := by
  induction h generalizing visits with
  | nil => simpa using Trials.nil
  | @cons now next client client' after t ts first rest ih =>
    have hr := ih (visits ++ [t.visit magnet policy])
    rw [List.append_assoc] at hr
    exact .cons (first.observed visits) hr

/-! ## A check with an observed client -/

/-- The check of an observed client. -/
def Probe.observed (p : Probe τ) : Probe (Nat × τ) := ⟨p.magnet, p.policy, p.log, .idle⟩

/-- **Nothing changes for a check whose client is observed.** -/
theorem Probe.pursue_observed (cancelAt : Option Nat) (now : Nat) (n : UInt32) (p : Probe τ)
    (client : κ) (visits : List Visit) :
    (pursue cancelAt now n p.observed (⟨client, visits⟩ : Observed κ)).1 =
        (pursue cancelAt now n p client).1 ∧
      (pursue cancelAt now n p.observed (⟨client, visits⟩ : Observed κ)).2.client =
        (pursue cancelAt now n p client).2 := by
  fun_induction pursue cancelAt now n p client generalizing visits with
  | case1 now n p client broken hask =>
    rw [pursue_of_crashed (p := p.observed) (Observed.ask_of_crashed hask)]
    exact ⟨rfl, rfl⟩
  | case2 now n p client query client' hask answer instant hcut =>
    rw [pursue_of_cut (p := p.observed) (Observed.ask_of_underway (o := ⟨client, visits⟩) hask) hcut,
      Observed.leave_last]
    exact ⟨rfl, rfl⟩
  | case3 now n p client query client' hask answer hcut client'' a o ho =>
    have hg := (Trial.goes_within hask).observed visits
    rw [pursue_of_settled (p := p.observed) hg hcut (o := o) ho]
    exact ⟨rfl, rfl⟩
  | case4 now n p client query client' hask answer hcut client'' a ho next instant hrest =>
    have hg := (Trial.goes_within hask).observed visits
    rw [pursue_of_rest_cut (p := p.observed) hg hcut ho hrest]
    exact ⟨rfl, rfl⟩
  | case5 now n p client query client' hask answer hcut client'' a ho next hrest ih =>
    have hg := (Trial.goes_within hask).observed visits
    rw [pursue_of_next (p := p.observed) hg hcut ho hrest]
    exact ih _

theorem runCheck_observed (client : κ) (magnet : String) (policy : RetryPolicy)
    (cancelAt : Option Nat) :
    (runCheck (Observed.of client) magnet policy cancelAt).1 =
        (runCheck client magnet policy cancelAt).1 ∧
      (runCheck (Observed.of client) magnet policy cancelAt).2.client =
        (runCheck client magnet policy cancelAt).2 := by
  rw [runCheck_eq, runCheck_eq]
  cases cancelAt.filter (· ≤ 0) with
  | some instant => exact ⟨rfl, rfl⟩
  | none => exact Probe.pursue_observed cancelAt 0 1 (.start magnet policy) client []

end

end SwarmSampler
