import SwarmSampler.Proofs.Check.Observed
import SwarmSampler.Proofs.Client.Sessions

/-
What an engine's log says of a check. Every attempt is a block of its own, which
is complete when the attempt is left, whether the query has answered, the
deadline has cut it or the check was cancelled; and the next attempt begins a
pause after that. So is a single query that may be dropped.
-/

namespace SwarmSampler

/-- When an attempt is left whose query would answer at some age: by then, by the deadline, or when the
check is cancelled. -/
def RetryPolicy.leaves (policy : RetryPolicy) (cancelAt : Option Nat) (now takes : Nat) : Nat :=
  stoppedBy (cancelAt.map (· - now)) (min takes policy.attemptDeadline.timer)

theorem RetryPolicy.leaves_zero (policy : RetryPolicy) (cancelAt : Option Nat) (now : Nat) :
    policy.leaves cancelAt now 0 = 0 := by
  rw [leaves, Nat.zero_min, stoppedBy_zero]

theorem Query.within_fst {τ : Type} {q : Query τ} {age : Nat} (h : q.takes = some age) (limit : Span) :
    (q.within limit).1 = min age limit.timer := by
  rw [within, h]
  dsimp only
  split
  · exact (Nat.min_eq_left ‹_›).symm
  · exact (Nat.min_eq_right (by omega)).symm

section

variable {policy : RetryPolicy} {cancelAt : Option Nat} {now instant takes : Nat} {τ : Type} {query : Query τ}

/-- An attempt that is not cancelled is left when its query answers or at the deadline. -/
theorem RetryPolicy.leaves_of_uncut (ht : query.takes = some takes)
    (h : cancelAt.filter (· ≤ now + (query.within policy.attemptDeadline).1) = none) :
    policy.leaves cancelAt now takes = (query.within policy.attemptDeadline).1 := by
  rw [Query.within_fst ht] at h ⊢
  cases cancelAt with
  | none => rfl
  | some c =>
    have hc : ¬ c ≤ now + min takes policy.attemptDeadline.timer := by simpa [Option.filter] using h
    simp only [leaves, stoppedBy, Option.map_some, Option.elim_some]
    omega

/-- An attempt that is cancelled is left then. -/
theorem RetryPolicy.leaves_of_cut (ht : query.takes = some takes)
    (h : cancelAt.filter (· ≤ now + (query.within policy.attemptDeadline).1) = some instant) :
    policy.leaves cancelAt now takes = instant - now := by
  rw [Query.within_fst ht] at h
  obtain ⟨rfl, hc⟩ := Option.filter_eq_some_iff.1 h
  simp only [decide_eq_true_eq] at hc
  simp only [leaves, stoppedBy, Option.map_some, Option.elim_some]
  omega

end

namespace EngineClient

/-- What a check's queries write in the engine's log, from an instant and a number of sessions on. Every query
is a block, and the next is asked a pause after it was left. -/
inductive Sessions (c : EngineClient) (magnet : String) (policy : RetryPolicy) (cancelAt : Option Nat) :
    Nat → Nat → List Visit → List EngineEvent → Nat → Prop
  | nil {now k : Nat} : Sessions c magnet policy cancelAt now k [] [] k
  /-- The client breaks down before it turns to the engine. -/
  | overlong {now k : Nat} (begun : ∀ instant ∈ cancelAt, now < instant)
      (endless : c.warmup.add? policy.queryTimeout = none) :
      Sessions c magnet policy cancelAt now k [⟨now, magnet, policy.queryTimeout, none⟩] [] k
  | cons {now left k k' last : Nat} {events later : List EngineEvent} {visits : List Visit}
      (begun : ∀ instant ∈ cancelAt, now < instant)
      (block : Block c magnet policy.queryTimeout (policy.leaves cancelAt) k now left events k')
      (rest : Sessions c magnet policy cancelAt (left + policy.backoff.wait) k' visits later last) :
      Sessions c magnet policy cancelAt now k (⟨now, magnet, policy.queryTimeout, some left⟩ :: visits)
        (events ++ later) last

theorem Sessions.single {c : EngineClient} {magnet : String} {policy : RetryPolicy} {cancelAt : Option Nat}
    {now left k k' : Nat} {events : List EngineEvent} (begun : ∀ instant ∈ cancelAt, now < instant)
    (block : Block c magnet policy.queryTimeout (policy.leaves cancelAt) k now left events k') :
    Sessions c magnet policy cancelAt now k [⟨now, magnet, policy.queryTimeout, some left⟩] events k' := by
  simpa using Sessions.cons begun block .nil

theorem Sessions.orderly {c : EngineClient} {magnet : String} {policy : RetryPolicy} {cancelAt : Option Nat}
    {now k last : Nat} {visits : List Visit} {events : List EngineEvent}
    (h : Sessions c magnet policy cancelAt now k visits events last) : Orderly events := by
  induction h with
  | nil => exact .nil
  | overlong endless => exact .nil
  | cons begun block rest ih => exact block.orderly.append ih

theorem crashed_of_ask {c : EngineClient} {now : Nat} {magnet : String} {timeout : Span} {client' : EngineClient}
    (h : SwarmClient.ask now magnet timeout c = (.crashed, client')) :
    c.warmup.add? timeout = none ∧ client' = c := by
  have hr := receives magnet timeout c
  rw [show c.ask magnet timeout = _ from h] at hr
  cases hr with
  | overlong endless => exact ⟨endless, rfl⟩

/-- An attempt of a check as a block: the visit that is noted, and what is in the log once the query is left. -/
theorem block_of_attempt {c : EngineClient} {magnet : String} {policy : RetryPolicy} {cancelAt : Option Nat}
    {k now age : Nat} {log : List EngineEvent} {query : Query (Option EngineSession)} {client' : EngineClient}
    (hask : SwarmClient.ask now magnet policy.queryTimeout (c.having k log) = (.underway query, client'))
    (hage : ∀ takes, query.takes = some takes → policy.leaves cancelAt now takes = age) :
    ∃ events k', Block c magnet policy.queryTimeout (policy.leaves cancelAt) k now (now + age) events k' ∧
      SwarmClient.leave query.session age client' = c.having k' (log ++ events) := by
  obtain ⟨takes, htakes, events, k', block, hleave⟩ := block_of_ask (policy.leaves_zero cancelAt now) hask
  rw [hage takes htakes] at block hleave
  exact ⟨events, k', block, hleave⟩

/-- **A check's log is one block after the other**, from the beginning of any attempt on. -/
theorem pursue_sessions (c : EngineClient) (cancelAt : Option Nat) (now : Nat) (n : UInt32)
    (p : Probe (Option EngineSession)) (k : Nat) (log : List EngineEvent) (visits : List Visit)
    (h : cancelAt.filter (· ≤ now) = none) :
    ∃ vs events last, Sessions c p.magnet p.policy cancelAt now k vs events last ∧
      (p.observed.pursue cancelAt now n (⟨c.having k log, visits⟩ : Observed EngineClient)).2 =
        ⟨c.having last (log ++ events), visits ++ vs⟩ := by
  generalize hclient : c.having k log = client
  have begun : ∀ {now}, cancelAt.filter (· ≤ now) = none → ∀ instant ∈ cancelAt, now < instant := by
    intro now hnow instant hi
    simpa using Option.filter_eq_none_iff.1 hnow instant hi
  fun_induction Probe.pursue cancelAt now n p client generalizing k log visits with
  | case1 now n p client broken hask =>
    obtain ⟨endless, rfl⟩ := crashed_of_ask hask
    subst hclient
    refine ⟨_, [], k, .overlong (begun h) endless, ?_⟩
    rw [Probe.pursue_of_crashed (p := p.observed) (Observed.ask_of_crashed (o := ⟨c.having k log, visits⟩) hask),
      List.append_nil]
    rfl
  | case2 now n p client query client' hask answer instant hcut =>
    subst hclient
    obtain ⟨events, last, block, hleave⟩ :=
      block_of_attempt hask fun takes ht => RetryPolicy.leaves_of_cut ht hcut
    refine ⟨_, events, last, .single (begun h) block, ?_⟩
    rw [Probe.pursue_of_cut (p := p.observed)
      (Observed.ask_of_underway (o := ⟨c.having k log, visits⟩) hask) hcut, Observed.leave_last, hleave]
    rfl
  | case3 now n p client query client' hask answer hcut client'' a o ho =>
    subst hclient
    obtain ⟨events, last, block, hleave⟩ :=
      block_of_attempt hask fun takes ht => RetryPolicy.leaves_of_uncut ht hcut
    have hg := (Trial.goes_within hask).observed visits
    refine ⟨_, events, last, .single (begun h) block, ?_⟩
    rw [Probe.pursue_of_settled (p := p.observed) hg hcut (o := o) ho, hleave]
    rfl
  | case4 now n p client query client' hask answer hcut client'' a ho next instant hrest =>
    subst hclient
    obtain ⟨events, last, block, hleave⟩ :=
      block_of_attempt hask fun takes ht => RetryPolicy.leaves_of_uncut ht hcut
    have hg := (Trial.goes_within hask).observed visits
    refine ⟨_, events, last, .single (begun h) block, ?_⟩
    rw [Probe.pursue_of_rest_cut (p := p.observed) hg hcut ho hrest, hleave]
    rfl
  | case5 now n p client query client' hask answer hcut client'' a ho next hrest ih =>
    subst hclient
    obtain ⟨events, k', block, hleave⟩ :=
      block_of_attempt hask fun takes ht => RetryPolicy.leaves_of_uncut ht hcut
    have hg := (Trial.goes_within hask).observed visits
    obtain ⟨vs, later, last, rest, heq⟩ := ih k' (log ++ events) (visits ++ [⟨now, p.magnet, p.policy.queryTimeout,
      some (now + answer.1)⟩]) hrest hleave.symm
    refine ⟨_, events ++ later, last, .cons (begun h) block rest, ?_⟩
    rw [Probe.pursue_of_next (p := p.observed) hg hcut ho hrest]
    rw [List.append_assoc, List.append_assoc] at heq
    exact heq

/-- **Sessions of an engine never leak.** Whatever the engine does, and whenever a check is cancelled, its log grows
by one block for each query of the check: nothing, a refusal, or a session that is opened, polled when it is
warm, and closed at the instant the query answers, is cut by the deadline or cancelled. The next query is asked
after that, so no session is opened before the last is closed, none is polled once it is closed, and none is
open at the end that was not before. So it is with a single query, which may be dropped. -/
theorem runCheck_sessions (c : EngineClient) (magnet : String) (policy : RetryPolicy) (cancelAt : Option Nat) :
    (∃ events last,
      Sessions c magnet policy cancelAt 0 c.engine.sessions
        (runCheck (Observed.of c) magnet policy cancelAt).2.visits events last ∧
      (runCheck c magnet policy cancelAt).2 = c.having last (c.engine.log ++ events) ∧
      Orderly events ∧ (runCheck c magnet policy cancelAt).2.engine.stillOpen = c.engine.stillOpen) ∧
    (∀ now timeout dropAt,
      (c.warmup.add? timeout = none ∧ askOnce dropAt now magnet timeout c = (none, none, c)) ∨
      ∃ answer age events last,
        askOnce dropAt now magnet timeout c = (answer, some age, c.having last (c.engine.log ++ events)) ∧
        Block c magnet timeout (fun _ => stoppedBy dropAt) c.engine.sessions now (now + age) events last ∧
        Orderly events ∧ (c.having last (c.engine.log ++ events)).engine.stillOpen = c.engine.stillOpen) := by
  constructor
  · obtain ⟨-, hclient⟩ := runCheck_observed c magnet policy cancelAt
    rw [← hclient, runCheck_eq]
    cases h : cancelAt.filter (· ≤ 0) with
    | some instant => exact ⟨[], _, .nil, congrArg (c.having _) (List.append_nil _).symm, .nil, rfl⟩
    | none =>
      obtain ⟨visits, events, last, sessions, heq⟩ :=
        pursue_sessions c cancelAt 0 1 (.start magnet policy) c.engine.sessions c.engine.log [] h
      have horder := sessions.orderly
      have hrun : ((Probe.start magnet policy).pursue cancelAt 0 1 (Observed.of c)).2 =
          ⟨c.having last (c.engine.log ++ events), visits⟩ := heq
      dsimp only
      rw [hrun]
      exact ⟨events, last, sessions, rfl, horder, horder.stillOpen _⟩
  · intro now timeout dropAt
    cases hask : SwarmClient.ask now magnet timeout c with
    | mk asked client' =>
      cases asked with
      | crashed =>
        obtain ⟨endless, rfl⟩ := crashed_of_ask hask
        exact .inl ⟨endless, by simp only [askOnce, hask]⟩
      | underway query =>
        obtain ⟨age, htakes, events, last, block, hleave⟩ := @block_of_ask c magnet timeout
          (fun _ => stoppedBy dropAt) c.engine.sessions now c.engine.log query client' (stoppedBy_zero dropAt) hask
        have honce : askOnce dropAt now magnet timeout c = query.run dropAt client' := by
          simp only [askOnce, hask]
        rw [Query.run_of_takes htakes, hleave] at honce
        exact .inr ⟨_, _, events, last, honce, block, block.orderly, block.orderly.stillOpen _⟩

end EngineClient

end SwarmSampler
