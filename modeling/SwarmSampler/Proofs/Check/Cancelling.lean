import SwarmSampler.Proofs.Check.Observed

/-
A cancelled check beside the same check that is not cancelled. The one goes as
the other does up to the instant of its cancellation and ends there: it keeps
the attempts that were over by then and asks nothing more. A cancellation comes
before all else at its instant, so nothing is said of what would tie with it.
A check ends unless its client breaks down on a query of its own; then the
cancelled one still ends, unless it breaks down there too.
-/

namespace SwarmSampler

variable {κ τ : Type} [SwarmClient κ τ]

/-- Whether a check was over before an instant: at its end, or on the query on which its client broke down. -/
def EndsBefore (c : Nat) (run : Option CheckRun) (visits : List Visit) : Prop :=
  match run with
  | some r => r.endedAt < c
  | none => ∃ v, visits.getLast? = some v ∧ v.askedAt < c

/-- A query without what became of it. -/
def Visit.question (v : Visit) : Nat × String × Span := (v.askedAt, v.magnet, v.timeout)

/-- The attempts of a log whose queries were left before an instant. -/
def finishedBefore (c : Nat) (log : List Attempt) (visits : List Visit) : List Attempt :=
  ((log.zip visits).filter fun x => x.2.leftAt.any (· < c)).map (·.1)

/-- What a check with some queries has come to that was cancelled at an instant, when without that
it would have made some attempts with the queries `visits`. -/
structure CutShort (c : Nat) (made : List Attempt) (visits : List Visit) (o : CheckOutcome)
    (asked : List Visit) : Prop where
  outcome : o.outcome = .error
  counts : o.counts = .none
  reason : o.reason = some "cancelled"
  attempts : o.attempts.toNat = max 1 asked.length
  queries : asked.map (·.question) = (visits.filter (·.askedAt < c)).map (·.question)
  log : o.log = finishedBefore c made visits

/-- All that a check goes through from an instant and a client on that is not cancelled, after the
attempts of a log of which the last was left at some instant, none if there were none. -/
inductive Whole (magnet : String) (policy : RetryPolicy) (log : List Attempt) (left : Option Nat) (now : Nat)
    (n : UInt32) (client : κ) : Option CheckRun × κ → List Trial → List Visit → Prop
  /-- It makes attempts, each with a query, and ends with the last of them and with all in its log. -/
  | ended {run : CheckRun} {next : Nat} {after : κ} {ts : List Trial}
      (trials : Trials magnet policy now client ts next after) (logs : run.outcome.log = log ++ numbered n ts)
      (last : (ts.getLast?.map (·.endedAt)).or left = some run.endedAt) :
      Whole magnet policy log left now n client (some run, after) ts (ts.map (Trial.visit magnet policy))
  /-- It never ends, because its client breaks down on one more query. -/
  | broke {next : Nat} {asked broken : κ} {ts : List Trial}
      (trials : Trials magnet policy now client ts next asked)
      (crash : SwarmClient.ask next magnet policy.queryTimeout asked = (.crashed, broken)) :
      Whole magnet policy log left now n client (none, broken) ts
        (ts.map (Trial.visit magnet policy) ++ [⟨next, magnet, policy.queryTimeout, none⟩])

/-! ## What a check adds that goes on uncancelled -/

/-- Attempts in a row take place from their beginning on. -/
theorem Trials.le_of_mem {magnet : String} {policy : RetryPolicy} {now next : Nat} {client after : κ}
    {ts : List Trial} (h : Trials magnet policy now client ts next after) :
    ∀ t ∈ ts, now ≤ t.startedAt ∧ now ≤ t.endedAt := by
  induction h with
  | nil => simp
  | cons first rest ih =>
    have hfirst := first.startedAt_le
    rw [List.forall_mem_cons]
    refine ⟨by omega, fun t ht => ?_⟩
    have := ih t ht
    omega

section

variable {magnet : String} {policy : RetryPolicy} {log : List Attempt} {left : Option Nat} {now : Nat} {n : UInt32}
  {client : κ} {r : Option CheckRun × κ} {ts : List Trial} {visits : List Visit}

theorem Whole.later (h : Whole magnet policy log left now n client r ts visits) :
    ∀ v ∈ visits, now ≤ v.askedAt ∧ ∀ l, v.leftAt = some l → now ≤ l := by
  have hvisits : ∀ {next : Nat} {after : κ}, Trials magnet policy now client ts next after →
      ∀ v ∈ ts.map (Trial.visit magnet policy), now ≤ v.askedAt ∧ ∀ l, v.leftAt = some l → now ≤ l := by
    intro next after trials v hv
    obtain ⟨t, ht, rfl⟩ := List.mem_map.1 hv
    obtain ⟨hstart, hend⟩ := trials.le_of_mem t ht
    refine ⟨hstart, fun l hl => ?_⟩
    cases hl
    exact hend
  cases h with
  | ended trials => exact hvisits trials
  | broke trials =>
    intro v hv
    rcases List.mem_append.1 hv with hv | hv
    · exact hvisits trials v hv
    · rw [List.mem_singleton.1 hv]
      exact ⟨trials.le_next, nofun⟩

/-- A first attempt and all that comes after it. -/
theorem Whole.cons {t : Trial} {after : κ} (ht : Trial.Goes magnet policy now client t after)
    (h : Whole magnet policy (log ++ [t.attempt n]) (some t.endedAt) (t.endedAt + policy.backoff.wait) (n + 1)
      after r ts visits) :
    Whole magnet policy log left now n client r (t :: ts) (t.visit magnet policy :: visits) := by
  cases h with
  | ended trials logs last =>
    refine .ended (.cons ht trials) (by rw [logs, List.append_assoc]; rfl) ?_
    rw [← last, List.getLast?_cons]
    cases ts.getLast? <;> rfl
  | broke trials crash => exact .broke (.cons ht trials) crash

end

/-- What a check adds to its queries that goes on with another attempt, none of it before an instant. -/
structure Adds (since : Nat) (p : Probe (Nat × τ)) (left : Option Nat) (next : Nat) (n : UInt32) (client : κ)
    (visits : List Visit) (r : Option CheckRun × Observed κ) (ts : List Trial) (visits' : List Visit) : Prop where
  visits : r.2.visits = visits ++ visits'
  whole : Whole p.magnet p.policy p.log left next n client (r.1, r.2.client) ts visits'
  begins : since ≤ next
  ends : ∀ run, r.1 = some run → since ≤ run.endedAt

theorem Adds.cons {since now : Nat} {p : Probe (Nat × τ)} {n : UInt32} {client after : κ} {visits visits' : List Visit}
    {r : Option CheckRun × Observed κ} {t : Trial} {ts : List Trial}
    (ht : Trial.Goes p.magnet p.policy now client t after) (hnow : now ≤ since)
    (h : Adds since (p.record (t.attempt n)) (some t.endedAt) (t.endedAt + p.policy.backoff.wait) (n + 1) after
      (visits ++ [t.visit p.magnet p.policy]) r ts visits') (left : Option Nat) :
    Adds now p left now n client visits r (t :: ts) (t.visit p.magnet p.policy :: visits') where
  visits := by rw [h.visits, List.append_assoc]; rfl
  whole := h.whole.cons ht
  begins := Nat.le_refl now
  ends run hr := Nat.le_trans hnow (h.ends run hr)

namespace Probe

theorem log_of_outcomeWith {p : Probe τ} {a : Attempt} {o : CheckOutcome}
    (h : p.outcomeWith a = some o) : o.log = p.log ++ [a] := by
  unfold outcomeWith at h
  cases hs : CheckState.afterResult p.policy p.log a.number a.result with
  | querying n => rw [hs] at h; cases h
  | empty n e => rw [hs] at h; cases h
  | success n c => rw [hs] at h; cases h; rfl
  | failed n reason outcome => rw [hs] at h; cases h; rfl

/-- What is added after a first attempt, given that for a check that goes on to the next. -/
theorem exists_adds_after {now : Nat} {p : Probe (Nat × τ)} {client after : κ} {t : Trial}
    (n : UInt32) (visits : List Visit) (ht : Trial.Goes p.magnet p.policy now client t after)
    (hnext : p.outcomeWith (t.attempt n) = none →
      ∃ ts visits', Adds (t.endedAt + p.policy.backoff.wait) (p.record (t.attempt n)) (some t.endedAt)
        (t.endedAt + p.policy.backoff.wait) (n + 1) after (visits ++ [t.visit p.magnet p.policy])
        (pursue none (t.endedAt + p.policy.backoff.wait) (n + 1) (p.record (t.attempt n))
          (⟨after, visits ++ [t.visit p.magnet p.policy]⟩ : Observed κ)) ts visits') :
    ∃ ts visits', Adds t.endedAt (p.record (t.attempt n)) (some t.endedAt) (t.endedAt + p.policy.backoff.wait)
      (n + 1) after (visits ++ [t.visit p.magnet p.policy]) (pursue none now n p (⟨client, visits⟩ : Observed κ))
      ts visits' := by
  have hg := ht.observed visits
  have hle : t.endedAt ≤ t.endedAt + p.policy.backoff.wait := Nat.le_add_right _ _
  cases ho : p.outcomeWith (t.attempt n) with
  | some o =>
    rw [pursue_of_settled hg rfl ho]
    refine ⟨[], [], (List.append_nil _).symm, .ended .nil ?_ rfl, hle, fun run hr => ?_⟩
    · rw [log_of_outcomeWith ho, numbered, List.append_nil]
      rfl
    · cases hr
      exact Nat.le_refl _
  | none =>
    rw [pursue_of_next hg rfl ho rfl]
    obtain ⟨ts, visits', hadds⟩ := hnext ho
    exact ⟨ts, visits', hadds.visits, hadds.whole, hle, fun run hr => Nat.le_trans hle (hadds.ends run hr)⟩

/-- A check that goes on uncancelled keeps what it has and only adds later queries. -/
theorem exists_adds (left : Option Nat) (now : Nat) (n : UInt32) (p : Probe (Nat × τ)) (client : κ)
    (visits : List Visit) :
    ∃ ts visits', Adds now p left now n client visits
      (pursue none now n p (⟨client, visits⟩ : Observed κ)) ts visits' := by
  -- Induction on the attempts that are left.
  induction hm : p.policy.maxAttempts.toNat - n.toNat using Nat.strongRecOn
    generalizing left now n p client visits with
  | ind m ih =>
  rcases Trial.crashed_or_goes p.magnet p.policy now client with ⟨broken, hbroken⟩ | ⟨t, after, ht⟩
  · rw [pursue_of_crashed (Observed.ask_of_crashed (o := ⟨client, visits⟩) hbroken)]
    exact ⟨[], _, rfl, .broke .nil hbroken, Nat.le_refl now, nofun⟩
  · obtain ⟨ts, visits', h⟩ := exists_adds_after n visits ht fun ho =>
      ih _ (hm ▸ tries_decrease (lt_of_outcomeWith ho)) _ _ _ (p.record (t.attempt n)) _ _ rfl
    exact ⟨_, _, h.cons ht ht.startedAt_le.2 left⟩

end Probe

/-! ## Before and after the cut -/

section

variable {c m next : Nat} {left : Option Nat} {log log' : List Attempt} {visits visits' : List Visit} {n' : UInt32}
  {client : κ} {r : Option CheckRun × Observed κ} {p : Probe (Nat × τ)} {ts : List Trial}

theorem finishedBefore_append (hlen : log.length = visits.length)
    (hv : ∀ v ∈ visits, v.leftAt.any (· < c)) (hv' : ∀ v ∈ visits', ¬ v.leftAt.any (· < c)) :
    finishedBefore c (log ++ log') (visits ++ visits') = log := by
  unfold finishedBefore
  rw [List.zip_append hlen, List.filter_append, List.map_append]
  have hall : (log.zip visits).filter (fun x => x.2.leftAt.any (· < c)) = log.zip visits :=
    List.filter_eq_self.mpr fun x hx => hv x.2 (List.of_mem_zip hx).2
  have hnone : (log'.zip visits').filter (fun x => x.2.leftAt.any (· < c)) = [] :=
    List.filter_eq_nil_iff.mpr fun x hx => hv' x.2 (List.of_mem_zip hx).2
  rw [hall, hnone, List.map_nil, List.append_nil]
  exact List.map_fst_zip (Nat.le_of_eq hlen)

theorem filter_askedAt_append (hv : ∀ v ∈ visits, v.askedAt < c) (hv' : ∀ v ∈ visits', c ≤ v.askedAt) :
    (visits ++ visits').filter (·.askedAt < c) = visits := by
  rw [List.filter_append]
  have hall : visits.filter (·.askedAt < c) = visits :=
    List.filter_eq_self.mpr fun v h => by simpa using hv v h
  have hnone : visits'.filter (·.askedAt < c) = [] :=
    List.filter_eq_nil_iff.mpr fun v h => by simpa using hv' v h
  rw [hall, hnone, List.append_nil]

theorem not_left_before {v : Visit} (h : ∀ l, v.leftAt = some l → c ≤ l) : ¬ v.leftAt.any (· < c) := by
  cases hl : v.leftAt with
  | none => simp
  | some l => simpa using h l hl

section

variable (h : Adds m p left next n' client visits r ts visits') (hc : c ≤ m)
include h hc

/-- What is added from an instant on is asked and left from then on. -/
theorem Adds.later : ∀ v ∈ visits', c ≤ v.askedAt ∧ ∀ l, v.leftAt = some l → c ≤ l := by
  intro v hv
  have hcn : c ≤ next := Nat.le_trans hc h.begins
  obtain ⟨hasked, hleft⟩ := h.whole.later v hv
  exact ⟨Nat.le_trans hcn hasked, fun l hl => Nat.le_trans hcn (hleft l hl)⟩

/-- A check that adds something from an instant on is not over before it. -/
theorem Adds.not_endsBefore : ¬ EndsBefore c r.1 r.2.visits := by
  have hlater := h.later hc
  obtain ⟨run, observed⟩ := r
  cases run with
  | some run => exact Nat.not_lt.2 (Nat.le_trans hc (h.ends run rfl))
  | none =>
    rintro ⟨v, hlast, hlt⟩
    have hmem : v ∈ visits' := by
      obtain ⟨hvisits, hwhole, -, -⟩ := h
      cases hwhole with
      | broke trials crash =>
        rw [hvisits, ← List.append_assoc, List.getLast?_concat, Option.some.injEq] at hlast
        rw [← hlast]
        exact List.mem_append_right _ (.head _)
    exact Nat.not_lt.2 (hlater v hmem).1 hlt

/-- A check cut in the pause after its latest attempt, or before it asked anything. -/
theorem Adds.cutShort_of_rest {n : UInt32} (hlen : p.log.length = visits.length) (hn : n.toNat = max 1 visits.length)
    (hv : ∀ v ∈ visits, v.askedAt < c ∧ v.leftAt.any (· < c)) :
    CutShort c (p.log ++ numbered n' ts) r.2.visits ⟨.error, .none, n, some cancelledReason, p.log⟩ visits := by
  refine ⟨rfl, rfl, rfl, hn, ?_, ?_⟩
  · rw [h.visits, filter_askedAt_append (fun v hm => (hv v hm).1) fun v hm => (h.later hc v hm).1]
  · rw [h.visits, finishedBefore_append hlen (fun v hm => (hv v hm).2)]
    exact fun v hm => not_left_before (h.later hc v hm).2

end

/-- A check cut in the query of its latest attempt, which it leaves. -/
theorem Adds.cutShort_of_query {a : Attempt} {v w : Visit}
    (h : Adds m (p.record a) left next n' client (visits ++ [v]) r ts visits') (hc : c ≤ m) {n : UInt32}
    (hlen : p.log.length = visits.length) (hn : n.toNat = visits.length + 1)
    (hvs : ∀ v ∈ visits, v.askedAt < c ∧ v.leftAt.any (· < c)) (hv : v.askedAt < c)
    (hleft : ∀ l, v.leftAt = some l → c ≤ l) (hw : w.question = v.question) :
    CutShort c ((p.record a).log ++ numbered n' ts) r.2.visits ⟨.error, .none, n, some cancelledReason, p.log⟩
      (visits ++ [w]) := by
  refine ⟨rfl, rfl, rfl, ?_, ?_, ?_⟩
  · rw [List.length_append, List.length_singleton, hn]
    omega
  · rw [h.visits, filter_askedAt_append ?_ fun u hu => (h.later hc u hu).1]
    · simp [hw]
    · intro u hu
      rcases List.mem_append.mp hu with hu | hu
      · exact (hvs u hu).1
      · exact List.mem_singleton.mp hu ▸ hv
  · rw [h.visits, Probe.record, List.append_assoc, List.append_assoc,
      finishedBefore_append hlen (fun u hu => (hvs u hu).2)]
    intro u hu
    rcases List.mem_append.mp hu with hu | hu
    · exact List.mem_singleton.mp hu ▸ not_left_before hleft
    · exact not_left_before (h.later hc u hu).2

end

/-! ## Two checks side by side -/

theorem filter_of_le {c now : Nat} (h : c ≤ now) : (some c).filter (· ≤ now) = some c := by
  simp [h]

theorem filter_of_lt {c now : Nat} (h : now < c) : (some c).filter (· ≤ now) = none := by
  simp [h]

namespace Probe

/-- A check that is cancelled while it waits for the answer of its query. -/
theorem pursue_of_query_cut {c now : Nat} {p : Probe (Nat × τ)} {client after : κ} {t : Trial}
    (n : UInt32) (visits : List Visit) (ht : Trial.Goes p.magnet p.policy now client t after)
    (hnow : now < c) (hc : c ≤ t.endedAt) :
    ∃ client', pursue (some c) now n p (⟨client, visits⟩ : Observed κ) =
      (some ⟨p.aborted n, c⟩, ⟨client', visits ++ [⟨now, p.magnet, p.policy.queryTimeout, some c⟩]⟩) := by
  obtain ⟨query, client', hask, rfl, -⟩ := ht.within
  have hleft : now + (c - now) = c := by omega
  rw [pursue_of_cut (Observed.ask_of_underway (o := ⟨client, visits⟩) hask) (filter_of_le hc),
    Observed.leave_last, Visit.leave]
  simp only [hleft]
  exact ⟨_, rfl⟩

/-- **Two checks that have gone the same way so far**, of which one is cancelled later on. -/
theorem pursue_cancelled {c now : Nat} {n : UInt32} {p : Probe (Nat × τ)} {client : κ}
    {visits : List Visit} (left : Option Nat) (hnow : now < c) (hlen : p.log.length = visits.length)
    (hn : n.toNat = visits.length + 1) (hv : ∀ v ∈ visits, v.askedAt < c ∧ v.leftAt.any (· < c))
    {whole cut : Option CheckRun × Observed κ} (hwhole : pursue none now n p ⟨client, visits⟩ = whole)
    (hcut : pursue (some c) now n p ⟨client, visits⟩ = cut) :
    ∃ ts visits', Adds now p left now n client visits whole ts visits' ∧
      ((EndsBefore c whole.1 whole.2.visits ∧ cut = whole) ∨
        (¬ EndsBefore c whole.1 whole.2.visits ∧
          ∃ o, cut.1 = some ⟨o, c⟩ ∧ CutShort c (p.log ++ numbered n ts) whole.2.visits o cut.2.visits)) := by
  -- Induction on the attempts that are left; the two part where the cancellation falls in.
  induction hm : p.policy.maxAttempts.toNat - n.toNat using Nat.strongRecOn
    generalizing left now n p client visits with
  | ind m ih =>
  rcases Trial.crashed_or_goes p.magnet p.policy now client with ⟨broken, hbroken⟩ | ⟨t, after, ht⟩
  · have hask := Observed.ask_of_crashed (o := ⟨client, visits⟩) hbroken
    rw [pursue_of_crashed hask] at hwhole hcut
    subst hwhole hcut
    exact ⟨[], _, ⟨rfl, .broke .nil hbroken, Nat.le_refl now, nofun⟩,
      .inl ⟨⟨_, List.getLast?_concat .., hnow⟩, rfl⟩⟩
  have hstart := ht.startedAt_le
  have hg := ht.observed visits
  have hmade (ts : List Trial) : p.log ++ numbered n (t :: ts) =
      (p.record (t.attempt n)).log ++ numbered (n + 1) ts := by
    rw [record, List.append_assoc]
    rfl
  obtain ⟨ts, visits', hadds⟩ := exists_adds_after n visits ht
    fun _ => exists_adds _ _ (n + 1) (p.record (t.attempt n)) after _
  by_cases hc : c ≤ t.endedAt
  · obtain ⟨client', hq⟩ := pursue_of_query_cut n visits ht hnow hc
    rw [hwhole] at hadds
    rw [hq] at hcut
    subst hcut
    refine ⟨_, _, hadds.cons ht hstart.2 left, .inr ⟨hadds.not_endsBefore hc, _, rfl, ?_⟩⟩
    rw [hmade]
    refine hadds.cutShort_of_query hc hlen hn hv ?_ ?_ ?_
    · exact Nat.lt_of_le_of_lt (Nat.le_of_eq hstart.1) hnow
    · intro l hl
      cases hl
      exact hc
    · exact congrArg (·, p.magnet, p.policy.queryTimeout) hstart.1.symm
  have hend : t.endedAt < c := by omega
  have hv' : ∀ v ∈ visits ++ [t.visit p.magnet p.policy], v.askedAt < c ∧ v.leftAt.any (· < c) := by
    intro v hmem
    rcases List.mem_append.mp hmem with hmem | hmem
    · exact hv v hmem
    · rw [List.mem_singleton.mp hmem]
      exact ⟨Nat.lt_of_le_of_lt (Nat.le_of_eq hstart.1) hnow, by simpa [Trial.visit] using hend⟩
  cases ho : p.outcomeWith (t.attempt n) with
  | some o =>
    rw [hwhole] at hadds
    rw [pursue_of_settled hg rfl ho] at hwhole
    rw [pursue_of_settled hg (filter_of_lt hend) ho] at hcut
    subst hwhole hcut
    exact ⟨_, _, hadds.cons ht hstart.2 left, .inl ⟨hend, rfl⟩⟩
  | none =>
    have hlen' : (p.record (t.attempt n)).log.length = (visits ++ [t.visit p.magnet p.policy]).length := by
      simp [record, hlen]
    rw [pursue_of_next hg rfl ho rfl] at hwhole
    by_cases hr : c ≤ t.endedAt + p.policy.backoff.wait
    · rw [pursue_of_rest_cut hg (filter_of_lt hend) ho (filter_of_le hr)] at hcut
      obtain ⟨ts, visits', hadds'⟩ := exists_adds (some t.endedAt) (t.endedAt + p.policy.backoff.wait) (n + 1)
        (p.record (t.attempt n)) after (visits ++ [t.visit p.magnet p.policy])
      rw [hwhole] at hadds'
      subst hcut
      refine ⟨_, _, hadds'.cons ht (by omega) left, .inr ⟨hadds'.not_endsBefore hr, _, rfl, ?_⟩⟩
      rw [hmade]
      exact hadds'.cutShort_of_rest hr hlen' (by simp [hn]) hv'
    · have hr' : t.endedAt + p.policy.backoff.wait < c := by omega
      rw [pursue_of_next hg (filter_of_lt hend) ho (filter_of_lt hr')] at hcut
      have hnext := toNat_add_one (lt_of_outcomeWith ho)
      obtain ⟨ts, visits', hadds', hboth⟩ := ih _ (hm ▸ tries_decrease (lt_of_outcomeWith ho)) (some t.endedAt) hr' hlen'
        (by rw [List.length_append, List.length_singleton, ← hn]; exact hnext) hv' hwhole hcut rfl
      rw [← hmade] at hboth
      exact ⟨_, _, hadds'.cons ht (by omega) left, hboth⟩

end Probe

theorem runCheck_observed_cancelled (client : κ) (magnet : String) (policy : RetryPolicy) (c : Nat)
    {whole cut : Option CheckRun × Observed κ}
    (hwhole : runCheck (Observed.of client) magnet policy none = whole)
    (hcut : runCheck (Observed.of client) magnet policy (some c) = cut) :
    ∃ ts, Whole magnet policy [] none 0 1 client (whole.1, whole.2.client) ts whole.2.visits ∧
      ((EndsBefore c whole.1 whole.2.visits ∧ cut = whole) ∨
        (¬ EndsBefore c whole.1 whole.2.visits ∧
          ∃ o, cut.1 = some ⟨o, c⟩ ∧ CutShort c (numbered 1 ts) whole.2.visits o cut.2.visits)) := by
  rw [runCheck_eq] at hwhole hcut
  have hfirst : ∀ {ts visits'}, Adds 0 (.start magnet policy) none 0 1 client [] whole ts visits' →
      Whole magnet policy [] none 0 1 client (whole.1, whole.2.client) ts whole.2.visits := fun hadds => by
    rw [hadds.visits]
    exact hadds.whole
  rcases Nat.eq_zero_or_pos c with rfl | hc
  · obtain ⟨ts, visits', hadds⟩ := Probe.exists_adds none 0 1 (.start magnet policy) client []
    have hw : Probe.pursue none 0 1 (.start magnet policy) (Observed.of client) = whole := hwhole
    rw [show (⟨client, []⟩ : Observed κ) = Observed.of client from rfl, hw] at hadds
    subst hcut
    exact ⟨ts, hfirst hadds, .inr ⟨hadds.not_endsBefore (Nat.le_refl 0), _, rfl,
      hadds.cutShort_of_rest (Nat.le_refl 0) rfl rfl (by simp)⟩⟩
  · rw [filter_of_lt hc] at hcut
    obtain ⟨ts, visits', hadds, hboth⟩ := Probe.pursue_cancelled none hc rfl rfl (by simp) hwhole hcut
    exact ⟨ts, hfirst hadds, hboth⟩

/-- The queries of a check in order, as its client sees them. -/
def checkVisits (client : κ) (magnet : String) (policy : RetryPolicy) (cancelAt : Option Nat) :
    List Visit :=
  (runCheck (Observed.of client) magnet policy cancelAt).2.visits

/-- **A cancellation is a clean cut.** A check that is not cancelled makes an attempt at least, ends with its last
and has all of them in its log, unless its client breaks down on one more query. If it is over before the
cancellation, the cancelled check is no different; if not, that one ends at the instant of its cancellation, with
the attempts that were over by then in its log and only the queries that were asked by then. -/
theorem runCheck_cancelled (client : κ) (magnet : String) (policy : RetryPolicy) (c : Nat) :
    let visits := checkVisits client magnet policy
    let whole := runCheck client magnet policy none
    let cut := runCheck client magnet policy (some c)
    ∃ ts : List Trial, Whole magnet policy [] none 0 1 client whole ts (visits none) ∧
      (EndsBefore c whole.1 (visits none) → cut = whole ∧ visits (some c) = visits none) ∧
      (¬ EndsBefore c whole.1 (visits none) →
        ∃ o, cut.1 = some ⟨o, c⟩ ∧ CutShort c (numbered 1 ts) (visits none) o (visits (some c))) := by
  intro visits whole cut
  obtain ⟨hwhole, hwhole'⟩ := runCheck_observed client magnet policy none
  obtain ⟨hcut, hcut'⟩ := runCheck_observed client magnet policy (some c)
  obtain ⟨ts, hts, hboth⟩ := runCheck_observed_cancelled client magnet policy c rfl rfl
  rw [hwhole, hwhole'] at hts
  rw [hwhole, hcut] at hboth
  refine ⟨ts, hts, fun hends => ?_, fun hends => (hboth.resolve_left fun h => hends h.1).2⟩
  have heq := (hboth.resolve_right fun h => h.1 hends).2
  refine ⟨Prod.ext ?_ ?_, congrArg (fun x => x.2.visits) heq⟩
  · exact hcut.symm.trans ((congrArg Prod.fst heq).trans hwhole)
  · exact hcut'.symm.trans ((congrArg (fun x => x.2.client) heq).trans hwhole')

end SwarmSampler
