import SwarmSampler.Proofs.Check.Observed

/-
How a check ends that is never cancelled. It makes attempts until one of them
decides or the budget is used up, and what it comes to is read off the results
of all of them: the last one if it decides, else the most recent error, so that
an empty answer at the end does not hide an earlier error.
-/

namespace SwarmSampler

variable {κ τ : Type}

/-- How many attempts a check may make: always one at least. -/
def RetryPolicy.budget (policy : RetryPolicy) : Nat := max 1 policy.maxAttempts.toNat

theorem RetryPolicy.le_of_lt_budget {policy : RetryPolicy} {k : Nat} (h : k < policy.budget) :
    k ≤ policy.maxAttempts.toNat - (1 : UInt32).toNat := by
  unfold budget at h
  rw [UInt32.toNat_one]
  omega

/-- What the results of all its attempts make of a check. -/
structure Settles (results : List QueryResult) (o : CheckOutcome) : Prop where
  /-- All attempts are counted, and the log has them in order. -/
  attempts : o.attempts.toNat = results.length
  log : o.log.map (fun a => (a.result, a.number.toNat)) = results.zipIdx 1
  peers : ∀ c, results.getLast? = some (.ok c) → 0 < c.seeders ∨ 0 < c.leechers →
    o.outcome = .ok ∧ o.counts = c ∧ o.reason = none
  malformed : ∀ detail, results.getLast? = some (.error (.invalidMagnet detail)) →
    o.outcome = .error ∧ o.reason = some ("invalid magnet: " ++ detail)
  deserted : (∀ r ∈ results, QueryResult.Deserted r) → o.outcome = .noPeers
  /-- The most recent error counts, whatever empty answers came after it. -/
  failing : (∀ r ∈ results, ¬ QueryResult.Decisive r) → ∀ before e after,
    results = before ++ .error e :: after → (∀ r ∈ after, ∃ c, r = .ok c) →
      o.outcome = .error ∧ o.reason = some e.message
  peerless : o.outcome ≠ .ok → o.counts = .none ∧ o.reason.isSome

/-! ## Numbers in the log -/

theorem map_numbered {budget : UInt32} {n : UInt32} {ts : List Trial}
    (h : ts.length ≤ budget.toNat - n.toNat) :
    (numbered n ts).map (fun a => (a.result, a.number.toNat)) = (ts.map (·.result)).zipIdx n.toNat := by
  induction ts generalizing n with
  | nil => rfl
  | cons t ts ih =>
    rw [List.length_cons] at h
    have hlt : n < budget := UInt32.lt_iff_toNat_lt.mpr (by omega)
    have hn := toNat_add_one hlt
    have hr := ih (n := n + 1) (by omega)
    simp only [numbered, List.map_cons, List.zipIdx_cons, hr, hn]
    rfl

theorem results_numbered (n : UInt32) (ts : List Trial) :
    (numbered n ts).map (·.result) = ts.map (·.result) := by
  induction ts generalizing n with
  | nil => rfl
  | cons t ts ih => simp only [numbered, List.map_cons, ih]; rfl

theorem starts_numbered (n : UInt32) (ts : List Trial) :
    (numbered n ts).map (·.startedAt) = ts.map (·.startedAt) := by
  induction ts generalizing n with
  | nil => rfl
  | cons t ts ih => simp only [numbered, List.map_cons, ih]; rfl

theorem quiet_numbered {n : UInt32} {ts : List Trial} (hq : ∀ u ∈ ts, ¬ QueryResult.Decisive u.result) :
    ∀ a ∈ numbered n ts, ¬ QueryResult.Decisive a.result := by
  intro a ha
  have hr : a.result ∈ (numbered n ts).map (·.result) := List.mem_map_of_mem ha
  rw [results_numbered, List.mem_map] at hr
  obtain ⟨u, hu, hua⟩ := hr
  exact hua ▸ hq u hu

theorem toNat_add_length {budget n : UInt32} {k : Nat} (h : k ≤ budget.toNat - n.toNat) :
    (n + UInt32.ofNat k).toNat = n.toNat + k := by
  have := budget.toNat_lt
  have := n.toNat_lt
  rw [UInt32.toNat_add, UInt32.toNat_ofNat']
  omega

theorem Trials.concat [SwarmClient κ τ] {magnet : String} {policy : RetryPolicy} {now next : Nat}
    {client after : κ} {ts : List Trial} {t : Trial}
    (h : Trials magnet policy now client (ts ++ [t]) next after) :
    ∃ mid client', Trials magnet policy now client ts mid client' ∧
      Trial.Goes magnet policy mid client' t after := by
  induction ts generalizing now client with
  | nil =>
    obtain - | ⟨first, rest⟩ := h
    cases rest
    exact ⟨now, client, .nil, first⟩
  | cons u ts ih =>
    obtain - | ⟨first, rest⟩ := h
    obtain ⟨mid, client', hts, ht⟩ := ih rest
    exact ⟨mid, client', .cons first hts, ht⟩

/-! ## What an ended check has come to -/

theorem lastError_of_results {log : List Attempt} {before after : List QueryResult} {e : QueryError}
    (h : log.map (·.result) = before ++ .error e :: after) (hok : ∀ r ∈ after, ∃ c, r = .ok c) :
    lastError log = some e := by
  obtain ⟨l₁, l₂, rfl, -, h₂⟩ := List.map_eq_append_iff.mp h
  obtain ⟨a, l₃, rfl, ha, h₃⟩ := List.map_eq_cons_iff.mp h₂
  refine lastError_eq_some ha fun x hx => ?_
  exact hok x.result (h₃ ▸ List.mem_map_of_mem hx)

section

variable {p : Probe τ} {a : Attempt} {results : List QueryResult}

theorem settles_of_peers {c : PeerCounts} (hr : a.result = .ok c)
    (hc : 0 < c.seeders ∨ 0 < c.leechers) (hres : (p.log ++ [a]).map (·.result) = results)
    (hlog : (p.log ++ [a]).map (fun a => (a.result, a.number.toNat)) = results.zipIdx 1)
    (hnum : a.number.toNat = results.length) :
    Settles results ⟨.ok, c, a.number, none, p.log ++ [a]⟩ := by
  have hlast : results.getLast? = some (.ok c) := by simp [← hres, hr]
  have hmem : .ok c ∈ results := List.mem_of_getLast? hlast
  refine ⟨hnum, hlog, fun c' hc' _ => ?_, fun d hd => ?_, fun h => ?_, fun h => ?_, fun h => ?_⟩
  · simp_all
  · simp [hlast] at hd
  · have := h _ hmem
    simp only [QueryResult.Deserted] at this
    simp [this.1, this.2] at hc
  · exact absurd hc (h _ hmem)
  · exact absurd rfl h

theorem settles_of_malformed {detail : String} (hr : a.result = .error (.invalidMagnet detail))
    (hres : (p.log ++ [a]).map (·.result) = results)
    (hlog : (p.log ++ [a]).map (fun a => (a.result, a.number.toNat)) = results.zipIdx 1)
    (hnum : a.number.toNat = results.length) :
    Settles results ⟨.error, .none, a.number, some ("invalid magnet: " ++ detail), p.log ++ [a]⟩ := by
  have hlast : results.getLast? = some (.error (.invalidMagnet detail)) := by simp [← hres, hr]
  have hmem : .error (.invalidMagnet detail) ∈ results := List.mem_of_getLast? hlast
  refine ⟨hnum, hlog, fun c hc => ?_, fun d hd => ?_, fun h => ?_, fun h => ?_, fun _ => ⟨rfl, rfl⟩⟩
  · simp [hlast] at hc
  · simp_all
  · exact (h _ hmem).elim
  · exact absurd trivial (h _ hmem)

/-- A check that ends without a decision goes by its latest error, if there was one. -/
theorem settles_of_undecided (hq : ∀ r ∈ results, ¬ QueryResult.Decisive r)
    (hres : (p.log ++ [a]).map (·.result) = results)
    (hlog : (p.log ++ [a]).map (fun a => (a.result, a.number.toNat)) = results.zipIdx 1)
    (hnum : a.number.toNat = results.length) :
    Settles results (Probe.undecided (p.log ++ [a]) a.number) := by
  have hpeers : ∀ c, results.getLast? = some (.ok c) → ¬ (0 < c.seeders ∨ 0 < c.leechers) :=
    fun c hc => hq _ (List.mem_of_getLast? hc)
  have hmal : ∀ d, results.getLast? ≠ some (.error (.invalidMagnet d)) :=
    fun d hd => hq _ (List.mem_of_getLast? hd) trivial
  unfold Probe.undecided
  cases hl : lastError (p.log ++ [a]) with
  | none =>
    refine ⟨hnum, hlog, fun c hc hp => absurd hp (hpeers c hc), fun d hd => absurd hd (hmal d),
      fun _ => rfl, fun _ before e after hb hok => ?_, fun _ => ⟨rfl, rfl⟩⟩
    rw [lastError_of_results (hres.trans hb) hok] at hl
    cases hl
  | some e =>
    refine ⟨hnum, hlog, fun c hc hp => absurd hp (hpeers c hc), fun d hd => absurd hd (hmal d),
      fun h => ?_, fun _ before e' after hb hok => ?_, fun _ => ⟨rfl, rfl⟩⟩
    · have hn : lastError (p.log ++ [a]) = none := by
        refine lastError_eq_none fun x hx => ?_
        have hx' := h x.result (hres ▸ List.mem_map_of_mem hx)
        cases hr : x.result with
        | ok c => exact ⟨c, rfl⟩
        | error e => rw [hr] at hx'; exact hx'.elim
      rw [hn] at hl
      cases hl
    · rw [lastError_of_results (hres.trans hb) hok, Option.some.injEq] at hl
      exact ⟨rfl, hl ▸ rfl⟩

/-- An attempt that decides or is the last one settles its check. -/
theorem exists_settles (hq : ∀ b ∈ p.log, ¬ QueryResult.Decisive b.result)
    (hend : QueryResult.Decisive a.result ∨ ¬ a.number < p.policy.maxAttempts)
    (hres : (p.log ++ [a]).map (·.result) = results)
    (hlog : (p.log ++ [a]).map (fun a => (a.result, a.number.toNat)) = results.zipIdx 1)
    (hnum : a.number.toNat = results.length) :
    ∃ o, p.outcomeWith a = some o ∧ o.log = p.log ++ [a] ∧ Settles results o := by
  by_cases hd : QueryResult.Decisive a.result
  · cases hr : a.result with
    | ok c =>
      rw [hr] at hd
      exact ⟨_, Probe.outcomeWith_of_peers hr hd, rfl, settles_of_peers hr hd hres hlog hnum⟩
    | error e =>
      rw [hr] at hd
      cases e with
      | invalidMagnet detail =>
        exact ⟨_, Probe.outcomeWith_of_malformed hr, rfl, settles_of_malformed hr hres hlog hnum⟩
      | unreachable detail => exact hd.elim
      | timeout after => exact hd.elim
  · have hn := hend.resolve_left hd
    refine ⟨_, by rw [Probe.outcomeWith_of_undecided hd, if_neg hn], ?_,
      settles_of_undecided (fun r hmem => ?_) hres hlog hnum⟩
    · unfold Probe.undecided
      split <;> rfl
    · rw [← hres, List.map_append, List.mem_append, List.mem_map] at hmem
      rcases hmem with ⟨b, hb, rfl⟩ | hmem
      · exact hq b hb
      · simp only [List.map_cons, List.map_nil, List.mem_singleton] at hmem
        exact hmem ▸ hd

end

/-! ## A whole check -/

section

variable [SwarmClient κ τ]

/-- The check that has made some attempts and settled none of them. -/
def Probe.afterTrials (magnet : String) (policy : RetryPolicy) (ts : List Trial) : Probe τ :=
  (Probe.start magnet policy).recordAll (numbered 1 ts)

/-- After attempts of its budget that did not decide, a check is where it would be had it begun
there. -/
theorem runCheck_of_trials {magnet : String} {policy : RetryPolicy} {client after : κ} {next : Nat}
    {ts : List Trial} (h : Trials magnet policy 0 client ts next after)
    (hq : ∀ u ∈ ts, ¬ QueryResult.Decisive u.result) (hb : ts.length < policy.budget) :
    runCheck client magnet policy none =
      Probe.pursue none next (1 + UInt32.ofNat ts.length) (.afterTrials magnet policy ts) after := by
  rw [runCheck_eq]
  exact Probe.pursue_of_trials (p := .start magnet policy) h hq (RetryPolicy.le_of_lt_budget hb) rfl

theorem runCheck_of_last {magnet : String} {policy : RetryPolicy} {client client' after : κ}
    {mid : Nat} {ts : List Trial} {t : Trial} {o : CheckOutcome}
    (h : Trials magnet policy 0 client ts mid client')
    (ht : Trial.Goes magnet policy mid client' t after)
    (hq : ∀ u ∈ ts, ¬ QueryResult.Decisive u.result) (hb : ts.length < policy.budget)
    (ho : (Probe.afterTrials (τ := τ) magnet policy ts).outcomeWith
      (t.attempt (1 + UInt32.ofNat ts.length)) = some o) :
    runCheck client magnet policy none = (some ⟨o, t.endedAt⟩, after) := by
  rw [runCheck_of_trials h hq hb]
  exact Probe.pursue_of_settled (p := .afterTrials magnet policy ts) ht rfl ho

/-- **How a check settles that is not cancelled.** Of the attempts in a row that its client lets
go, it makes those up to the first that decides or to the last of its budget, asks nothing else,
and ends with the last of them as their results say. Only a client that breaks down on one of
these attempts keeps it from settling. -/
theorem runCheck_settles (client : κ) (magnet : String) (policy : RetryPolicy) :
    (∃ ts t next after o, Trials magnet policy 0 client (ts ++ [t]) next after ∧
      (∀ u ∈ ts, ¬ QueryResult.Decisive u.result) ∧ ts.length < policy.budget ∧
      (QueryResult.Decisive t.result ∨ ts.length + 1 = policy.budget) ∧
      runCheck client magnet policy none = (some ⟨o, t.endedAt⟩, after) ∧
      runCheck (Observed.of client) magnet policy none =
        (some ⟨o, t.endedAt⟩, ⟨after, (ts ++ [t]).map (Trial.visit magnet policy)⟩) ∧
      Settles ((ts ++ [t]).map (·.result)) o ∧
      o.log.map (·.startedAt) = (ts ++ [t]).map (·.startedAt)) ∨
    (∃ ts next after broken, Trials magnet policy 0 client ts next after ∧
      (∀ u ∈ ts, ¬ QueryResult.Decisive u.result) ∧ ts.length < policy.budget ∧
      SwarmClient.ask next magnet policy.queryTimeout after = (.crashed, broken) ∧
      runCheck client magnet policy none = (none, broken)) := by
  have hpos : 0 < policy.budget := Nat.lt_of_lt_of_le Nat.zero_lt_one (Nat.le_max_left _ _)
  rcases exists_trials magnet policy policy.budget hpos 0 client with
    ⟨ts, t, next, after, hts, hq, hb, hend⟩ | ⟨ts, next, after, broken, hts, hq, hb, hbroken⟩
  · refine .inl ⟨ts, t, next, after, ?_⟩
    obtain ⟨mid, client', hmid, ht⟩ := hts.concat
    have hlen := RetryPolicy.le_of_lt_budget hb
    let a := t.attempt (1 + UInt32.ofNat ts.length)
    have hnum : a.number.toNat = ts.length + 1 := (toNat_add_length hlen).trans (Nat.add_comm 1 _)
    have hlog : (numbered 1 ts ++ [a]).map (fun a => (a.result, a.number.toNat)) =
        ((ts ++ [t]).map (·.result)).zipIdx 1 := by
      rw [List.map_append, map_numbered hlen, List.map_append, List.zipIdx_append]
      simp [a, Trial.attempt, toNat_add_length hlen]
    have hres : (numbered 1 ts ++ [a]).map (·.result) = (ts ++ [t]).map (·.result) := by
      rw [List.map_append, List.map_append, results_numbered]
      rfl
    have hlast : QueryResult.Decisive a.result ∨ ¬ a.number < policy.maxAttempts := by
      refine hend.imp_right fun he => ?_
      rw [UInt32.lt_iff_toNat_lt, hnum, he]
      exact Nat.not_lt.mpr (Nat.le_max_right _ _)
    obtain ⟨o, ho, hol, hset⟩ := exists_settles (p := Probe.afterTrials (τ := τ) magnet policy ts)
      (quiet_numbered hq) hlast hres hlog (by simp [hnum])
    have hobs : Trials magnet policy 0 (Observed.of client) ts mid _ := hmid.observed []
    have htobs := ht.observed (ts.map (Trial.visit magnet policy))
    refine ⟨o, hts, hq, hb, hend, runCheck_of_last hmid ht hq hb ho, ?_, hset, ?_⟩
    · rw [List.map_append]
      exact runCheck_of_last hobs htobs hq hb ho
    · rw [hol]
      show (numbered 1 ts ++ [a]).map (·.startedAt) = _
      rw [List.map_append, List.map_append, starts_numbered]
      rfl
  · refine .inr ⟨ts, next, after, broken, hts, hq, hb, hbroken, ?_⟩
    rw [runCheck_of_trials hts hq hb]
    exact Probe.pursue_of_crashed (p := .afterTrials magnet policy ts) hbroken

end

end SwarmSampler
