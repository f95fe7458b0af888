import SwarmSampler.Proofs.Check.Cancelling
import SwarmSampler.Proofs.Check.Settling
import SwarmSampler.Proofs.Client.Sessions
import SwarmSampler.Proofs.Settings.Bounds

/-
The deadline of an attempt against the time an engine's client takes. The policy
of some settings gives an attempt more time than warm-up and query timeout, and
a session is watched no longer than these, so the client always answers first:
a check's log holds what the client would answer if it were left alone. In
particular a swarm that stays empty is found to have no peers.
-/

namespace SwarmSampler

variable {κ τ : Type} [SwarmClient κ τ]

/-- Attempts in a row from an instant and a client on, each of which brings what the client answers when it
is asked then and left alone. -/
inductive OwnAnswers (magnet : String) (policy : RetryPolicy) : Nat → κ → List Trial → Nat → κ → Prop
  | nil {now : Nat} {client : κ} : OwnAnswers magnet policy now client [] now client
  | cons {now age next : Nat} {client client' after : κ} {result : QueryResult} {ts : List Trial}
      (alone : askOnce none now magnet policy.queryTimeout client = (some result, some age, client'))
      (rest : OwnAnswers magnet policy (now + age + policy.backoff.wait) client' ts next after) :
      OwnAnswers magnet policy now client (⟨now, now + age, result⟩ :: ts) next after

/-- A client that has some property answers within some time, with an answer of some kind, and keeps the property
when it is left. -/
def Prompt (magnet : String) (timeout : Span) (limit : Nat) (property : κ → Prop) (kind : QueryResult → Prop) : Prop :=
  ∀ now client, property client → ∃ query client' age,
    SwarmClient.ask now magnet timeout client = (.underway query, client') ∧ query.takes = some age ∧
    age ≤ limit ∧ kind query.result ∧ ∀ left, property (SwarmClient.leave query.session left client')

section

variable {limit : Nat} {property : κ → Prop} {kind : QueryResult → Prop}

/-- What a prompt client answers by the deadline is what it answers when it is left alone. -/
theorem Prompt.answers {magnet : String} {policy : RetryPolicy} {now : Nat} {client client' : κ} {query : Query τ}
    (prompt : Prompt magnet policy.queryTimeout limit property kind)
    (inTime : limit ≤ policy.attemptDeadline.timer) (h : property client)
    (hask : SwarmClient.ask now magnet policy.queryTimeout client = (.underway query, client')) :
    ∃ age, query.within policy.attemptDeadline = (age, query.result) ∧ age ≤ limit ∧ kind query.result ∧
      askOnce none now magnet policy.queryTimeout client =
        (some query.result, some age, SwarmClient.leave query.session age client') ∧
      ∀ left, property (SwarmClient.leave query.session left client') := by
  obtain ⟨_, _, age, hask', takes, hage, hkind, hleft⟩ := prompt now client h
  rw [hask] at hask'
  cases hask'
  have hle : age ≤ policy.attemptDeadline.timer := Nat.le_trans hage inTime
  refine ⟨age, by simp [Query.within, takes, hle], hage, hkind, ?_, hleft⟩
  simp only [askOnce, hask, Query.run_of_takes takes]
  rfl

/-- **A check logs a prompt client's own answers**, all of that kind, from the beginning of any attempt on and
whenever it is cancelled. -/
theorem Probe.pursue_prompt (cancelAt : Option Nat) (now : Nat) (n : UInt32) (p : Probe τ) (client : κ)
    (prompt : Prompt p.magnet p.policy.queryTimeout limit property kind)
    (inTime : limit ≤ p.policy.attemptDeadline.timer) (h : property client) :
    ∃ run after ts next client', pursue cancelAt now n p client = (some run, after) ∧
      OwnAnswers p.magnet p.policy now client ts next client' ∧ run.outcome.log = p.log ++ numbered n ts ∧
      ∀ t ∈ ts, t.endedAt ≤ t.startedAt + limit := by
  fun_induction pursue cancelAt now n p client with
  | case1 now n p client broken hask =>
    obtain ⟨_, _, _, hask', -⟩ := prompt now client h
    rw [hask] at hask'
    cases hask'
  | case2 now n p client query client' hask answer instant hcut =>
    exact ⟨_, _, [], now, client, rfl, .nil, by simp [aborted, numbered], by simp⟩
  | case3 now n p client query client' hask answer hcut client'' a o ho =>
    obtain ⟨age, hanswer, hage, -, alone, -⟩ := prompt.answers inTime h hask
    refine ⟨_, _, [⟨now, now + age, query.result⟩], _, _, rfl, .cons alone .nil, ?_, by simpa using hage⟩
    rw [log_of_outcomeWith ho]
    simp only [a, answer, hanswer]
    rfl
  | case4 now n p client query client' hask answer hcut client'' a ho next instant hrest =>
    obtain ⟨age, hanswer, hage, -, alone, -⟩ := prompt.answers inTime h hask
    refine ⟨_, _, [⟨now, now + age, query.result⟩], _, _, rfl, .cons alone .nil, ?_, by simpa using hage⟩
    simp only [aborted, record, a, answer, hanswer]
    rfl
  | case5 now n p client query client' hask answer hcut client'' a ho next hrest ih =>
    obtain ⟨age, hanswer, hage, -, alone, hleft⟩ := prompt.answers inTime h hask
    obtain ⟨run, after, ts, last, final, hrun, hown, hlog, hts⟩ := ih prompt inTime (hleft answer.1)
    have hnext : next = now + age + p.policy.backoff.wait := by simp only [next, answer, hanswer]
    have hclient : client'' = SwarmClient.leave query.session age client' := by
      simp only [client'', answer, hanswer]
    rw [hnext, hclient] at hown
    refine ⟨run, after, ⟨now, now + age, query.result⟩ :: ts, last, final, hrun, .cons alone hown, ?_,
      by simpa using ⟨hage, hts⟩⟩
    rw [hlog]
    simp only [record, a, answer, hanswer, List.append_assoc]
    rfl

/-- The first attempts of a check that have found nobody. -/
def nobody (attempts : Nat) : List (Nat × QueryResult) :=
  (List.range attempts).map fun i => (i + 1, .ok .none)

theorem nobody_succ (attempts : Nat) : nobody (attempts + 1) = nobody attempts ++ [(attempts + 1, .ok .none)] := by
  simp [nobody, List.range_succ]

theorem lastError_of_nobody {log : List Attempt} {attempts : Nat}
    (h : log.map (fun a => (a.number.toNat, a.result)) = nobody attempts) : lastError log = none := by
  refine lastError_eq_none fun a ha => ⟨.none, ?_⟩
  have hmem : (a.number.toNat, a.result) ∈ nobody attempts := h ▸ List.mem_map_of_mem ha
  simp only [nobody, List.mem_map, Prod.mk.injEq] at hmem
  obtain ⟨i, -, -, hr⟩ := hmem
  exact hr.symm

theorem not_decisive_none : ¬ QueryResult.Decisive (.ok .none) := by
  simp [QueryResult.Decisive, PeerCounts.none]

/-- A check that is not cancelled and finds nobody each time uses up its attempts and ends without peers. -/
theorem Probe.pursue_nobody (now : Nat) (n : UInt32) (p : Probe τ) (client : κ) (k : Nat)
    (prompt : Prompt p.magnet p.policy.queryTimeout limit property (· = .ok .none))
    (inTime : limit ≤ p.policy.attemptDeadline.timer) (h : property client) (hn : n.toNat = k + 1)
    (hk : k < p.policy.budget) (hlog : p.log.map (fun a => (a.number.toNat, a.result)) = nobody k) :
    ∃ run after, pursue none now n p client = (some run, after) ∧ run.outcome.outcome = .noPeers ∧
      run.outcome.counts = .none ∧ run.outcome.attempts.toNat = p.policy.budget ∧
      run.outcome.log.map (fun a => (a.number.toNat, a.result)) = nobody p.policy.budget := by
  have hnumbers : ∀ {p : Probe τ} {a : Attempt} {k : Nat}, a.number.toNat = k + 1 → a.result = .ok .none →
      p.log.map (fun a => (a.number.toNat, a.result)) = nobody k →
      (p.log ++ [a]).map (fun a => (a.number.toNat, a.result)) = nobody (k + 1) := by
    intro p a k hnumber hresult hbefore
    rw [List.map_append, hbefore, nobody_succ, List.map_singleton, hnumber, hresult]
  fun_induction pursue none now n p client generalizing k with
  | case1 now n p client broken hask =>
    obtain ⟨_, _, _, hask', -⟩ := prompt now client h
    rw [hask] at hask'
    cases hask'
  | case2 now n p client query client' hask answer instant hcut => simp at hcut
  | case3 now n p client query client' hask answer hcut client'' a o ho =>
    obtain ⟨age, hanswer, -, hkind, -⟩ := prompt.answers inTime h hask
    have hresult : a.result = .ok .none := by simp only [a, answer, hanswer, hkind]
    have hlog' := hnumbers hn hresult hlog
    rw [outcomeWith_of_undecided (hresult ▸ not_decisive_none)] at ho
    split at ho
    · cases ho
    · next hlast =>
      have hbudget : k + 1 = p.policy.budget := by
        have : p.policy.maxAttempts.toNat ≤ n.toNat := Nat.le_of_not_lt hlast
        unfold RetryPolicy.budget at hk ⊢
        omega
      rw [undecided, lastError_of_nobody hlog', Option.some.injEq] at ho
      subst ho
      exact ⟨_, _, rfl, rfl, rfl, hn.trans hbudget, hbudget ▸ hlog'⟩
  | case4 now n p client query client' hask answer hcut client'' a ho next instant hrest => simp at hrest
  | case5 now n p client query client' hask answer hcut client'' a ho next hrest ih =>
    obtain ⟨age, hanswer, -, hkind, -, hleft⟩ := prompt.answers inTime h hask
    have hresult : a.result = .ok .none := by simp only [a, answer, hanswer, hkind]
    have hlt : n < p.policy.maxAttempts := lt_of_outcomeWith ho
    have hnext := toNat_add_one hlt
    have hbudget : k + 1 < p.policy.budget := by
      have : n.toNat < p.policy.maxAttempts.toNat := hlt
      unfold RetryPolicy.budget
      omega
    exact ih (k + 1) prompt inTime (hleft answer.1) (by omega) hbudget (hnumbers hn hresult hlog)

end

/-! ## An engine's client -/

namespace EngineClient

/-- From one age to another the engine shows a swarm in which nobody is, and which has metadata at the end. -/
structure Deserted (rows : List TableRow) (first last : Nat) : Prop where
  undecided : ∀ age, first ≤ age → age ≤ last → Undecided (PeerEngine.tableAt rows age)
  metadata : ∃ t, PeerEngine.tableAt rows last = some t ∧ t.hasMetadata = true ∧ t.counts = .none

/-- A client answers by the end of warm-up and timeout, and if its engine refuses nothing and shows a deserted
swarm it finds nobody. -/
theorem prompt (c : EngineClient) (magnet : String) {timeout limit : Span}
    (h : c.warmup.add? timeout = some limit) :
    Prompt magnet timeout limit.timer (fun client => ∃ k log, client = c.having k log) fun result =>
      ∀ hash, Magnet.parse magnet = .ok hash → (∀ k : Nat, c.engine.refusals[k]?.join = none) →
        Deserted c.engine.rows c.warmup.timer limit.timer → result = .ok .none := by
  rintro now _ ⟨k, log, rfl⟩
  have hwarm : c.warmup.timer ≤ limit.timer := Span.timer_le_of_add? h
  have hr := receives magnet timeout (c.having k log)
  cases hask : (c.having k log).ask magnet timeout with
  | mk asked client' =>
    rw [hask] at hr
    cases hr with
    | overlong endless => cases h.symm.trans endless
    | rejected bounded malformed =>
      refine ⟨_, _, 0, hask, rfl, Nat.zero_le _, ?_, fun left => ⟨k, log, rfl⟩⟩
      intro hash parses
      cases malformed.symm.trans parses
    | refused bounded parses refuses =>
      refine ⟨_, _, 0, hask, rfl, Nat.zero_le _, ?_, fun left => ⟨k + 1, _, rfl⟩⟩
      intro hash _ admits
      cases (admits k).symm.trans refuses
    | @opened limit' hash bounded parses admits =>
      obtain rfl : limit = limit' := Option.some.inj (h.symm.trans bounded)
      refine ⟨_, _, _, hask, rfl, (watch_le hwarm).2, ?_, fun left => ⟨k + 1, _, rfl⟩⟩
      intro _ _ _ deserted
      obtain ⟨t, htable, hmeta, hcounts⟩ := deserted.metadata
      have hwatch : watch c.engine.rows hash (c.rhythm limit) limit none c.warmup.timer =
          (limit.timer, .ok t.counts) :=
        watch_of_undecided (r := c.rhythm limit) hwarm deserted.undecided htable hmeta
      exact (congrArg Prod.snd hwatch).trans (congrArg Except.ok hcounts)

/-- A client with the warm-up and the pause of some settings. -/
def ofSettings (settings : Settings) (engine : PeerEngine) : EngineClient :=
  ⟨engine, settings.warmup, settings.pollInterval⟩

/-- **The deadline never comes before the engine.** Whatever an engine does whose client is asked under the policy
of its settings, and whenever the check is cancelled, the check goes through, and each attempt in its log brings
what the client answers when it is left alone, with the whole milliseconds of a pause between polls to spare, and
a second at least. So where the engine refuses nothing and shows a deserted swarm from warm-up on, a check that is
not cancelled finds on all its attempts that nobody is there. -/
theorem runCheck_unhurried (settings : Settings) {policy : RetryPolicy} (h : settings.retryPolicy? = some policy)
    (engine : PeerEngine) (magnet : String) :
    (∀ cancelAt, ∃ run after ts next client',
      runCheck (ofSettings settings engine) magnet policy cancelAt = (some run, after) ∧
      OwnAnswers magnet policy 0 (ofSettings settings engine) ts next client' ∧
      run.outcome.log = numbered 1 ts ∧
      ∀ t ∈ ts, t.endedAt + max (settings.pollInterval.nanos / 1_000_000) 1000 * 1_000_000 ≤
        t.startedAt + policy.attemptDeadline.timer) ∧
    (∀ hash, Magnet.parse magnet = .ok hash → (∀ k : Nat, engine.refusals[k]?.join = none) →
      Deserted engine.rows settings.warmup.timer
        (Span.wholeMillis (settings.warmup.nanos + settings.queryTimeout.nanos)) →
      ∃ run after, runCheck (ofSettings settings engine) magnet policy none = (some run, after) ∧
        run.outcome.outcome = .noPeers ∧ run.outcome.counts = .none ∧
        run.outcome.attempts.toNat = policy.budget ∧
        run.outcome.log.map (fun a => (a.number.toNat, a.result)) = nobody policy.budget) := by
  obtain ⟨bounded, hpolicy⟩ := Settings.eq_of_retryPolicy? h
  have hquery : policy.queryTimeout = settings.queryTimeout := by rw [hpolicy]
  have hdeadline : policy.attemptDeadline.nanos =
      settings.warmup.nanos + settings.queryTimeout.nanos + max settings.pollInterval.nanos 1_000_000_000 := by
    rw [hpolicy]
    rfl
  have hengine : settings.warmup.nanos + settings.queryTimeout.nanos < spanLimit := by
    unfold Settings.attemptBound at bounded
    omega
  have hlimit : (ofSettings settings engine).warmup.add? policy.queryTimeout = some ⟨_, hengine⟩ := by
    rw [hquery]
    exact Span.ofNanos?_of_lt hengine
  have hprompt := (ofSettings settings engine).prompt magnet hlimit
  have hbegin : ∃ k log, ofSettings settings engine = (ofSettings settings engine).having k log := ⟨_, _, rfl⟩
  have spare : Span.wholeMillis (settings.warmup.nanos + settings.queryTimeout.nanos) +
      max (settings.pollInterval.nanos / 1_000_000) 1000 * 1_000_000 ≤ policy.attemptDeadline.timer := by
    rw [← Span.wholeMillis_add_mul]
    exact Span.wholeMillis_mono (by omega)
  have inTime : Span.timer ⟨_, hengine⟩ ≤ policy.attemptDeadline.timer := Nat.le_of_add_right_le spare
  constructor
  · intro cancelAt
    rw [runCheck_eq]
    cases hc : cancelAt.filter (· ≤ 0) with
    | some instant => exact ⟨_, _, [], _, _, rfl, .nil, rfl, by simp⟩
    | none =>
      obtain ⟨run, after, ts, next, client', hrun, hown, hlog, hts⟩ :=
        Probe.pursue_prompt cancelAt 0 1 (.start magnet policy) _ hprompt inTime hbegin
      refine ⟨run, after, ts, next, client', hrun, hown, hlog, fun t ht => ?_⟩
      calc t.endedAt + _
          ≤ t.startedAt + Span.timer ⟨_, hengine⟩ + _ := Nat.add_le_add_right (hts t ht) _
        _ ≤ t.startedAt + policy.attemptDeadline.timer := by
            rw [Nat.add_assoc]
            exact Nat.add_le_add_left spare _
  · intro hash parses admits deserted
    have hnobody : Prompt magnet policy.queryTimeout _ _ (· = .ok .none) := fun now client hclient => by
      obtain ⟨query, client', age, hask, takes, hage, hkind, hleft⟩ := hprompt now client hclient
      exact ⟨query, client', age, hask, takes, hage, hkind hash parses admits deserted, hleft⟩
    have hbudget : 0 < policy.budget := Nat.lt_of_lt_of_le Nat.zero_lt_one (Nat.le_max_left _ _)
    rw [runCheck_eq]
    exact Probe.pursue_nobody 0 1 (.start magnet policy) _ 0 hnobody inTime hbegin rfl hbudget rfl

/-- An engine that knows a torrent from the start and never lists a peer. -/
def desertedEngine : PeerEngine := ⟨[⟨0, some ⟨true, 0, 0⟩⟩], [], 0, []⟩

theorem desertedEngine_deserted (first last : Nat) : Deserted desertedEngine.rows first last := by
  have htable : ∀ age, PeerEngine.tableAt desertedEngine.rows age = some ⟨true, 0, 0⟩ := by
    simp [desertedEngine, PeerEngine.tableAt]
  exact ⟨fun age _ _ => ⟨_, htable age, by simp⟩, _, htable last, rfl, rfl⟩

def desertedMagnet : String := "magnet:?xt=urn:btih:c12fe1c06bba254a9dc9f519b335aa7c1367a88a"

/-- Under the standard settings a check of a deserted swarm ends without peers after three empty attempts. -/
theorem runCheck_unhurried_standard :
    ∃ policy run after, Settings.standard.retryPolicy? = some policy ∧
      runCheck (ofSettings Settings.standard desertedEngine) desertedMagnet policy none = (some run, after) ∧
      run.outcome.outcome = .noPeers ∧ run.outcome.log.map (·.result) = [.ok .none, .ok .none, .ok .none] := by
  have hpolicy : Settings.standard.retryPolicy? = some ⟨3, _, _, _⟩ :=
    Settings.retryPolicy?_of_lt (by decide)
  have hparse : ∃ hash, Magnet.parse desertedMagnet = .ok hash := by
    have hok : (Magnet.parse desertedMagnet).isOk = true := by decide +kernel
    cases hp : Magnet.parse desertedMagnet with
    | ok hash => exact ⟨hash, rfl⟩
    | error fault =>
      rw [hp] at hok
      cases hok
  obtain ⟨hash, hhash⟩ := hparse
  obtain ⟨run, after, hrun, hnone, -, -, hlog⟩ := (runCheck_unhurried Settings.standard hpolicy desertedEngine _).2 hash
    hhash (by simp [desertedEngine]) (desertedEngine_deserted _ _)
  have hresults := congrArg (List.map Prod.snd) hlog
  rw [List.map_map] at hresults
  exact ⟨_, run, after, hpolicy, hrun, hnone, hresults⟩

end EngineClient

end SwarmSampler
