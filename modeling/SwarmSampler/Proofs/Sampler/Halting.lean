import Mathlib
import SwarmSampler.Client.Scripted
import SwarmSampler.Proofs.Sampler.Accounts

/-
Cycles whose checks are cancelled, because their run is or because they have
counted a failure of the whole store. Whatever happens next, such a cycle starts
no check and none of its checks asks anything more. A failure of the whole store
ends the cycle with that failure, but it is counted only after the cycle has
started its last check: until then the failure of one check keeps no other from
asking.
-/

namespace SwarmSampler

namespace Sampler

variable {κ τ σ : Type} {s s' : Sampler κ τ σ} {run k : Nat}

/-- A cycle of a run that is over, or whose checks are cancelled. -/
def Stilled (s : Sampler κ τ σ) (run k : Nat) : Prop :=
  k < s.passNo run ∨ k = s.passNo run ∧ s.checksHalted run = true

theorem checksHalted_congr (runs : s'.runs[run]? = s.runs[run]?) (halted : s'.runHalted run = s.runHalted run) :
    s'.checksHalted run = s.checksHalted run := by
  rw [checksHalted, checksHalted, cycle?_congr runs, halted]

theorem checksHalted_mono (cycles : s'.cycle? run = s.cycle? run)
    (mono : s.runHalted run = true → s'.runHalted run = true) (h : s.checksHalted run = true) :
    s'.checksHalted run = true := by
  rw [checksHalted, Bool.or_eq_true_iff] at h ⊢
  exact h.imp mono (cycles ▸ id)

theorem checksHalted_of_run (h : s.runHalted run = true) : s.checksHalted run = true := by
  rw [checksHalted, h, Bool.true_or]

theorem checksHalted_of_cycle {cycle : Cycle} (h : s.cycle? run = some cycle) (halted : cycle.halted = true) :
    s.checksHalted run = true := by
  rw [checksHalted, h, Option.any_some, halted, Bool.or_true]

section

variable [SwarmClient κ τ] [SampleStore σ]

/-- A turn of a check cancels nothing. -/
theorem CheckTurn.checksHalted {id : Nat} (h : CheckTurn s id s') (hb : s.Balanced) (run : Nat) :
    s'.checksHalted run = s.checksHalted run := by
  have hrun := h.runHalted run
  obtain hcy | ⟨t, result, cycle, -, hcy, hcy', others⟩ := h.cycles hb
  · rw [Sampler.checksHalted, Sampler.checksHalted, hrun, hcy]
  · by_cases hr : run = t.run
    · rw [Sampler.checksHalted, Sampler.checksHalted, hrun, hr, hcy, hcy']
      rfl
    · exact checksHalted_congr (others run hr) hrun

omit [SwarmClient κ τ] in
/-- A turn of a run whose checks are cancelled leaves them so, or ends the cycle. -/
theorem RunTurn.stilled (h : RunTurn s run s') (halted : s.checksHalted run = true) :
    s.passNo run < s'.passNo run ∨ s'.checksHalted run = true := by
  have longer : ∀ {s s' : Sampler κ τ σ} {pass : Pass}, s'.passes run = s.passes run ++ [pass] →
      s.passNo run < s'.passNo run := by
    intro s s' pass hp
    rw [passNo, passNo, hp, List.length_append]
    exact Nat.lt_succ_self _
  obtain ⟨first, hran⟩ := h.ran
  cases h with
  | rests => exact .inr halted
  | ends idle hh => exact .inr (checksHalted_of_run ((hran.halted run).trans hh))
  | barren idle known => exact .inl (longer (passes_endCycle known ..))
  | begins idle known listed registered =>
    rw [checksHalted_of_idle idle] at halted
    exact .inr (checksHalted_of_run ((hran.halted run).trans halted))
  | @goesOn began cycle r busy phase =>
    rw [checksHalted, cycle?_of_phase busy phase, Option.any_some, Bool.or_eq_true_iff] at halted
    obtain hh | hh := halted
    · exact .inr (checksHalted_of_run ((hran.halted run).trans hh))
    · obtain ⟨first', rest, x, hx, ht⟩ := goOnCycle_turn s run began cycle
      have hkept : x.1.halted = true := by rw [hx.kept]; exact hh
      obtain ⟨pool, hp⟩ := hx.state
      rw [hp] at ht
      have known : run < (s.begun run first' pool).runs.length := (List.getElem?_eq_some_iff.1 busy).1
      generalize s.goOnCycle run began cycle = s' at ht ⊢
      cases ht with
      | starts left => exact .inr (checksHalted_of_cycle (cycle?_withPhase known _) hkept)
      | counts left open' =>
        refine .inr (checksHalted_of_cycle (cycle?_withPhase known _) ?_)
        rw [Cycle.takeArrived_eq]
        exact (congrArg (· || _) hkept).trans (Bool.true_or _)
      | ends left done => exact .inl (longer (s := s.begun run first' pool) (passes_endCycle known ..))

end

/-- A cancelled check asks nothing in its turn. -/
theorem CheckTurn.queries_of_halted [SwarmClient κ τ] [SampleStore σ]
    {s s' : Sampler (Observed κ) (Nat × τ) σ} {id : Nat} (h : CheckTurn s id s')
    (cancelled : ∀ t, s.check? id = some t → s.checksHalted t.run = true) :
    s'.client.queries = s.client.queries := by
  have hturn : ∀ {t : CheckTask (Nat × τ)} {p : Probe (Nat × τ)} {x : Probe.Progress (Nat × τ)}
      {client' : Observed κ}, s.check? id = some t →
      p.resume s.now (s.checksHalted t.run) s.client = (x, client') → client'.queries = s.client.queries := by
    intro t p x client' task hx
    rw [cancelled t task] at hx
    obtain ⟨_, _, _, _, _, hq⟩ := Probe.resume_cancelled s.now p s.client
    rwa [hx] at hq
  cases h with
  | absent | stands => rfl
  | waits task stage turn => exact hturn task turn
  | settles task stage turn => exact hturn task turn
  | ends task ending =>
    cases ending with
    | crashes stage turn => exact hturn task turn
    | reports | fails => rfl

end Sampler

namespace Chronicle

open Sampler

variable {κ τ σ ρ : Type} [SwarmClient κ τ] [SampleStore σ] {view : SampleView σ ρ} {before : List ρ}
  {c : Chronicle κ τ σ ρ} {run k : Nat}

/-- What a run has been through is never taken back. -/
theorem Right.past (h : Right view before c) (m : Move σ) (run : Nat) :
    c.sampler.passes run <+: (c.sampler.move m).passes run := by
  cases m with
  | run id =>
    obtain ⟨first, hran⟩ := (resumeRun_turn c.sampler id).ran
    by_cases hr : run = id
    · exact hr ▸ hran.past
    · exact (passes_congr (hran.others run hr)).symm ▸ List.prefix_rfl
  | check id => exact ((h.checkTurn id).passes run).symm ▸ List.prefix_rfl
  | cancelRun id => exact (passes_cancelRun ..).symm ▸ List.prefix_rfl
  | addRun repeats => exact (addRun_eq _ repeats run).2.symm ▸ List.prefix_rfl
  | work | clock | cancel | relist | register | append => exact List.prefix_rfl

/-- Checks that are cancelled stay so until their cycle is over. -/
theorem Right.checksHalted (h : Right view before c) (halted : c.sampler.checksHalted run = true)
    {m : Move σ} (same : (c.sampler.move m).passNo run = c.sampler.passNo run) :
    (c.sampler.move m).checksHalted run = true := by
  have mono := fun hh => (h.runHalted m run).2 (.inl hh)
  cases m with
  | run id =>
    have ht := resumeRun_turn c.sampler id
    by_cases hr : run = id
    · subst hr
      exact (ht.stilled halted).resolve_left (Nat.not_lt.2 (Nat.le_of_eq same))
    · obtain ⟨first, hran⟩ := ht.ran
      exact (checksHalted_congr (hran.others run hr) (hran.halted run)).trans halted
  | check id => exact ((h.checkTurn id).checksHalted h.balanced run).trans halted
  | cancelRun id => exact checksHalted_mono (cycle?_cancelRun _ id run) mono halted
  | addRun repeats => exact checksHalted_mono (addRun_eq _ repeats run).1 mono halted
  | work | clock | cancel | relist | register | append =>
    exact checksHalted_mono (s := c.sampler) rfl mono halted

/-- A stilled cycle stays so. -/
theorem Right.stilled (h : Right view before c) (hs : c.sampler.Stilled run k) (m : Move σ) :
    (c.sampler.move m).Stilled run k := by
  have hle := (h.past m run).length_le
  obtain hlt | ⟨rfl, halted⟩ := hs
  · exact .inl (Nat.lt_of_lt_of_le hlt hle)
  · rcases Nat.eq_or_lt_of_le hle with heq | hlt
    · exact .inr ⟨heq, h.checksHalted halted heq.symm⟩
    · exact .inl hlt

/-! ## What a stilled cycle does no more -/

/-- Only turns of runs start checks. -/
theorem starts_of_run (view : SampleView σ ρ) (s : Sampler (Observed κ) (Nat × τ) σ) (m : Move σ) (run k : Nat)
    (other : ∀ id, m ≠ .run id) : (brings view s m).filterMap (Entry.start? run k) = [] := by
  cases m with
  | run id => exact absurd rfl (other id)
  | check id => exact (filterMap_noteTurn ..).2
  | work =>
    show (noteWork view.toRowView s s.work).filterMap _ = []
    obtain ⟨r, rest, x, -, -, -, hn⟩ | ⟨-, hn | hn⟩ := noteWork_cases view s
    all_goals
      rw [hn]
      rfl
  | clock | cancel | cancelRun | addRun | relist | register => rfl
  | append sample metrics =>
    show ((gained _ _ _).map Entry.foreign).filterMap _ = []
    simp [Function.comp_def, Entry.start?, Entry.told]

/-- A cycle whose checks are cancelled starts none. -/
theorem starts_none (view : SampleView σ ρ) (hs : c.sampler.passNo run = k → c.sampler.checksHalted run = true)
    (m : Move σ) : (c.step view.toRowView m).startedIn run k = c.startedIn run k := by
  have hstep : (c.step view.toRowView m).startedIn run k =
      c.startedIn run k ++ (brings view c.sampler m).filterMap (Entry.start? run k) := startedIn_append ..
  rw [hstep]
  refine (congrArg _ ?_).trans (List.append_nil _)
  by_cases hm : ∃ id, m = .run id
  · obtain ⟨id, rfl⟩ := hm
    obtain ⟨first, hran⟩ := (resumeRun_turn c.sampler id).ran
    obtain ⟨-, -, hfirst⟩ := starts_cycle (ρ := ρ) c.sampler id first run k
    have hnone : (if id = run ∧ c.sampler.passNo id = k then first else []) = [] := by
      split
      · next heq =>
        obtain ⟨rfl, hk⟩ := heq
        exact hran.cancelled (hs hk)
      · rfl
    rw [hnone, List.map_eq_nil_iff] at hfirst
    show (noteRun id c.sampler (c.sampler.resumeRun id)).filterMap _ = []
    rw [noteRun_eq hran, List.filterMap_append, hfirst, (noteListing_cycle ..).1]
    rfl
  · exact starts_of_run view c.sampler m run k fun id hid => hm ⟨id, hid⟩

/-- What a check has asked. -/
def questionsOf (c : Chronicle κ τ σ ρ) (id : Nat) : List (Nat × String) :=
  (c.life id).filterMap CheckEvent.question?

omit [SwarmClient κ τ] [SampleStore σ] in
theorem questionsOf_append (s : Sampler (Observed κ) (Nat × τ) σ) (entries : List (Entry ρ)) (id : Nat) :
    (⟨s, c.journal ++ entries⟩ : Chronicle κ τ σ ρ).questionsOf id =
      c.questionsOf id ++ (entries.filterMap (Entry.of? id)).filterMap CheckEvent.question? := by
  rw [questionsOf, life, List.filterMap_append, List.filterMap_append]
  rfl

/-- Only a turn of a check that is not cancelled asks anything. -/
theorem Right.asks_none (h : Right view before c) {m : Move σ} {id : Nat}
    (cancelled : ∀ t, c.sampler.check? id = some t → c.sampler.checksHalted t.run = true) :
    (c.step view.toRowView m).questionsOf id = c.questionsOf id := by
  refine (questionsOf_append ..).trans ((congrArg _ ?_).trans (List.append_nil _))
  show ((brings view c.sampler m).filterMap (Entry.of? id)).filterMap _ = []
  obtain he | ⟨run, target, -, -, he⟩ | ⟨-, he⟩ | ⟨r, rest, row, -, -, -, he⟩ :=
    brings_cases view c.sampler m id
  · rw [he]
    rfl
  · rw [he]
    rfl
  · have turn := h.checkTurn id
    have hquestions := (entries_noteTurn (ρ := ρ) turn).2.2
    rw [List.filterMap_map] at hquestions
    rw [he]
    refine hquestions.trans ?_
    rw [asks, turn.queries_of_halted cancelled, List.drop_length]
  · rw [he]
    rfl

/-- **A stilled cycle starts no check, and none of its checks asks anything more.** -/
theorem Right.stilled_steps (ms : List (Move σ)) : ∀ {c : Chronicle κ τ σ ρ}, Right view before c →
    c.sampler.Stilled run k →
      (c.run view.toRowView ms).startedIn run k = c.startedIn run k ∧
        ∀ p ∈ c.startedIn run k, (c.run view.toRowView ms).questionsOf p.1 = c.questionsOf p.1 := by
  induction ms with
  | nil => exact fun _ _ => ⟨rfl, fun _ _ => rfl⟩
  | cons m ms ih =>
    intro c h hs
    obtain ⟨hstarted, hasked⟩ := ih (h.step m) (h.stilled hs m)
    have hnone := starts_none view
      (fun hk => (hs.resolve_left fun hlt => absurd hk (Nat.ne_of_gt hlt)).2) m
    refine ⟨hstarted.trans hnone, fun p hp => (hasked p (hnone ▸ hp)).trans ?_⟩
    refine h.asks_none fun t ht => ?_
    obtain ⟨hrun, hpass, -⟩ := h.task_of_started (mem_startedIn.1 hp) ht
    exact hrun ▸ (hs.resolve_left fun hlt => absurd hpass (Nat.ne_of_lt hlt)).2

/-! ## Failures of the whole store -/

omit [SwarmClient κ τ] [SampleStore σ] in
/-- A cycle that has counted a failure of the whole store. It had started its last check before, or its
run was cancelled. -/
theorem Tallied.halted (ht : c.Tallied) {cycle : Cycle} (present : c.sampler.cycle? run = some cycle)
    (halted : cycle.halted = true) :
    ∃ draw targets, c.listingsOf run (c.sampler.passNo run) = [(draw, targets)] ∧
      (c.targetsIn run (c.sampler.passNo run) = c.sampler.chosenOf draw targets ∨
        c.sampler.runHalted run = true) := by
  obtain ⟨counted, draw, targets, hlisting, htally⟩ := ht.present present
  refine ⟨draw, targets, hlisting, ?_⟩
  have hleft := htally.left_of_halted halted
  obtain hs | ⟨-, -, hs⟩ := htally.split
  · rw [hleft, List.append_nil] at hs
    exact .inl hs
  · exact .inr hs

/-- **A failure of the whole store ends the cycle.** A cycle in which a check has ended with such a
failure ends with the first of them. From the count of the first one on no check of the cycle is started
and none asks anything more; but the cycle has started all its checks by then, unless its run was
cancelled. -/
theorem store_failure_ends_cycle (view : SampleView σ ρ) {settings : Settings} {chance : Chance}
    {source : TargetSource σ} {client : κ} {store : σ} {s : Sampler (Observed κ) (Nat × τ) σ}
    (opens : ofSettings settings chance source (Observed.of client) store = .ok s) (ms later : List (Move σ))
    (run : Nat) :
    let c := (opened s).run view.toRowView ms
    let c' := c.run view.toRowView later
    (∀ k pass, (c.sampler.passes run)[k]? = some pass →
      ∀ id why, (id, .failed why) ∈ c.endedIn run k → why.fatal = true →
        ∃ f, pass.result = .error f ∧ f.fatal = true) ∧
    ∀ cycle, c.sampler.cycle? run = some cycle → cycle.halted = true →
      let k := c.sampler.passNo run
      (∃ draw targets, c.listingsOf run k = [(draw, targets)] ∧
        (c.targetsIn run k = c.sampler.chosenOf draw targets ∨ c.sampler.runHalted run = true)) ∧
      c'.startedIn run k = c.startedIn run k ∧
        ∀ p ∈ c.startedIn run k, c'.questionsOf p.1 = c.questionsOf p.1 := by
  intro c c'
  have hnew := new_of_ofSettings opens
  have hright : Right view (view.rows s.store) c := (right_opened view hnew).run ms
  have htallied : c.Tallied := (tallied_opened hnew).steps ms (right_opened view hnew)
  refine ⟨fun k pass passed id why ended fatal => ?_, fun cycle present halted => ?_⟩
  · have hsome : ((c.resultsIn run k).findSome? CheckResult.fatal?).isSome = true := by
      rw [List.findSome?_isSome_iff]
      exact ⟨.failed why, List.mem_map.2 ⟨_, ended, rfl⟩, by rw [CheckResult.fatal?, if_pos fatal]; rfl⟩
    obtain ⟨f, hf⟩ := Option.isSome_iff_exists.1 hsome
    refine ⟨f, (htallied.past passed).of_fatal hf, ?_⟩
    obtain ⟨r, -, hr⟩ := List.exists_of_findSome?_eq_some hf
    exact CheckResult.fatal_of_fatal? hr
  · exact ⟨htallied.halted present halted,
      hright.stilled_steps later (.inr ⟨rfl, checksHalted_of_cycle present halted⟩)⟩

/-! ## What the failure of one check does not stop -/

def unstoredSettings : Settings :=
  { Settings.standard with storeWriteAttempts := 1, concurrency := 1, storeFailureThreshold := 1 }

def unstoredTargets : List MonitoringTarget :=
  [⟨"a", "", "", "A", true⟩, ⟨"b", "", "", "B", true⟩, ⟨"c", "", "", "C", true⟩, ⟨"d", "", "", "D", true⟩]

/-- A client that takes a second for each answer. -/
def unstoredClient : ScriptedClient := ⟨[], .ok ⟨1, 1⟩, 1000000000, [], []⟩

/-- A store that refuses everything. -/
def unstoredStore : FaultyStore := ⟨⟨[], some 1, false, false⟩, 0, []⟩

/-- A sampler that checks one target at a time and gives up on its store at once. -/
def unstored : Sampler (Observed ScriptedClient) (Nat × Unit) FaultyStore where
  plan := ⟨⟨3, .ofMillis 60000, .ofMillis 10000, .ofMillis 16000⟩, .all, .ofMillis 300000, 10⟩
  chance := .still
  drawn := 0
  now := 0
  source := .ofList unstoredTargets
  client := .of unstoredClient
  store := unstoredStore
  writer := .start unstoredSettings.writer
  pool := .full 1
  checks := []
  started := 0
  runs := []
  reports := []
  halted := false

/-- The cycle of a sampler up to the writer's answer to its first check, which is that the store is
unavailable. -/
def unstoredMoves : List (Move FaultyStore) :=
  [.addRun false, .run 0, .check 0, .clock 1000000000, .check 0, .work]

def unstoredLater : List (Move FaultyStore) :=
  [.check 0, .run 0, .check 1, .clock 2000000000, .check 1, .work, .check 1, .run 0, .check 2]

def unstoredEnd : List (Move FaultyStore) :=
  [.clock 3000000000, .check 2, .work, .check 2, .run 0, .check 3, .work, .check 3, .run 0]

def unstoredFailure : Failure :=
  ⟨.storeUnavailable, "STORE_WRITE_FAILURE: target a: STORE_FAILURE: append 1 refused (after 1 attempts)"⟩

/-- The failure of the first check, with which the cycle ends. -/
theorem store_failure_ends_cycle_unstored :
    let c := (opened unstored).run FaultyStore.sampleView.toRowView
      (unstoredMoves ++ unstoredLater ++ unstoredEnd)
    ∃ pass f, (c.sampler.passes 0)[0]? = some pass ∧ pass.result = .error f ∧ f.fatal = true := by
  intro c
  have opens : ofSettings unstoredSettings .still (.ofList unstoredTargets) (Observed.of unstoredClient)
      unstoredStore = .ok unstored := rfl
  have passed : (c.sampler.passes 0)[0]? = some ⟨0, 3000000000, .error unstoredFailure⟩ := by cbv
  have ended : (c.endedIn 0 0)[0]? = some (0, .failed unstoredFailure) := by cbv
  obtain ⟨f, hf⟩ := (store_failure_ends_cycle FaultyStore.sampleView opens _ [] 0).1 0 _ passed 0 _
    (List.mem_of_getElem? ended) rfl
  exact ⟨_, f, passed, hf⟩

/-- The writer has answered the first check of a cycle that the store is unavailable, and no other
check has been started. All the same two others are started and ask, one of them a second later. So
goes the cycle in the program's own order of turns. -/
theorem asks_after_store_failure :
    let c := (opened unstored).run FaultyStore.sampleView.toRowView unstoredMoves
    let c' := c.run FaultyStore.sampleView.toRowView unstoredLater
    c.sampler.writer.answer? 0 = some (.error unstoredFailure) ∧ unstoredFailure.fatal = true ∧
      (c.startedIn 0 0).map (·.1) = [0] ∧ (c'.startedIn 0 0).map (·.1) = [0, 1, 2] ∧
      c'.questionsOf 1 = [(1000000000, "B")] ∧ c'.questionsOf 2 = [(2000000000, "C")] ∧
      let program := (Schedule.ofSampler unstored).cycle
      program.2.sampler.writer.calls = [1000000000] ∧
        program.2.sampler.client.queries = [(0, "A"), (1000000000, "B"), (2000000000, "C")] := by
  refine ⟨by cbv, rfl, ?_, ?_, ?_, ?_, ?_, ?_⟩
  all_goals decide +kernel

end Chronicle

end SwarmSampler
