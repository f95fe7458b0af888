import SwarmSampler.Proofs.Sampler.Right
import SwarmSampler.Proofs.Sampler.Tally

/-
The journal of a cycle. A run's present cycle agrees with its journal about the
targets it was given, the checks it has started and the results that have come
in; so does every cycle it has been through, and nothing is told of cycles that
are still to come. What a cycle comes to can then be read off its journal.
-/

namespace SwarmSampler

namespace Sampler

variable {κ τ σ : Type}

/-- The targets that a cycle checks of those it was given. -/
def chosenOf (s : Sampler κ τ σ) (draw : Nat) (targets : List MonitoringTarget) : List MonitoringTarget :=
  s.plan.selection.choose (s.chance.shuffle draw) (eligibleOnce targets)

end Sampler

namespace Chronicle

open Sampler

variable {κ τ σ ρ : Type}

/-- The targets whose checks a cycle of a run has started. -/
def targetsIn (c : Chronicle κ τ σ ρ) (run pass : Nat) : List MonitoringTarget :=
  (c.startedIn run pass).map (·.2)

/-- The results of a cycle of a run, in the order they came in. -/
def resultsIn (c : Chronicle κ τ σ ρ) (run pass : Nat) : List CheckResult := (c.endedIn run pass).map (·.2)

/-- A cycle agrees with its journal. -/
def Agrees (c : Chronicle κ τ σ ρ) (run pass : Nat) (counted : List CheckResult) (cycle : Cycle) : Prop :=
  ∃ draw targets, c.listingsOf run pass = [(draw, targets)] ∧
    cycle.Tally (c.sampler.chosenOf draw targets) (ineligibleCount targets) (c.sampler.runHalted run)
      (c.targetsIn run pass) (c.resultsIn run pass) counted

/-- How a cycle came to its result: it did not begin, or it has counted all its checks. -/
inductive Closed (c : Chronicle κ τ σ ρ) (run pass : Nat) : Except Failure CycleSummary → Prop
  | barren {f : Failure} (started : c.startedIn run pass = []) (ended : c.endedIn run pass = []) :
      Closed c run pass (.error f)
  | counted {cycle : Cycle} (agrees : c.Agrees run pass (c.resultsIn run pass) cycle)
      (left : cycle.left = []) (uncounted : cycle.uncounted = 0) :
      Closed c run pass (match cycle.fatal with
        | some f => .error f
        | none => .ok cycle.summary)

theorem Closed.of_ok {c : Chronicle κ τ σ ρ} {run pass : Nat} {summary : CycleSummary}
    (h : c.Closed run pass (.ok summary)) :
    ∃ cycle, c.Agrees run pass (c.resultsIn run pass) cycle ∧ cycle.left = [] ∧ cycle.uncounted = 0 ∧
      cycle.summary = summary := by
  generalize hr : (.ok summary : Except Failure CycleSummary) = result at h
  cases h with
  | barren => cases hr
  | @counted cycle agrees left uncounted =>
    split at hr
    · cases hr
    · cases hr
      exact ⟨cycle, agrees, left, uncounted, rfl⟩

/-- A cycle ends with the first failure of the whole store among its results. -/
theorem Closed.of_fatal {c : Chronicle κ τ σ ρ} {run pass : Nat} {result : Except Failure CycleSummary}
    (h : c.Closed run pass result) {f : Failure}
    (fatal : (c.resultsIn run pass).findSome? CheckResult.fatal? = some f) : result = .error f := by
  cases h with
  | barren _ ended =>
    rw [resultsIn, ended] at fatal
    cases fatal
  | @counted cycle agrees =>
    obtain ⟨draw, targets, -, htally⟩ := agrees
    rw [htally.fatal, fatal]

/-- Nothing is told of a cycle. -/
def Untold (c : Chronicle κ τ σ ρ) (run pass : Nat) : Prop :=
  c.listingsOf run pass = [] ∧ c.startedIn run pass = [] ∧ c.endedIn run pass = []

/-- The cycles agree with the journal. -/
structure Tallied (c : Chronicle κ τ σ ρ) : Prop where
  present : ∀ {run cycle}, c.sampler.cycle? run = some cycle →
    ∃ counted, c.Agrees run (c.sampler.passNo run) counted cycle
  past : ∀ {run k pass}, (c.sampler.passes run)[k]? = some pass → c.Closed run k pass.result
  future : ∀ {run k}, c.sampler.passNo run ≤ k →
    (k = c.sampler.passNo run → c.sampler.cycle? run = none) → c.Untold run k

variable {c c' : Chronicle κ τ σ ρ} {run pass : Nat}

/-- The journal tells no more of a cycle than before. -/
structure SameCycle (c c' : Chronicle κ τ σ ρ) (run pass : Nat) : Prop where
  plan : c'.sampler.plan = c.sampler.plan
  chance : c'.sampler.chance = c.sampler.chance
  halted : c.sampler.runHalted run = true → c'.sampler.runHalted run = true
  listings : c'.listingsOf run pass = c.listingsOf run pass
  started : c'.startedIn run pass = c.startedIn run pass
  ended : c'.endedIn run pass = c.endedIn run pass

theorem SameCycle.agrees (h : SameCycle c c' run pass) {counted : List CheckResult} {cycle : Cycle}
    (ha : c.Agrees run pass counted cycle) : c'.Agrees run pass counted cycle := by
  obtain ⟨draw, targets, hl, ht⟩ := ha
  refine ⟨draw, targets, by rw [h.listings, hl], ?_⟩
  rw [targetsIn, resultsIn, h.started, h.ended, chosenOf, h.plan, h.chance]
  exact ht.cancel h.halted

theorem SameCycle.closed (h : SameCycle c c' run pass) {result : Except Failure CycleSummary}
    (hc : c.Closed run pass result) : c'.Closed run pass result := by
  cases hc with
  | barren started ended => exact .barren (h.started.trans started) (h.ended.trans ended)
  | counted agrees left uncounted =>
    have ha := h.agrees agrees
    rw [show c.resultsIn run pass = c'.resultsIn run pass by rw [resultsIn, resultsIn, h.ended]] at ha
    exact .counted ha left uncounted

theorem SameCycle.untold (h : SameCycle c c' run pass) (hu : c.Untold run pass) : c'.Untold run pass :=
  ⟨h.listings.trans hu.1, h.started.trans hu.2.1, h.ended.trans hu.2.2⟩

/-- Cycles still agree of which nothing new is told. -/
theorem Tallied.congr (h : c.Tallied) (hs : ∀ run pass, SameCycle c c' run pass)
    (cycles : ∀ run, c'.sampler.cycle? run = c.sampler.cycle? run)
    (passes : ∀ run, c'.sampler.passes run = c.sampler.passes run) : c'.Tallied where
  present {run cycle} hc := by
    obtain ⟨counted, ha⟩ := h.present (cycles run ▸ hc)
    rw [passNo, passes]
    exact ⟨counted, (hs run _).agrees ha⟩
  past {run k pass} hp := (hs run k).closed (h.past (passes run ▸ hp))
  future {run k} hle hnone := by
    rw [passNo, passes] at hle hnone
    exact (hs run k).untold (h.future hle fun hk => cycles run ▸ hnone hk)

/-- Where the present cycle of a run stands after a move. -/
inductive Onward (c : Chronicle κ τ σ ρ) (run : Nat) (past : List Pass) : Prop
  | going {cycle : Cycle} {counted : List CheckResult} (present : c.sampler.cycle? run = some cycle)
      (same : c.sampler.passes run = past) (agrees : c.Agrees run past.length counted cycle) : Onward c run past
  | closes {pass : Pass} (idle : c.sampler.cycle? run = none) (more : c.sampler.passes run = past ++ [pass])
      (closed : c.Closed run past.length pass.result) : Onward c run past

/-- Cycles still agree when one of them has gone on and nothing new is told of others. -/
theorem Tallied.onward (h : c.Tallied) (own : c'.Onward run (c.sampler.passes run))
    (others : ∀ r, r ≠ run → c'.sampler.runs[r]? = c.sampler.runs[r]?)
    (same : ∀ r k, (r = run → k ≠ c.sampler.passNo run) → SameCycle c c' r k) : c'.Tallied where
  present {r cycle} hc := by
    by_cases hr : r = run
    · subst hr
      cases own with
      | going present same' agrees =>
        obtain rfl := Option.some.inj (present.symm.trans hc)
        rw [passNo, same']
        exact ⟨_, agrees⟩
      | closes idle => cases idle.symm.trans hc
    · obtain ⟨counted, ha⟩ := h.present ((cycle?_congr (others r hr)).symm.trans hc)
      rw [passNo, passes_congr (others r hr)]
      exact ⟨counted, (same r _ fun h' => absurd h' hr).agrees ha⟩
  past {r k pass} hp := by
    by_cases hr : r = run
    · subst hr
      have before : (c.sampler.passes r)[k]? = some pass → c'.Closed r k pass.result := fun hp =>
        (same r k fun _ => Nat.ne_of_lt (List.getElem?_eq_some_iff.1 hp).1).closed (h.past hp)
      cases own with
      | going _ same' => exact before (same' ▸ hp)
      | @closes last _ more closed =>
        rw [more] at hp
        rcases Nat.lt_trichotomy k (c.sampler.passes r).length with hk | rfl | hk
        · exact before ((List.getElem?_append_left hk).symm.trans hp)
        · rw [List.getElem?_concat_length, Option.some.injEq] at hp
          exact hp ▸ closed
        · have hlt := (List.getElem?_eq_some_iff.1 hp).1
          rw [List.length_append, List.length_singleton] at hlt
          omega
    · exact (same r k fun h' => absurd h' hr).closed (h.past (passes_congr (others r hr) ▸ hp))
  future {r k} hle hnone := by
    by_cases hr : r = run
    · subst hr
      -- Something is told of the present cycle, so it is not one of those to come.
      have hlt : c.sampler.passNo r < k := by
        cases own with
        | going present same' =>
          rw [passNo, same'] at hle hnone
          refine Nat.lt_of_le_of_ne hle fun hk => ?_
          cases present.symm.trans (hnone hk.symm)
        | closes _ more =>
          rw [passNo, more, List.length_append] at hle
          exact hle
      exact (same r k fun _ => Nat.ne_of_gt hlt).untold
        (h.future (Nat.le_of_lt hlt) fun hk => absurd hk (Nat.ne_of_gt hlt))
    · rw [passNo, passes_congr (others r hr)] at hle hnone
      exact (same r k fun h' => absurd h' hr).untold
        (h.future hle fun hk => (cycle?_congr (others r hr)).symm.trans (hnone hk))

/-! ## What moves tell of cycles -/

theorem listingsOf_append (s : Sampler (Observed κ) (Nat × τ) σ) (entries : List (Entry ρ)) :
    (⟨s, c.journal ++ entries⟩ : Chronicle κ τ σ ρ).listingsOf run pass =
      c.listingsOf run pass ++ entries.filterMap (Entry.listing? run pass) := List.filterMap_append

theorem startedIn_append (s : Sampler (Observed κ) (Nat × τ) σ) (entries : List (Entry ρ)) :
    (⟨s, c.journal ++ entries⟩ : Chronicle κ τ σ ρ).startedIn run pass =
      c.startedIn run pass ++ entries.filterMap (Entry.start? run pass) := List.filterMap_append

theorem endedIn_append (s : Sampler (Observed κ) (Nat × τ) σ) (entries : List (Entry ρ)) :
    (⟨s, c.journal ++ entries⟩ : Chronicle κ τ σ ρ).endedIn run pass =
      c.endedIn run pass ++ entries.filterMap (Entry.end? run pass) := List.filterMap_append

/-- What has to be shown of new entries for a cycle to agree with them as well. -/
theorem Agrees.of_append {s : Sampler (Observed κ) (Nat × τ) σ} {entries : List (Entry ρ)}
    {counted : List CheckResult} {cycle : Cycle} (draw : Nat) (targets : List MonitoringTarget)
    (plan : s.plan = c.sampler.plan) (chance : s.chance = c.sampler.chance)
    (listing : c.listingsOf run pass ++ entries.filterMap (Entry.listing? run pass) = [(draw, targets)])
    (tally : Cycle.Tally (c.sampler.chosenOf draw targets) (ineligibleCount targets) (s.runHalted run)
      (c.targetsIn run pass ++ (entries.filterMap (Entry.start? run pass)).map (·.2))
      (c.resultsIn run pass ++ (entries.filterMap (Entry.end? run pass)).map (·.2)) counted cycle) :
    Agrees ⟨s, c.journal ++ entries⟩ run pass counted cycle := by
  refine ⟨draw, targets, (listingsOf_append s entries).trans listing, ?_⟩
  rw [targetsIn, resultsIn, startedIn_append, endedIn_append, List.map_append, List.map_append, chosenOf,
    plan, chance]
  exact tally

/-- Entries that tell nothing of a cycle. -/
def Mute (entries : List (Entry ρ)) (run pass : Nat) : Prop :=
  entries.filterMap (Entry.listing? run pass) = [] ∧ entries.filterMap (Entry.start? run pass) = [] ∧
    entries.filterMap (Entry.end? run pass) = []

theorem SameCycle.of_mute {s : Sampler (Observed κ) (Nat × τ) σ} {entries : List (Entry ρ)}
    (plan : s.plan = c.sampler.plan) (chance : s.chance = c.sampler.chance)
    (halted : c.sampler.runHalted run = true → s.runHalted run = true) (mute : Mute entries run pass) :
    SameCycle c ⟨s, c.journal ++ entries⟩ run pass where
  plan := plan
  chance := chance
  halted := halted
  listings := by rw [listingsOf_append, mute.1, List.append_nil]
  started := by rw [startedIn_append, mute.2.1, List.append_nil]
  ended := by rw [endedIn_append, mute.2.2, List.append_nil]

section

variable [SwarmClient κ τ] [SampleStore σ] {view : SampleView σ ρ} {before : List ρ}
  {s s' : Sampler (Observed κ) (Nat × τ) σ} {id : Nat}

omit [SwarmClient κ τ] [SampleStore σ] in
theorem mem_startedIn {target : MonitoringTarget} :
    (id, target) ∈ c.startedIn run pass ↔ CheckEvent.started ⟨run, pass, target⟩ ∈ c.life id := by
  have hiff : ∀ e : Entry ρ, Entry.start? run pass e = some (id, target) ↔
      Entry.of? id e = some (.started ⟨run, pass, target⟩) := by
    intro e
    cases e with
    | listed | vain | foreign => simp [Entry.start?, Entry.told, Entry.of?]
    | check i event =>
      cases event with
      | started e =>
        obtain ⟨r, p, t⟩ := e
        by_cases hi : i = id <;>
          simp [Entry.start?, Entry.told, Entry.of?, CheckEvent.start?, hi, and_assoc]
      | asked | settled | stored | published | ended =>
        simp [Entry.start?, Entry.told, Entry.of?, CheckEvent.start?]
  simp only [startedIn, life, List.mem_filterMap, hiff]

omit [SwarmClient κ τ] in
/-- The task of a check that was started in a cycle belongs to that cycle, which is the present one. -/
theorem Right.task_of_started (h : Right view before c) {target : MonitoringTarget}
    (started : CheckEvent.started ⟨run, pass, target⟩ ∈ c.life id) {t : CheckTask (Nat × τ)}
    (task : c.sampler.check? id = some t) : t.run = run ∧ pass = c.sampler.passNo run ∧ t.target = target := by
  obtain ⟨hm, hid⟩ := mem_of_check? task
  obtain ⟨rest, hcurrent⟩ := h.current t hm
  obtain ⟨rest', hlife⟩ := (h.lives id).cons_of_started started
  rw [hid, hlife, List.cons.injEq, CheckEvent.started.injEq, Errand.mk.injEq] at hcurrent
  obtain ⟨⟨rfl, hpass, htarget⟩, -⟩ := hcurrent
  exact ⟨rfl, hpass, htarget.symm⟩

/-! ## Turns of checks -/

theorem filterMap_noteTurn (s s' : Sampler (Observed κ) (Nat × τ) σ) (id run pass : Nat) :
    let entries : List (Entry ρ) := (noteTurn id s s').map (.check id)
    entries.filterMap (Entry.listing? run pass) = [] ∧ entries.filterMap (Entry.start? run pass) = [] := by
  intro entries
  simp only [entries, noteTurn]
  split
  · simp only [noteCheck]
    generalize s'.reports.drop s.reports.length = reports
    generalize (s'.arrived _).drop _ = results
    simp [questions, Function.comp_def, Entry.listing?, Entry.start?, Entry.told, CheckEvent.start?,
      List.filterMap_none]
  · exact ⟨rfl, rfl⟩

/-- The turn of a check tells its result to the present cycle of its run. -/
theorem filterMap_end (s' : Sampler (Observed κ) (Nat × τ) σ) {t : CheckTask (Nat × τ)}
    (h : s.check? id = some t) :
    ((noteTurn id s s' : List (CheckEvent ρ)).map (Entry.check id)).filterMap (Entry.end? run pass) =
      if t.run = run ∧ s.passNo t.run = pass then
        ((s'.arrived t.run).drop (s.arrived t.run).length).map (Prod.mk id)
      else [] := by
  rw [noteTurn_eq h, noteCheck]
  generalize s'.reports.drop s.reports.length = reports
  generalize (s'.arrived t.run).drop (s.arrived t.run).length = results
  by_cases hp : t.run = run ∧ s.passNo t.run = pass
  · obtain ⟨rfl, rfl⟩ := hp
    simp [questions, Function.comp_def, Entry.end?, Entry.told, CheckEvent.end?, List.filterMap_none]
  · simp [questions, Function.comp_def, Entry.end?, Entry.told, CheckEvent.end?, hp, List.filterMap_none]

theorem Tallied.check (ht : c.Tallied) (h : Right view before c) (id : Nat) :
    (c.step view.toRowView (.check id)).Tallied := by
  have turn := h.checkTurn id
  have same : ∀ {run pass : Nat},
      ((noteTurn id c.sampler (c.sampler.resumeCheck id) : List (CheckEvent ρ)).map (Entry.check id)).filterMap
        (Entry.end? run pass) = [] → SameCycle c (c.step view.toRowView (.check id)) run pass :=
    fun {run pass} hend => .of_mute turn.plan turn.chance (fun hh => (turn.runHalted run).trans hh)
      ⟨(filterMap_noteTurn ..).1, (filterMap_noteTurn ..).2, hend⟩
  obtain hcy | ⟨t, result, cycle, task, hcy, hcy', others⟩ := turn.cycles h.balanced
  · refine ht.congr (fun run pass => same ?_) hcy turn.passes
    cases htask : c.sampler.check? id with
    | none =>
      rw [noteTurn, htask]
      rfl
    | some t =>
      rw [filterMap_end _ htask, arrived, arrived, hcy, List.drop_length]
      split <;> rfl
  · have hend : ∀ run pass,
        ((noteTurn id c.sampler (c.sampler.resumeCheck id) : List (CheckEvent ρ)).map (Entry.check id)).filterMap
          (Entry.end? run pass) =
        if t.run = run ∧ c.sampler.passNo t.run = pass then [(id, result)] else [] := by
      intro run pass
      rw [filterMap_end _ task, arrived, arrived, hcy, hcy', Option.map_some, Option.map_some,
        Option.getD_some, Option.getD_some, List.drop_left]
      rfl
    obtain ⟨counted, draw, targets, hl, htally⟩ := ht.present hcy
    have hagrees : (c.step view.toRowView (.check id)).Agrees t.run (c.sampler.passNo t.run) counted
        { cycle with arrived := cycle.arrived ++ [result] } := by
      obtain ⟨hlisting, hstart⟩ := filterMap_noteTurn (ρ := ρ) c.sampler (c.sampler.resumeCheck id) id
        t.run (c.sampler.passNo t.run)
      have hnew := (hend t.run (c.sampler.passNo t.run)).trans (if_pos ⟨rfl, rfl⟩)
      have hgrown := (htally.arrive [result]).cancel (turn.runHalted t.run).trans
      rw [← List.append_nil (c.targetsIn _ _)] at hgrown
      refine .of_append draw targets turn.plan turn.chance ((congrArg _ hlisting).trans (by rw [hl]; rfl)) ?_
      simp only [note, move, hstart, hnew]
      exact hgrown
    refine Tallied.onward ht (.going hcy' (turn.passes t.run) hagrees) others fun r k hne => same ?_
    refine (hend r k).trans (if_neg ?_)
    rintro ⟨rfl, rfl⟩
    exact hne rfl rfl

/-! ## Turns of runs -/

omit [SwarmClient κ τ] [SampleStore σ] in
theorem newTasks_targets (run first : Nat) (policy : RetryPolicy) (targets : List MonitoringTarget) :
    (newTasks (τ := τ) run first policy targets).map (·.target) = targets := by
  induction targets generalizing first with
  | nil => rfl
  | cons t ts ih => rw [newTasks, List.map_cons, ih]

omit [SwarmClient κ τ] [SampleStore σ] in
/-- The checks that a run starts are told to its present cycle. -/
theorem starts_cycle (s : Sampler κ τ σ) (run : Nat) (first : List MonitoringTarget) (r k : Nat) :
    let entries : List (Entry ρ) := starts s run first
    entries.filterMap (Entry.listing? r k) = [] ∧ entries.filterMap (Entry.end? r k) = [] ∧
      (entries.filterMap (Entry.start? r k)).map (·.2) =
        if run = r ∧ s.passNo run = k then first else [] := by
  intro entries
  refine ⟨?_, ?_, ?_⟩
  · simp [entries, starts, Function.comp_def, Entry.listing?, List.filterMap_none]
  · simp [entries, starts, Function.comp_def, Entry.end?, Entry.told, CheckEvent.end?, List.filterMap_none]
  · by_cases h : run = r ∧ s.passNo run = k
    · rw [if_pos h]
      obtain ⟨rfl, rfl⟩ := h
      simp [entries, starts, Function.comp_def, Entry.start?, Entry.told, CheckEvent.start?, newTasks_targets]
    · simp [entries, starts, Function.comp_def, Entry.start?, Entry.told, CheckEvent.start?, h,
        List.filterMap_none]

omit [SwarmClient κ τ] in
/-- A cycle that goes on starts the first of the targets that are left, and may come to its end. -/
theorem Agrees.goOn {run began : Nat} {cycle : Cycle} {first rest : List MonitoringTarget}
    {x : Cycle × Sampler (Observed κ) (Nat × τ) σ} {counted : List CheckResult}
    (ha : c.Agrees run (c.sampler.passNo run) counted cycle) (known : run < c.sampler.runs.length)
    (few : cycle.arrived.length ≤ cycle.uncounted) (hx : Starting c.sampler run cycle.left cycle first rest x)
    (ht : CycleTurn run began x.1 x.2 s') (hran : Ran run first c.sampler s') :
    Onward ⟨s', c.journal ++ starts c.sampler run first⟩ run (c.sampler.passes run) := by
  obtain ⟨hlisting, hend, hstart⟩ := starts_cycle (ρ := ρ) c.sampler run first run (c.sampler.passNo run)
  obtain ⟨draw, targets, hl, htally⟩ := ha
  have hbegun := htally.begin hx
  have hagrees : ∀ {counted cycle'},
      Cycle.Tally (c.sampler.chosenOf draw targets) (ineligibleCount targets) (c.sampler.runHalted run)
        (c.targetsIn run (c.sampler.passNo run) ++ first) (c.resultsIn run (c.sampler.passNo run))
        counted cycle' →
      Agrees ⟨s', c.journal ++ starts c.sampler run first⟩ run (c.sampler.passNo run) counted cycle' := by
    intro counted cycle' h
    refine .of_append draw targets hran.plan hran.chance (by rw [hlisting, hl]; rfl) ?_
    rw [hstart, hend, hran.halted, if_pos ⟨rfl, rfl⟩, List.map_nil, List.append_nil]
    exact h
  have hresults : resultsIn ⟨s', c.journal ++ starts c.sampler run first⟩ run (c.sampler.passNo run) =
      c.resultsIn run (c.sampler.passNo run) := by
    rw [resultsIn, endedIn_append, hend, List.append_nil]
    rfl
  have hfew : x.1.arrived.length ≤ x.1.uncounted := by
    rw [hx.kept]
    exact Nat.le_add_right_of_le few
  obtain ⟨pool, hp⟩ := hx.state
  rw [hp] at ht
  cases ht with
  | starts left =>
    exact .going (cycle?_withPhase known _) (passes_withPhase ..) (hagrees hbegun)
  | counts left open' =>
    exact .going (cycle?_withPhase known _) (passes_withPhase ..) (hagrees (hbegun.takeArrived left hfew))
  | ends left done =>
    refine .closes (cycle?_endCycle ..) (passes_endCycle known ..) ?_
    have hcounted := hagrees (hbegun.takeArrived left hfew)
    rw [← hresults] at hcounted
    exact .counted hcounted (by rw [Cycle.takeArrived_eq]; exact left) done

omit [SwarmClient κ τ] [SampleStore σ] in
theorem noteListing_cycle (s s' : Sampler κ τ σ) (run r k : Nat) :
    let entries : List (Entry ρ) := noteListing run s s'
    entries.filterMap (Entry.start? r k) = [] ∧ entries.filterMap (Entry.end? r k) = [] ∧
      (¬(run = r ∧ s.passNo run = k) → entries.filterMap (Entry.listing? r k) = []) := by
  intro entries
  simp only [entries, noteListing]
  split
  · split
    · exact ⟨rfl, rfl, fun _ => rfl⟩
    · refine ⟨rfl, rfl, fun h => ?_⟩
      simp [Entry.listing?, h]
  · exact ⟨rfl, rfl, fun _ => rfl⟩

omit [SwarmClient κ τ] [SampleStore σ] in
/-- A cycle that ends before it begins. -/
theorem Untold.barren {entries : List (Entry ρ)} {f : Failure} (h : c.Untold run pass)
    (started : entries.filterMap (Entry.start? run pass) = [])
    (ended : entries.filterMap (Entry.end? run pass) = []) :
    Closed ⟨s, c.journal ++ entries⟩ run pass (.error f) :=
  .barren (by rw [startedIn_append, h.2.1, started]; rfl) (by rw [endedIn_append, h.2.2, ended]; rfl)

omit [SwarmClient κ τ] [SampleStore σ] in
/-- A cycle that has got its targets. -/
theorem Untold.listed (h : c.Untold run pass) (draw : Nat) (plan : s.plan = c.sampler.plan)
    (chance : s.chance = c.sampler.chance) (targets : List MonitoringTarget) :
    Agrees ⟨s, c.journal ++ [.listed run pass draw targets]⟩ run pass []
      ⟨.start (c.sampler.chosenOf draw targets).length (ineligibleCount targets), c.sampler.chosenOf draw targets,
        0, [], false, none⟩ := by
  refine .of_append draw targets plan chance ?_ ?_
  · rw [h.1]
    simp [Entry.listing?]
  · rw [targetsIn, resultsIn, h.2.1, h.2.2]
    exact .start ..

omit [SwarmClient κ τ] in
theorem Tallied.ran {run : Nat} (ht : c.Tallied) (hb : c.sampler.Balanced) (turn : RunTurn c.sampler run s') :
    Tallied ⟨s', c.journal ++ noteRun run c.sampler s'⟩ := by
  obtain ⟨first, hran⟩ := turn.ran
  have same : ∀ {r k : Nat}, Mute (noteRun (ρ := ρ) run c.sampler s') r k →
      SameCycle c ⟨s', c.journal ++ noteRun run c.sampler s'⟩ r k := fun mute =>
    .of_mute hran.plan hran.chance (fun h => (hran.halted _).trans h) mute
  have elsewhere : ∀ r k, (r = run → k ≠ c.sampler.passNo run) →
      SameCycle c ⟨s', c.journal ++ noteRun run c.sampler s'⟩ r k := by
    intro r k hne
    have hno : ¬(run = r ∧ c.sampler.passNo run = k) := fun h => hne h.1.symm h.2.symm
    obtain ⟨hs, he, hl⟩ := noteListing_cycle (ρ := ρ) c.sampler s' run r k
    obtain ⟨hl', he', hs'⟩ := starts_cycle (ρ := ρ) c.sampler run first r k
    rw [if_neg hno, List.map_eq_nil_iff] at hs'
    refine same ⟨?_, ?_, ?_⟩
    · rw [noteRun_eq hran, List.filterMap_append, hl hno, hl']; rfl
    · rw [noteRun_eq hran, List.filterMap_append, hs, hs']; rfl
    · rw [noteRun_eq hran, List.filterMap_append, he, he']; rfl
  have alone : s'.checks = c.sampler.checks →
      noteRun (ρ := ρ) run c.sampler s' = noteListing run c.sampler s' := (noteRun_of_checks · run)
  have quiet : s'.drawn = c.sampler.drawn → s'.checks = c.sampler.checks → ∀ r k,
      SameCycle c ⟨s', c.journal ++ noteRun run c.sampler s'⟩ r k := fun hd hc r k => same <| by
    rw [alone hc, noteListing_of_same hd]
    exact ⟨rfl, rfl, rfl⟩
  cases turn with
  | rests idle ended => exact ht.congr (quiet rfl rfl) (fun _ => rfl) fun _ => rfl
  | ends idle halted => exact ht.congr (quiet rfl rfl) (cycle?_over idle _) (passes_withPhase _ run _)
  | @barren f store drawn idle known cause =>
    have huntold := ht.future (Nat.le_refl _) fun _ => idle
    refine Tallied.onward ht (.closes (cycle?_endCycle ..) (passes_endCycle known ..) (huntold.barren ?_ ?_))
      hran.others elsewhere
    · rw [alone rfl]
      exact (noteListing_cycle ..).1
    · rw [alone rfl]
      exact (noteListing_cycle ..).2.1
  | @begins targets n store idle known listed registered =>
    have huntold := ht.future (Nat.le_refl _) fun _ => idle
    let begun : Sampler (Observed κ) (Nat × τ) σ :=
      { c.sampler with store := store, drawn := c.sampler.drawn + 1 }
    let chosen := c.sampler.chosenOf c.sampler.drawn targets
    let cycle : Cycle := ⟨.start chosen.length (ineligibleCount targets), chosen, 0, [], false, none⟩
    obtain ⟨first', rest, x, hx, hturn⟩ := goOnCycle_turn begun run c.sampler.now cycle
    have halts := checksHalted_of_idle (s := begun) idle
    have hbegun := hx.ran hturn fun hh => by rw [← halts, hh, Bool.true_or]
    have hran' := hbegun.registered (goOnCycle_kept ..).1 ⟨_, _, _, (congrArg Prod.snd registered).symm⟩
    have hlisted : noteListing (ρ := ρ) run c.sampler (begun.goOnCycle run c.sampler.now cycle) =
        [.listed run (c.sampler.passNo run) c.sampler.drawn targets] := by
      rw [noteListing, listed, (goOnCycle_kept ..).2]
      exact if_neg (Nat.succ_ne_self _)
    -- The listing is told first, then the checks that are started at once.
    have hagrees := huntold.listed (s := begun) c.sampler.drawn rfl rfl targets
    have honward := hagrees.goOn known (Nat.zero_le _) hx hturn hbegun
    have hown : Onward ⟨begun.goOnCycle run c.sampler.now cycle,
        c.journal ++ noteRun run c.sampler (begun.goOnCycle run c.sampler.now cycle)⟩ run
        (c.sampler.passes run) := by
      rw [noteRun_eq hran', hlisted, ← List.append_assoc]
      exact honward
    exact Tallied.onward ht hown hran.others elsewhere
  | @goesOn began cycle r busy phase =>
    have hcy := cycle?_of_phase busy phase
    obtain ⟨counted, hagrees⟩ := ht.present hcy
    have hbalance := hb run
    rw [Sampler.uncounted, arrived, hcy] at hbalance
    obtain ⟨first', rest, x, hx, hturn⟩ := goOnCycle_turn c.sampler run began cycle
    have hran' := hx.ran hturn fun hh => by rwa [checksHalted, hcy] at hh
    refine Tallied.onward ht ?_ hran.others elsewhere
    rw [noteRun_eq hran', noteListing_of_same (goOnCycle_kept ..).2, List.nil_append]
    exact hagrees.goOn (List.getElem?_eq_some_iff.1 busy).1 (by simp at hbalance; omega) hx hturn hran'

/-! ## Every move -/

omit [SwarmClient κ τ] [SampleStore σ] in
theorem tallied_opened (h : s.New) : (opened s : Chronicle κ τ σ ρ).Tallied where
  present {run cycle} hc := by
    rw [opened_sampler, cycle?_eq, h.runs] at hc
    cases hc
  past {run k pass} hp := by
    rw [opened_sampler, passes, h.runs] at hp
    cases hp
  future _ _ := ⟨rfl, rfl, rfl⟩

/-- **Every move keeps the cycles in agreement with the journal.** -/
theorem Tallied.step (ht : c.Tallied) (h : Right view before c) (m : Move σ) :
    (c.step view.toRowView m).Tallied := by
  have still : (∀ run pass, Mute (brings view c.sampler m) run pass) →
      (c.sampler.move m).plan = c.sampler.plan → (c.sampler.move m).chance = c.sampler.chance →
      (∀ run, (c.sampler.move m).cycle? run = c.sampler.cycle? run) →
      (∀ run, (c.sampler.move m).passes run = c.sampler.passes run) →
      (c.step view.toRowView m).Tallied := fun mute plan chance cycles passes =>
    ht.congr (fun run pass => .of_mute plan chance (fun hh => (h.runHalted m run).2 (.inl hh)) (mute run pass))
      cycles passes
  cases m with
  | run run => exact ht.ran h.balanced (resumeRun_turn c.sampler run)
  | check id => exact ht.check h id
  | work =>
    refine still (fun run pass => ?_) rfl rfl (fun _ => rfl) fun _ => rfl
    show Mute (noteWork view.toRowView c.sampler c.sampler.work) run pass
    obtain ⟨r, rest, x, -, -, -, hn⟩ | ⟨-, hn | hn⟩ := noteWork_cases view c.sampler
    all_goals
      rw [hn]
      exact ⟨rfl, rfl, rfl⟩
  | clock | cancel | relist | register =>
    exact still (fun _ _ => ⟨rfl, rfl, rfl⟩) rfl rfl (fun _ => rfl) fun _ => rfl
  | cancelRun run =>
    exact still (fun _ _ => ⟨rfl, rfl, rfl⟩) rfl rfl (cycle?_cancelRun _ run) (passes_cancelRun _ run)
  | addRun repeats =>
    exact still (fun _ _ => ⟨rfl, rfl, rfl⟩) rfl rfl (fun r => (addRun_eq _ repeats r).1)
      fun r => (addRun_eq _ repeats r).2
  | append sample metrics =>
    refine still (fun run pass => ?_) rfl rfl (fun _ => rfl) fun _ => rfl
    show Mute ((gained _ _ _).map Entry.foreign) run pass
    simp [Mute, Function.comp_def, Entry.listing?, Entry.start?, Entry.end?, Entry.told,
      List.filterMap_none]

theorem Tallied.steps (ms : List (Move σ)) (ht : c.Tallied) (h : Right view before c) :
    (c.run view.toRowView ms).Tallied :=
  (run_keeps (P := fun c => c.Tallied ∧ Right view before c)
    (fun m h => ⟨h.1.step h.2 m, h.2.step m⟩) ms ⟨ht, h⟩).1

end

end Chronicle

end SwarmSampler
