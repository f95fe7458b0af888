import SwarmSampler.Sampler.Open
import SwarmSampler.Proofs.Sampler.Keeping
import SwarmSampler.Proofs.Settings.Bounds

/-
What is true of a sampler and its journal at all times: every check is where
its life says, the store's rows, the published reports and the client's queries
are those of the journal, and the cycles balance. Every move keeps it.
-/

namespace SwarmSampler

namespace Settings

theorem check_eq_ok_iff {settings : Settings} {u : Unit} : settings.check = .ok u ↔ settings.fault? = none := by
  cases h : settings.fault? <;> simp [check, h]

/-- Settings that pass their check let a writer go on for some failures at least. -/
theorem threshold_of_check {settings : Settings} {u : Unit} (h : settings.check = .ok u) :
    settings.storeFailureThreshold ≠ 0 :=
  (fault?_eq_none_iff.1 (check_eq_ok_iff.1 h)).storeFailureThreshold

end Settings

namespace Sampler

variable {κ τ σ : Type}

/-- A sampler in which nothing has happened yet. -/
structure New (s : Sampler (Observed κ) (Nat × τ) σ) : Prop where
  writer : ∃ settings, s.writer = .start settings ∧ settings.failureThreshold ≠ 0
  visits : s.client.visits = []
  checks : s.checks = []
  started : s.started = 0
  runs : s.runs = []
  reports : s.reports = []
  halted : s.halted = false

/-- A sampler is opened from settings that pass their check, and with a policy of theirs. -/
theorem eq_of_ofSettings {settings : Settings} {chance : Chance} {source : TargetSource σ} {client : κ}
    {store : σ} {s : Sampler κ τ σ} (h : ofSettings settings chance source client store = .ok s) :
    (∃ u, settings.check = .ok u) ∧ ∃ policy, s = {
      plan := ⟨policy, settings.selection, settings.cycleInterval, settings.historyDepth⟩
      chance := chance
      drawn := 0
      now := 0
      source := source
      client := client
      store := store
      writer := .start settings.writer
      pool := .full settings.concurrency.toNat
      checks := []
      started := 0
      runs := []
      reports := []
      halted := false } := by
  unfold ofSettings at h
  cases hc : settings.check with
  | error f =>
    rw [hc] at h
    cases h
  | ok u =>
    rw [hc] at h
    cases hp : settings.retryPolicy? with
    | none =>
      simp only [hp] at h
      cases h
    | some policy =>
      simp only [hp] at h
      cases h
      exact ⟨⟨u, rfl⟩, policy, rfl⟩

/-- A sampler is opened new. -/
theorem new_of_ofSettings {settings : Settings} {chance : Chance} {source : TargetSource σ} {client : κ}
    {store : σ} {s : Sampler (Observed κ) (Nat × τ) σ}
    (h : ofSettings settings chance source (Observed.of client) store = .ok s) : s.New := by
  obtain ⟨⟨u, hc⟩, policy, rfl⟩ := eq_of_ofSettings h
  exact ⟨⟨_, rfl, Settings.threshold_of_check hc⟩, rfl, rfl, rfl, rfl, rfl, rfl⟩

end Sampler

/-- A chance that leaves everything as it is: the clock stands still, and nothing is shuffled. -/
def Chance.still : Chance where
  wall _ := .epoch
  sampleId n := toString n
  shuffle _ targets := targets
  shuffle_perm _ targets := .refl targets

/-- A list of targets that never changes. -/
def TargetSource.ofList {σ : Type} (targets : List MonitoringTarget) : TargetSource σ :=
  ⟨"list", fun _ => .ok targets⟩

namespace Chronicle

open Sampler

variable {κ τ σ ρ : Type} [SwarmClient κ τ] [SampleStore σ]

/-- A journal is right. -/
structure Right (view : SampleView σ ρ) (before : List ρ) (c : Chronicle κ τ σ ρ) : Prop where
  writes : c.sampler.Writes
  lives : ∀ id, Life view.toRowView id (c.sampler.standing id) (c.life id)
  /-- Nothing has happened to checks that were not started. -/
  fresh : ∀ id, c.sampler.started ≤ id → c.life id = []
  distinct : (c.sampler.checks.map (·.id)).Nodup
  balanced : c.sampler.Balanced
  current : Current c.sampler c.life
  rows : view.rows c.sampler.store = before ++ c.journal.filterMap Entry.row?
  reports : c.sampler.reports = c.journal.filterMap Entry.report?
  queries : c.sampler.client.queries = c.journal.filterMap Entry.question?

variable {view : SampleView σ ρ} {before : List ρ} {c : Chronicle κ τ σ ρ}
  {s : Sampler (Observed κ) (Nat × τ) σ}

omit [SwarmClient κ τ] in
theorem right_opened (view : SampleView σ ρ) (h : s.New) : Right view (view.rows s.store) (opened s) where
  writes := by
    obtain ⟨settings, hw, -⟩ := h.writer
    rw [Writes, opened_sampler, hw]
    exact ⟨rfl, rfl⟩
  lives id := by
    obtain ⟨settings, hw, -⟩ := h.writer
    have hst : (opened (ρ := ρ) s).sampler.standing id = ⟨none, [], []⟩ := by
      rw [opened_sampler, standing, check?, h.checks, hw]
      rfl
    rw [hst]
    exact .unborn
  fresh _ _ := rfl
  distinct := by
    rw [opened_sampler, h.checks]
    exact .nil
  balanced run := by
    rw [opened_sampler, uncounted, arrived, openChecks, cycle?_eq, h.runs,
      h.checks]
    rfl
  current t ht := by
    rw [opened_sampler, h.checks] at ht
    cases ht
  rows := (List.append_nil _).symm
  reports := h.reports
  queries := by
    rw [opened_sampler, Observed.queries, h.visits]
    rfl

/-- What a move brings. -/
def brings (view : SampleView σ ρ) (s : Sampler (Observed κ) (Nat × τ) σ) (m : Move σ) : List (Entry ρ) :=
  note view.toRowView s (s.move m) m

/-- What has to be shown of a move for the journal to stay right. -/
theorem Right.grow {m : Move σ} (h : Right view before c)
    (lives : ∀ i, Life view.toRowView i ((c.sampler.move m).standing i)
      (c.life i ++ (brings view c.sampler m).filterMap (Entry.of? i)))
    (fresh : ∀ i, (c.sampler.move m).started ≤ i →
      c.sampler.started ≤ i ∧ (brings view c.sampler m).filterMap (Entry.of? i) = [])
    (distinct : ((c.sampler.move m).checks.map (·.id)).Nodup)
    (balanced : (c.sampler.move m).Balanced)
    (current : ∀ t ∈ (c.sampler.move m).checks,
      (∃ u ∈ c.sampler.checks, u.id = t.id ∧ u.run = t.run ∧ u.target = t.target ∧
        (c.sampler.move m).passNo t.run = c.sampler.passNo t.run) ∨
      c.sampler.started ≤ t.id ∧ (brings view c.sampler m).filterMap (Entry.of? t.id) =
        [.started ⟨t.run, (c.sampler.move m).passNo t.run, t.target⟩])
    (rows : view.rows (c.sampler.move m).store =
      view.rows c.sampler.store ++ (brings view c.sampler m).filterMap Entry.row?)
    (reports : (c.sampler.move m).reports =
      c.sampler.reports ++ (brings view c.sampler m).filterMap Entry.report?)
    (queries : (c.sampler.move m).client.queries =
      c.sampler.client.queries ++ (brings view c.sampler m).filterMap Entry.question?) :
    Right view before (c.step view.toRowView m) := by
  have hlife : ∀ i, (c.step view.toRowView m).life i =
      c.life i ++ (brings view c.sampler m).filterMap (Entry.of? i) := fun i => List.filterMap_append
  refine ⟨move_writes h.writes m, fun i => ?_, fun i hi => ?_, distinct, balanced, fun t ht => ?_, ?_, ?_, ?_⟩
  · rw [hlife]
    exact lives i
  · obtain ⟨hle, hnil⟩ := fresh i hi
    rw [hlife, h.fresh i hle, hnil]
    rfl
  · rw [hlife]
    obtain ⟨u, hu, hid, hrun, htarget, hpass⟩ | ⟨hle, hnew⟩ := current t ht
    · obtain ⟨rest, hrest⟩ := h.current u hu
      refine ⟨rest ++ (brings view c.sampler m).filterMap (Entry.of? t.id), ?_⟩
      rw [← hid, hrest, hid, hrun, htarget, ← hpass]
      rfl
    · exact ⟨[], by rw [h.fresh _ hle, hnew]; rfl⟩
  · rw [step, List.filterMap_append, ← List.append_assoc, ← h.rows]
    exact rows
  · rw [step, List.filterMap_append, ← h.reports]
    exact reports
  · rw [step, List.filterMap_append, ← h.queries]
    exact queries

/-! ## Turns of checks -/

theorem filterMap_check (id i : Nat) (events : List (CheckEvent ρ)) :
    (events.map (Entry.check id)).filterMap (Entry.of? i) = if id = i then events else [] := by
  rw [List.filterMap_map]
  by_cases h : id = i
  · subst h
    simp [Function.comp_def, Entry.of?]
  · simp [Function.comp_def, Entry.of?, h, List.filterMap_none]

theorem Right.checkTurn (h : Right view before c) (id : Nat) :
    CheckTurn c.sampler id (c.sampler.resumeCheck id) := by
  refine resumeCheck_turn h.writes.1 fun t p ht hp => ?_
  obtain ⟨e, qs, hst, -⟩ := (h.lives id).of_probing ht hp
  rw [answer?_standing, hst]
  rfl

theorem Right.check (h : Right view before c) (id : Nat) :
    Right view before (c.step view.toRowView (.check id)) := by
  have ht := h.checkTurn id
  have hof : ∀ i, (brings view c.sampler (.check id)).filterMap (Entry.of? i) =
      if id = i then noteTurn id c.sampler (c.sampler.resumeCheck id) else [] := fun i =>
    filterMap_check id i _
  obtain ⟨hrow, hreport, hquestion⟩ := entries_noteTurn (ρ := ρ) ht
  refine h.grow (fun i => ?_) (fun i hi => ?_) (ht.distinct h.distinct) (ht.balanced h.balanced h.distinct)
    (fun t htm => ?_) ?_ ?_ ?_
  · rw [hof]
    by_cases hi : id = i
    · subst hi
      rw [if_pos rfl]
      exact ht.life h.balanced (h.lives id) h.current
    · rw [if_neg hi, List.append_nil]
      exact (ht.standing_other (Ne.symm hi)).symm ▸ h.lives i
  · have hle : c.sampler.started ≤ i := ht.started ▸ hi
    refine ⟨hle, ?_⟩
    rw [hof]
    split
    · next hid =>
      have hl := h.lives id
      rw [h.fresh id (hid ▸ hle)] at hl
      have hnone : c.sampler.check? id = none := congrArg Standing.task hl.eq_unborn
      rw [noteTurn, hnone]
    · rfl
  · obtain ⟨u, hu, hid, hrun, htarget⟩ := ht.mem_checks htm
    exact .inl ⟨u, hu, hid, hrun, htarget, congrArg List.length (ht.passes t.run)⟩
  · exact (congrArg view.rows ht.store).trans (hrow ▸ (List.append_nil _).symm)
  · exact (List.prefix_iff_eq_append.1 ht.reports).symm.trans (congrArg _ hreport.symm)
  · exact (List.prefix_iff_eq_append.1 ht.queries).symm.trans (congrArg _ hquestion.symm)

/-! ## Turns of runs -/

omit [SwarmClient κ τ] in
theorem Right.lt_started (h : Right view before c) {t : CheckTask (Nat × τ)} (ht : t ∈ c.sampler.checks) :
    t.id < c.sampler.started := by
  obtain ⟨rest, hrest⟩ := h.current t ht
  refine Nat.lt_of_not_le fun hle => ?_
  rw [h.fresh _ hle] at hrest
  cases hrest

omit [SwarmClient κ τ] [SampleStore σ] in
/-- A turn of a run brings neither rows nor reports nor queries. -/
theorem entries_noteRun (s s' : Sampler κ τ σ) (run : Nat) :
    let entries : List (Entry ρ) := noteRun run s s'
    entries.filterMap Entry.row? = [] ∧ entries.filterMap Entry.report? = [] ∧
      entries.filterMap Entry.question? = [] := by
  intro entries
  simp only [entries, noteRun, noteListing]
  generalize s'.checks.drop s.checks.length = new
  split
  · split <;> simp [Function.comp_def, List.filterMap_none, Entry.row?, Entry.report?, Entry.question?,
      CheckEvent.row?, CheckEvent.report?, CheckEvent.question?]
  · simp [Function.comp_def, List.filterMap_none, Entry.row?, Entry.report?, Entry.question?,
      CheckEvent.row?, CheckEvent.report?, CheckEvent.question?]

theorem Right.runTurn (h : Right view before c) (run : Nat) :
    Right view before (c.step view.toRowView (.run run)) := by
  have ht := resumeRun_turn c.sampler run
  obtain ⟨first, hr⟩ := ht.ran
  have hof := filterMap_noteRun (ρ := ρ) hr
  obtain ⟨hrow, hreport, hquestion⟩ := entries_noteRun (ρ := ρ) c.sampler (c.sampler.resumeRun run) run
  have hbalanced := ht.balanced h.balanced
  refine h.grow (fun i => hr.life (h.lives i) (h.fresh i)) (fun i hi => ?_) ?_ hbalanced
    (fun t htm => ?_) ?_ ?_ ?_
  · have hle : c.sampler.started + first.length ≤ i := hr.started ▸ hi
    refine ⟨by omega, (hof i).trans ?_⟩
    rw [if_pos (by omega), List.getElem?_eq_none_iff.2 (by omega)]
    rfl
  · rw [move, hr.checks, List.map_append, newTasks_ids, List.nodup_append]
    refine ⟨h.distinct, List.nodup_range', fun i hi j hj => ?_⟩
    obtain ⟨t, htm, rfl⟩ := List.mem_map.1 hi
    have hlt := h.lt_started htm
    have hle := (List.mem_range'_1.1 hj).1
    omega
  · have hpass : t.run = run → (c.sampler.resumeRun run).passNo run = c.sampler.passNo run := by
      rintro rfl
      obtain hp | hp := hr.passes
      · exact congrArg List.length hp
      · -- A cycle that has come to its end has left no check behind.
        have := hbalanced.cycle?_isSome htm
        rw [hp] at this
        cases this
    rw [move, hr.checks] at htm
    rcases List.mem_append.1 htm with htm | htm
    · refine .inl ⟨t, htm, rfl, rfl, rfl, ?_⟩
      by_cases hrun : t.run = run
      · exact hrun ▸ hpass hrun
      · exact congrArg List.length (passes_congr (hr.others t.run hrun))
    · obtain ⟨hle, htarget, hrun⟩ := mem_newTasks htm
      refine .inr ⟨hle, (hof t.id).trans ?_⟩
      rw [if_pos hle, htarget, hrun, move, hpass hrun]
      rfl
  · have hrows : view.rows (c.sampler.resumeRun run).store = view.rows c.sampler.store := by
      obtain hs | ⟨now, source, targets, hs⟩ := hr.store
      · rw [hs]
      · rw [hs, view.rows_register]
    exact hrows.trans (hrow ▸ (List.append_nil _).symm)
  · exact hr.reports.trans (hreport ▸ (List.append_nil _).symm)
  · exact (congrArg Observed.queries hr.client).trans (hquestion ▸ (List.append_nil _).symm)

/-! ## The writer's work -/

omit [SwarmClient κ τ] in
/-- A piece of work brings the row the store gains, or none and at most a call in vain. -/
theorem noteWork_cases (view : SampleView σ ρ) (s : Sampler κ τ σ) :
    (∃ r rest x, s.writer.line = r :: rest ∧
      SampleStore.append r.sample r.metrics s.store = (.ok x, s.work.store) ∧
      view.rows s.work.store = view.rows s.store ++ [view.row r.sample r.metrics x] ∧
      noteWork view.toRowView s s.work = [.check r.ticket (.stored (view.row r.sample r.metrics x))]) ∨
    view.rows s.work.store = view.rows s.store ∧
      (noteWork view.toRowView s s.work = [] ∨ noteWork view.toRowView s s.work = [.vain]) := by
  have hworked : s.writer.Worked s.store s.work.writer s.work.store := Writer.work_worked s.now s.writer s.store
  have hsame := fun h : view.rows s.work.store = view.rows s.store => And.intro h (noteWork_of_same h)
  cases hworked with
  | nothing same kept => exact .inr (hsame (by rw [kept]))
  | @stored r rest x first left answered taken =>
    have hrows := view.rows_of_ok taken
    exact .inl ⟨r, rest, x, first, taken, hrows, noteWork_of_gained first hrows⟩
  | refused first left answered vain =>
    obtain h | ⟨e, h⟩ := vain
    · exact .inr (hsame (by rw [h]))
    · exact .inr (hsame (view.rows_of_error h))
  | again first left answered vain => exact .inr (hsame (view.rows_of_error vain))

/-- What a move brings for a check: its start, what its own turn brings, or its row. -/
theorem brings_cases (view : SampleView σ ρ) (s : Sampler (Observed κ) (Nat × τ) σ) (m : Move σ) (id : Nat) :
    let events := (brings view s m).filterMap (Entry.of? id)
    events = [] ∨
      (∃ run target, m = .run run ∧ s.started ≤ id ∧ events = [.started ⟨run, s.passNo run, target⟩]) ∨
      (m = .check id ∧ events = noteTurn id s (s.resumeCheck id)) ∨
      ∃ r rest row, m = .work ∧ s.writer.line = r :: rest ∧ r.ticket = id ∧ events = [.stored row] := by
  intro events
  cases m with
  | run run =>
    obtain ⟨first, hran⟩ := (resumeRun_turn s run).ran
    have heq : events = _ := filterMap_noteRun hran id
    rw [heq]
    split
    · next hle =>
      cases first[id - s.started]? with
      | none => exact .inl rfl
      | some target => exact .inr (.inl ⟨run, target, rfl, hle, rfl⟩)
    · exact .inl rfl
  | check i =>
    have heq : events = _ := filterMap_check i id (noteTurn i s (s.resumeCheck i))
    rw [heq]
    split
    · next hi =>
      subst hi
      exact .inr (.inr (.inl ⟨rfl, rfl⟩))
    · exact .inl rfl
  | work =>
    have heq : events = (noteWork view.toRowView s s.work).filterMap (Entry.of? id) := rfl
    obtain ⟨r, rest, x, hline, -, -, hn⟩ | ⟨-, hn | hn⟩ := noteWork_cases view s
    · rw [heq, hn]
      by_cases hr : r.ticket = id
      · exact .inr (.inr (.inr
          ⟨r, rest, view.row r.sample r.metrics x, rfl, hline, hr, by simp [Entry.of?, hr]⟩))
      · exact .inl (by simp [Entry.of?, hr])
    · rw [heq, hn]
      exact .inl rfl
    · rw [heq, hn]
      exact .inl rfl
  | clock | cancel | cancelRun | addRun | relist | register => exact .inl rfl
  | append sample metrics =>
    refine .inl ?_
    show ((gained _ _ _).map Entry.foreign).filterMap _ = []
    simp [Function.comp_def, Entry.of?]

theorem Right.work (h : Right view before c) : Right view before (c.step view.toRowView .work) := by
  have hnone : ∀ i, c.sampler.started ≤ i →
      (noteWork view.toRowView c.sampler c.sampler.work).filterMap (Entry.of? i) = [] := fun i hi => by
    obtain ⟨r, rest, x, hline, -, -, hn⟩ | ⟨-, hn | hn⟩ := noteWork_cases view c.sampler
    · -- The request in line is that of a check that was started.
      have hne : r.ticket ≠ i := by
        rintro rfl
        have hl := h.lives r.ticket
        rw [h.fresh _ hi] at hl
        cases (congrArg Standing.requests hl.eq_unborn).symm.trans (requests_of_line hline)
      rw [hn]
      simp [Entry.of?, hne]
    · rw [hn]; rfl
    · rw [hn]; rfl
  refine h.grow (fun i => work_life (h.lives i)) (fun i hi => ⟨hi, hnone i hi⟩) h.distinct
    (h.balanced.congr (fun _ => rfl) rfl) (fun t ht => .inl ⟨t, ht, rfl, rfl, rfl, rfl⟩) ?_ ?_ ?_
  all_goals
    show _ = _ ++ (noteWork view.toRowView c.sampler c.sampler.work).filterMap _
    obtain ⟨r, rest, x, -, -, hrows, hn⟩ | ⟨hrows, hn | hn⟩ := noteWork_cases view c.sampler
    all_goals rw [hn]
  · exact hrows
  · exact hrows.trans (List.append_nil _).symm
  · exact hrows.trans (List.append_nil _).symm
  all_goals exact (List.append_nil _).symm

/-! ## Other moves -/

/-- A move that leaves the tasks, the writer, the reports and the client as they are. -/
theorem Right.still (h : Right view before c) {m : Move σ} (rows : List ρ)
    (checks : (c.sampler.move m).checks = c.sampler.checks)
    (started : (c.sampler.move m).started = c.sampler.started)
    (writer : (c.sampler.move m).writer = c.sampler.writer)
    (reports : (c.sampler.move m).reports = c.sampler.reports)
    (client : (c.sampler.move m).client = c.sampler.client)
    (cycles : ∀ run, (c.sampler.move m).cycle? run = c.sampler.cycle? run)
    (passes : ∀ run, (c.sampler.move m).passes run = c.sampler.passes run)
    (brought : brings view c.sampler m = rows.map .foreign)
    (gained : view.rows (c.sampler.move m).store = view.rows c.sampler.store ++ rows) :
    Right view before (c.step view.toRowView m) := by
  have hof : ∀ i, (brings view c.sampler m).filterMap (Entry.of? i) = [] := fun i => by
    simp [brought, Function.comp_def, Entry.of?, List.filterMap_none]
  refine h.grow (fun i => ?_) (fun i hi => ⟨started ▸ hi, hof i⟩) (checks ▸ h.distinct)
    (h.balanced.congr cycles (by rw [checks])) (fun t ht => ?_) ?_ ?_ ?_
  · rw [hof, List.append_nil, standing_congr checks writer]
    exact h.lives i
  · exact .inl ⟨t, checks ▸ ht, rfl, rfl, rfl, congrArg List.length (passes t.run)⟩
  · rw [gained, brought]
    simp [Function.comp_def, Entry.row?]
  · rw [reports, brought]
    simp [Function.comp_def, Entry.report?, List.filterMap_none]
  · rw [client, brought]
    simp [Function.comp_def, Entry.question?, List.filterMap_none]

/-- **Every move keeps the journal right.** -/
theorem Right.step (h : Right view before c) (m : Move σ) : Right view before (c.step view.toRowView m) := by
  cases m with
  | run id => exact h.runTurn id
  | check id => exact h.check id
  | work => exact h.work
  | clock instant =>
    exact h.still [] rfl rfl rfl rfl rfl (fun _ => rfl) (fun _ => rfl) rfl (List.append_nil _).symm
  | cancel =>
    exact h.still [] rfl rfl rfl rfl rfl (fun _ => rfl) (fun _ => rfl) rfl (List.append_nil _).symm
  | cancelRun run =>
    exact h.still [] rfl rfl rfl rfl rfl (cycle?_cancelRun _ run) (passes_cancelRun _ run) rfl
      (List.append_nil _).symm
  | addRun repeats =>
    exact h.still [] rfl rfl rfl rfl rfl (fun r => (addRun_eq _ repeats r).1)
      (fun r => (addRun_eq _ repeats r).2) rfl (List.append_nil _).symm
  | relist source =>
    exact h.still [] rfl rfl rfl rfl rfl (fun _ => rfl) (fun _ => rfl) rfl (List.append_nil _).symm
  | register now source targets =>
    exact h.still [] rfl rfl rfl rfl rfl (fun _ => rfl) (fun _ => rfl) rfl
      ((view.rows_register ..).trans (List.append_nil _).symm)
  | append sample metrics =>
    refine h.still (gained view.toRowView c.sampler (c.sampler.move (.append sample metrics)))
      rfl rfl rfl rfl rfl (fun _ => rfl) (fun _ => rfl) rfl ?_
    have hp :
        view.rows c.sampler.store <+: view.rows (SampleStore.append sample metrics c.sampler.store).2 := by
      cases ha : SampleStore.append sample metrics c.sampler.store with
      | mk result store =>
        cases result with
        | ok stored => exact view.rows_of_ok ha ▸ List.prefix_append ..
        | error e => exact view.rows_of_error ha ▸ List.prefix_rfl
    exact (List.prefix_iff_eq_append.1 hp).symm

/-- Runs are cancelled by cancellations alone, and for good. -/
theorem Right.runHalted (h : Right view before c) (m : Move σ) (run : Nat) :
    (c.sampler.move m).runHalted run = true ↔
      c.sampler.runHalted run = true ∨ m = .cancel ∨ m = .cancelRun run ∧ run < c.sampler.runs.length := by
  cases m with
  | run id =>
    obtain ⟨first, hr⟩ := (resumeRun_turn c.sampler id).ran
    simp [move, hr.halted]
  | check id => simp [move, (h.checkTurn id).runHalted]
  | cancel => simp [move, cancel, Sampler.runHalted]
  | cancelRun r =>
    rw [move, runHalted_cancelRun]
    simp only [reduceCtorEq, Move.cancelRun.injEq, false_or, eq_comm (a := r)]
  | addRun repeats => simp [move, runHalted_addRun]
  | work | clock | relist | register | append => simp [move, Sampler.runHalted, Sampler.work]

theorem Right.run (ms : List (Move σ)) (h : Right view before c) :
    Right view before (c.run view.toRowView ms) :=
  run_keeps (P := Right view before) (fun m h => h.step m) ms h

end Chronicle

end SwarmSampler
