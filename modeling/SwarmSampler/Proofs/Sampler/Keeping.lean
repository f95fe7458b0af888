import Mathlib.Data.List.Basic
import SwarmSampler.Proofs.Sampler.Lives

/-
One turn at a time, the journal keeps up with the sampler: what a turn of a check,
a turn of a run or a piece of the writer's work adds to it takes each check on in
its life, to where the check then stands.
-/

namespace SwarmSampler

open Sampler

variable {κ τ σ ρ : Type}

theorem questions_append (asked later : List (Nat × String)) :
    (questions (asked ++ later) : List (CheckEvent ρ)) = questions asked ++ questions later :=
  List.map_append

theorem asks_of_same {s s' : Sampler (Observed κ) (Nat × τ) σ} (h : s'.client = s.client) :
    asks s s' = [] := by
  rw [asks, h, List.drop_length]

/-! ## Turns of checks -/

section

variable [SwarmClient κ τ] [SampleStore σ] {view : RowView σ ρ}
  {s s' : Sampler (Observed κ) (Nat × τ) σ} {id : Nat} {c : CheckTask (Nat × τ)}

theorem noteTurn_eq (h : s.check? id = some c) (s' : Sampler (Observed κ) (Nat × τ) σ) :
    (noteTurn id s s' : List (CheckEvent ρ)) = noteCheck c s s' := by
  rw [noteTurn, h]

/-- What a turn brings that does not end its check. -/
theorem noteTurn_of_same (h : s.check? id = some c) (s' : Sampler (Observed κ) (Nat × τ) σ)
    (hr : s'.reports = s.reports) (ha : s'.arrived c.run = s.arrived c.run) :
    (noteTurn id s s' : List (CheckEvent ρ)) =
      questions (asks s s') ++ (s.finding? c).toList.map .settled := by
  rw [noteTurn_eq h, noteCheck, hr, ha, List.drop_length, List.drop_length, List.map_nil, List.map_nil,
    List.append_nil, List.append_nil]

/-- A check that is on its way was started in the present cycle of its run. -/
def Current (s : Sampler (Observed κ) (Nat × τ) σ) (life : Nat → List (CheckEvent ρ)) : Prop :=
  ∀ t ∈ s.checks, ∃ rest, life t.id = .started ⟨t.run, s.passNo t.run, t.target⟩ :: rest

/-- What a turn brings that ends its check. -/
theorem noteTurn_ended (task : s.check? id = some c) (client : Observed κ) (new : List CheckReport)
    (result : CheckResult) {life : Nat → List (CheckEvent ρ)} (hb : s.Balanced) (current : Current s life)
    {e : Errand} {rest : List (CheckEvent ρ)} (hev : life id = .started e :: rest) :
    (noteTurn id s (s.ended client c new result) : List (CheckEvent ρ)) =
      questions (asks s { s with client := client }) ++ (s.finding? c).toList.map .settled ++
        new.map .published ++ [.ended e.run e.pass result] := by
  -- The result goes to the present cycle, in which the check was started.
  obtain ⟨hm, hid⟩ := mem_of_check? task
  obtain ⟨rest', hrest⟩ := current c hm
  rw [hid, hev, List.cons.injEq] at hrest
  obtain ⟨he, -⟩ := hrest
  cases he
  have ha : (s.ended client c new result).arrived c.run = s.arrived c.run ++ [result] :=
    arrived_endCheck_self (s := { s with client := client, reports := s.reports ++ new })
      (hb.cycle?_isSome hm) result
  have hr : (s.ended client c new result).reports = s.reports ++ new := rfl
  rw [noteTurn_eq task, noteCheck, ha, hr, List.drop_left, List.drop_left]
  rfl

/-- A turn of a check takes it on in its life. -/
theorem Sampler.CheckTurn.life {life : Nat → List (CheckEvent ρ)} (h : CheckTurn s id s') (hb : s.Balanced)
    (hl : Life view id (s.standing id) (life id)) (current : Current s life) :
    Life view id (s'.standing id) (life id ++ noteTurn id s s') := by
  cases h with
  | absent gone =>
    rw [noteTurn, gone, List.append_nil]
    exact hl
  | @stands c metrics task stage answer =>
    have hf : s.finding? c = none := by rw [finding?, stage]
    rw [noteTurn_of_same task s rfl rfl, asks_of_same rfl, hf]
    simpa [questions] using hl
  | @waits c p p' client' task stage turn =>
    obtain ⟨e, qs, hst, hev⟩ := hl.of_probing task stage
    have hf : s.finding? c = none := by simp only [finding?, stage, turn]
    have hc : c = e.task id (.probing p) := Option.some.inj (task.symm.trans (congrArg Standing.task hst))
    have hs' : ({ s with client := client' }.withStage id (.probing p')).standing id =
        ⟨some (e.task id (.probing p')), [], []⟩ := by
      rw [standing_withStage_self (s := { s with client := client' }) task,
        show Sampler.standing { s with client := client' } id = s.standing id from rfl, hst, hc]
      rfl
    have hn := noteTurn_of_same (ρ := ρ) task (withStage { s with client := client' } id (.probing p')) rfl rfl
    rw [hn, hf, hs', hev, Option.toList_none, List.map_nil, List.append_nil, List.cons_append,
      ← questions_append]
    exact .probing p'
  | @settles c p o client' task stage turn =>
    obtain ⟨e, qs, hst, hev⟩ := hl.of_probing task stage
    have hc : c = e.task id (.probing p) := Option.some.inj (task.symm.trans (congrArg Standing.task hst))
    subst hc
    let f : Finding := ⟨o, s.sampleOf e.target o, trendWith s.plan.historyDepth (s.sampleOf e.target o) s.store⟩
    have hf : s.finding? (e.task id (.probing p)) = some f := by
      simp only [finding?, stage, turn]
      rfl
    rw [standing, Standing.mk.injEq] at hst
    have hs' : (s.queued client' (e.task id (.probing p)) o).standing id =
        ⟨some (e.task id (.storing f.metrics)), [f.request id], []⟩ := by
      rw [standing_queued, hst.1, hst.2.1, hst.2.2, Option.map_some, if_pos rfl]
      exact congrArg (Standing.mk _ · _) (if_pos rfl)
    have hn := noteTurn_of_same (ρ := ρ) task (s.queued client' (e.task id (.probing p)) o) rfl rfl
    rw [hn, hs', hev, hf, ← List.append_assoc, List.cons_append, ← questions_append]
    exact .waiting ⟨_, _, rfl⟩
  | @ends c client' new result task ending =>
    have hst' := standing_ended task client' new result
    obtain rfl := (mem_of_check? task).2
    cases ending with
    | crashes stage turn =>
      obtain ⟨e, qs, hst, hev⟩ := hl.of_probing task stage
      have hf : s.finding? c = none := by simp only [finding?, stage, turn]
      have hn := noteTurn_ended task client' [] .crashed hb current hev
      rw [hst', hn, hf, hst, hev, Option.toList_none, List.map_nil, List.map_nil, List.append_nil,
        List.append_nil, ← List.append_assoc, List.cons_append, ← questions_append]
      exact .crashed
    | @reports metrics stored stage answer =>
      rw [answer?_standing] at answer
      obtain ⟨e, qs, f, own, taken, rfl, hst, hev⟩ := hl.of_stored task stage answer
      have hf : s.finding? c = none := by rw [finding?, stage]
      have htarget : c.target = e.target :=
        congrArg CheckTask.target (Option.some.inj (task.symm.trans (congrArg Standing.task hst)))
      have hn := noteTurn_ended task s.client [.ofSample c.target f.metrics stored]
        (.reported (.ofSample c.target f.metrics stored)) hb current hev
      rw [hst', hn, hf, hst, hev, asks_of_same rfl, htarget]
      have hl' := @Life.reported (Nat × τ) σ ρ _ view c.id e qs f stored own taken
      simpa [questions, Finding.report] using hl'
    | @fails metrics why stage answer =>
      rw [answer?_standing] at answer
      obtain ⟨e, qs, f, own, rfl, hst, hev⟩ := hl.of_refused task stage answer
      have hf : s.finding? c = none := by rw [finding?, stage]
      have hn := noteTurn_ended task s.client [] (.failed why) hb current hev
      rw [hst', hn, hf, hst, hev, asks_of_same rfl]
      have hl' := @Life.failed (Nat × τ) σ ρ _ view c.id e qs f why own
      simpa [questions] using hl'

/-- What the turn of a check adds to rows, reports and queries. -/
theorem entries_noteTurn (h : CheckTurn s id s') :
    let entries : List (Entry ρ) := (noteTurn id s s').map (.check id)
    entries.filterMap Entry.row? = [] ∧
      entries.filterMap Entry.report? = s'.reports.drop s.reports.length ∧
      entries.filterMap Entry.question? = asks s s' := by
  intro entries
  cases hc : s.check? id with
  | none =>
    have he : entries = [] := by simp only [entries, noteTurn, hc, List.map_nil]
    have hs : s' = s := by
      cases h with
      | absent | stands => rfl
      | waits task | settles task | ends task => cases hc.symm.trans task
    rw [he, hs, List.drop_length, asks_of_same rfl]
    exact ⟨rfl, rfl, rfl⟩
  | some t =>
    have he : entries = (noteCheck t s s').map (.check id) := by simp only [entries, noteTurn, hc]
    rw [he]
    simp only [noteCheck]
    generalize s'.reports.drop s.reports.length = reports
    generalize (s'.arrived t.run).drop (s.arrived t.run).length = results
    refine ⟨?_, ?_, ?_⟩ <;>
      simp [questions, Function.comp_def, List.filterMap_none, Entry.row?, Entry.report?, Entry.question?,
      CheckEvent.row?, CheckEvent.report?, CheckEvent.question?]

/-- A turn of a check only adds to what was asked. -/
theorem Sampler.CheckTurn.queries (h : CheckTurn s id s') :
    s.client.queries <+: s'.client.queries := by
  have hturn : ∀ {b : Bool} {p : Probe (Nat × τ)} {x : Probe.Progress (Nat × τ)} {client' : Observed κ},
      p.resume s.now b s.client = (x, client') → s.client.queries <+: client'.queries := by
    intro b p x client' hx
    have hq := Probe.queries_resume s.now b p s.client
    rwa [hx] at hq
  cases h with
  | absent | stands => exact List.prefix_rfl
  | waits task stage turn => exact hturn turn
  | settles task stage turn => exact hturn turn
  | ends task ending =>
    cases ending with
    | crashes stage turn => exact hturn turn
    | reports | fails => exact List.prefix_rfl

end

/-! ## Pieces of the writer's work -/

section

variable [SampleStore σ] {view : RowView σ ρ} {s s' : Sampler κ τ σ} {i : Nat}

theorem noteWork_of_gained {r : AppendRequest} {rest : List AppendRequest} {row : ρ}
    (hline : s.writer.line = r :: rest) (h : view.rows s'.store = view.rows s.store ++ [row]) :
    noteWork view s s' = [.check r.ticket (.stored row)] := by
  have hg : gained view s s' = [row] := by rw [gained, h, List.drop_left]
  rw [noteWork, hline, hg]
  rfl

/-- A piece of work that brings no row brings nothing but a call in vain. -/
theorem noteWork_of_same (h : view.rows s'.store = view.rows s.store) :
    noteWork view s s' = [] ∨ noteWork view s s' = [.vain] := by
  have hg : gained view s s' = [] := by rw [gained, h, List.drop_length]
  rw [noteWork, hg]
  split
  · exact .inl rfl
  · dsimp only
    split
    · exact .inl rfl
    · exact .inr rfl

theorem filterMap_noteWork_of_same (h : view.rows s'.store = view.rows s.store) :
    (noteWork view s s').filterMap (Entry.of? i) = [] := by
  obtain h | h := noteWork_of_same h <;> rw [h] <;> rfl

theorem work_life {life : List (CheckEvent ρ)} (hl : Life view i (s.standing i) life) :
    Life view i (s.work.standing i) (life ++ (noteWork view s s.work).filterMap (Entry.of? i)) := by
  have hworked : s.writer.Worked s.store s.work.writer s.work.store := Writer.work_worked s.now s.writer s.store
  have hchecks : s.work.checks = s.checks := rfl
  cases hworked with
  | nothing same kept =>
    have hs : s.work.standing i = s.standing i := standing_congr hchecks same i
    rw [filterMap_noteWork_of_same (by rw [kept]), List.append_nil, hs]
    exact hl
  | @stored r rest x first left answered taken =>
    rw [noteWork_of_gained first (view.rows_of_ok taken), standing_of_answer hchecks first left answered]
    split
    · next h =>
      subst h
      obtain ⟨e, qs, f, own, hf, -, hst, hev⟩ := hl.of_request (requests_of_line first)
      have hrow : view.row r.sample r.metrics x = f.row view x := by rw [hf]; rfl
      have htaken : f.StoredAs σ x := ⟨s.store, s.work.store, by rw [hf] at taken; exact taken⟩
      have hstored := @Life.stored τ σ ρ _ view r.ticket e qs f x own htaken
      simpa [hst, hev, Entry.of?, hrow] using hstored
    · next h => simpa [Entry.of?, h] using hl
  | @refused r rest failure first left answered vain =>
    have hrows : view.rows s.work.store = view.rows s.store := by
      obtain h | ⟨e, h⟩ := vain
      · rw [h]
      · exact view.rows_of_error h
    rw [filterMap_noteWork_of_same hrows, List.append_nil, standing_of_answer hchecks first left answered]
    split
    · next h =>
      subst h
      obtain ⟨e, qs, f, own, -, -, hst, hev⟩ := hl.of_request (requests_of_line first)
      rw [hst, hev]
      exact .refused own
    · exact hl
  | @again r rest e first left answered vain =>
    have hs : s.work.standing i = s.standing i := by
      rw [standing, standing, left, first, answered]
      rfl
    rw [filterMap_noteWork_of_same (view.rows_of_error vain), List.append_nil, hs]
    exact hl

end

/-! ## Turns of runs -/

/-- The entries of checks that a run starts one after another. -/
def starts (s : Sampler κ τ σ) (run : Nat) (first : List MonitoringTarget) : List (Entry ρ) :=
  (newTasks (τ := τ) run s.started s.plan.policy first).map fun c =>
    .check c.id (.started ⟨run, s.passNo run, c.target⟩)

theorem filterMap_starts (s : Sampler κ τ σ) (run : Nat) (targets : List MonitoringTarget) (i : Nat) :
    (starts s run targets : List (Entry ρ)).filterMap (Entry.of? i) =
      if s.started ≤ i then
        ((targets[i - s.started]?).map fun t => .started ⟨run, s.passNo run, t⟩).toList
      else [] := by
  rw [starts]
  generalize s.started = first
  induction targets generalizing first with
  | nil => simp [newTasks]
  | cons t ts ih =>
    rw [newTasks, List.map_cons, List.filterMap_cons, ih]
    by_cases h : first = i
    · subst h
      rw [if_neg (Nat.not_succ_le_self first)]
      simp [Entry.of?]
    · simp only [Entry.of?, if_neg h]
      by_cases hle : first ≤ i
      · rw [if_pos hle, if_pos (by omega), getElem?_cons_sub (by omega)]
      · rw [if_neg hle, if_neg (by omega)]

theorem noteListing_of_same {s s' : Sampler κ τ σ} (h : s'.drawn = s.drawn) (run : Nat) :
    (noteListing run s s' : List (Entry ρ)) = [] := by
  rw [noteListing, h]
  split
  · exact if_pos rfl
  · rfl

/-- A turn that starts no check. -/
theorem noteRun_of_checks {s s' : Sampler κ τ σ} (h : s'.checks = s.checks) (run : Nat) :
    (noteRun run s s' : List (Entry ρ)) = noteListing run s s' := by
  rw [noteRun, h, List.drop_length, List.map_nil, List.append_nil]

theorem filterMap_noteListing (s s' : Sampler κ τ σ) (run i : Nat) :
    (noteListing run s s' : List (Entry ρ)).filterMap (Entry.of? i) = [] := by
  unfold noteListing
  split
  · split <;> rfl
  · rfl

section

variable [SampleStore σ] {view : RowView σ ρ} {s s' : Sampler κ τ σ} {run : Nat}
  {first : List MonitoringTarget} {i : Nat}

theorem noteRun_eq (h : Ran run first s s') :
    (noteRun run s s' : List (Entry ρ)) = noteListing run s s' ++ starts s run first := by
  rw [noteRun, h.checks, List.drop_left, starts]
  exact congrArg _ (List.map_congr_left fun c hc => by rw [(mem_newTasks hc).2.2])

theorem filterMap_noteRun (h : Ran run first s s') (i : Nat) :
    (noteRun run s s' : List (Entry ρ)).filterMap (Entry.of? i) =
      if s.started ≤ i then ((first[i - s.started]?).map fun t => .started ⟨run, s.passNo run, t⟩).toList
      else [] := by
  rw [noteRun_eq h, List.filterMap_append, filterMap_noteListing, List.nil_append, filterMap_starts]

/-- A turn of a run gives birth to checks. -/
theorem Sampler.Ran.life {life : List (CheckEvent ρ)} (h : Ran run first s s')
    (hl : Life view i (s.standing i) life) (fresh : s.started ≤ i → life = []) :
    Life view i (s'.standing i) (life ++ (noteRun run s s').filterMap (Entry.of? i)) := by
  rw [filterMap_noteRun h, h.standing]
  by_cases hle : s.started ≤ i
  · obtain rfl := fresh hle
    have hst := hl.eq_unborn
    have hnone : s.check? i = none := congrArg Standing.task hst
    rw [hnone, if_pos hle, if_pos hle, hst]
    cases first[i - s.started]? with
    | none => exact .unborn
    | some t => exact @Life.probing τ σ ρ _ view i ⟨run, s.passNo run, t⟩ [] _
  · rw [if_neg hle, if_neg hle, Option.or_none, List.append_nil]
    exact hl

end

end SwarmSampler
