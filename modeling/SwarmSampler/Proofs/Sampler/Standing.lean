import SwarmSampler.Proofs.Sampler.Journal

/-
Where a single check stands in a sampler: its task unless it is over, what
waits for it in the writer's line, and what the writer has answered. A turn of
a check changes where that check stands and no other; a turn of a run gives new
checks their tasks; a piece of work moves one request from the line to the
answers.
-/

namespace SwarmSampler

/-- Where a check stands. -/
structure Standing (τ : Type) where
  task : Option (CheckTask τ)
  requests : List AppendRequest
  answers : List AppendAnswer

theorem Writer.answer?_eq (w : Writer) (ticket : Nat) :
    w.answer? ticket = ((w.answers.filter (·.1 = ticket)).map (·.2)).head? := by
  unfold answer?
  induction w.answers with
  | nil => rfl
  | cons a as ih =>
    obtain ⟨t, x⟩ := a
    rw [List.lookup_cons]
    by_cases h : t = ticket
    · subst h
      simp
    · have hb : (ticket == t) = false := beq_eq_false_iff_ne.2 (Ne.symm h)
      simpa [hb, h] using ih

namespace Sampler

variable {κ τ σ : Type} {s s' : Sampler κ τ σ}

/-- Where a check stands in a sampler. -/
def standing (s : Sampler κ τ σ) (id : Nat) : Standing τ :=
  ⟨s.check? id, s.writer.line.filter (·.ticket = id), (s.writer.answers.filter (·.1 = id)).map (·.2)⟩

theorem answer?_standing (s : Sampler κ τ σ) (id : Nat) :
    s.writer.answer? id = (s.standing id).answers.head? := s.writer.answer?_eq id

/-- The first request in line is its check's first. -/
theorem requests_of_line {r : AppendRequest} {rest : List AppendRequest} (first : s.writer.line = r :: rest) :
    (s.standing r.ticket).requests = r :: rest.filter (·.ticket = r.ticket) := by
  simp [standing, first]

theorem standing_congr (hc : s'.checks = s.checks) (hw : s'.writer = s.writer) (id : Nat) :
    s'.standing id = s.standing id := by
  rw [standing, standing, check?, check?, hc, hw]

/-! ## Turns of checks -/

theorem check?_withStage (id i : Nat) (stage : CheckStage τ) :
    (s.withStage id stage).check? i =
      (s.check? i).map fun c => if c.id = id then { c with stage := stage } else c := by
  have hid : ((·.id == i) ∘ fun c : CheckTask τ => if c.id = id then { c with stage := stage } else c) =
      (·.id == i) := by
    funext c
    simp only [Function.comp_apply]
    split <;> rfl
  rw [check?, withStage, List.find?_map, hid]
  rfl

theorem standing_withStage_self {id : Nat} {stage : CheckStage τ} {c : CheckTask τ}
    (h : s.check? id = some c) :
    (s.withStage id stage).standing id = { s.standing id with task := some { c with stage := stage } } := by
  rw [standing, check?_withStage, h, Option.map_some, if_pos (mem_of_check? h).2]
  rfl

theorem standing_withStage_other {id i : Nat} (stage : CheckStage τ) (h : i ≠ id) :
    (s.withStage id stage).standing i = s.standing i := by
  rw [standing, check?_withStage]
  cases hc : s.check? i with
  | none =>
    rw [standing, hc]
    rfl
  | some c =>
    have hne : c.id ≠ id := by rw [(mem_of_check? hc).2]; exact h
    rw [standing, hc, Option.map_some, if_neg hne]
    rfl

theorem check?_endCheck (c : CheckTask τ) (result : CheckResult) (i : Nat) :
    (s.endCheck c result).check? i = if i = c.id then none else s.check? i := by
  show (s.checks.filter (·.id ≠ c.id)).find? (·.id == i) = _
  rw [List.find?_filter]
  split
  · next h =>
    subst h
    rw [List.find?_eq_none]
    intro x _
    simp
  · next h =>
    refine congrArg (s.checks.find? ·) (funext fun x => ?_)
    by_cases hx : x.id = i
    · simp [hx, h]
    · simp [hx]

theorem standing_endCheck_self (c : CheckTask τ) (result : CheckResult) :
    (s.endCheck c result).standing c.id = { s.standing c.id with task := none } := by
  rw [standing, check?_endCheck, if_pos rfl]
  rfl

theorem standing_endCheck_other (c : CheckTask τ) (result : CheckResult) {i : Nat} (h : i ≠ c.id) :
    (s.endCheck c result).standing i = s.standing i := by
  rw [standing, check?_endCheck, if_neg h]
  rfl

theorem standing_ended {id : Nat} {c : CheckTask τ} (task : s.check? id = some c) (client : κ)
    (new : List CheckReport) (result : CheckResult) :
    (s.ended client c new result).standing id = { s.standing id with task := none } := by
  have h := standing_endCheck_self (s := { s with client := client, reports := s.reports ++ new }) c result
  rwa [(mem_of_check? task).2] at h

/-- A check's sample goes to the end of the writer's line. -/
theorem standing_queued [SampleStore σ] (s : Sampler κ τ σ) (client : κ) (c : CheckTask τ)
    (o : CheckOutcome) (i : Nat) :
    (s.queued client c o).standing i =
      ⟨(s.check? i).map fun x => if x.id = c.id then
          { x with stage := .storing (trendWith s.plan.historyDepth (s.sampleOf c.target o) s.store) } else x,
        s.writer.line.filter (·.ticket = i) ++ if c.id = i then [s.requestOf c o] else [],
        (s.writer.answers.filter (·.1 = i)).map (·.2)⟩ := by
  have hline : (s.queued client c o).writer.line = s.writer.line ++ [s.requestOf c o] :=
    (List.append_assoc ..).symm
  have ht : (s.requestOf c o).ticket = c.id := rfl
  have hone : [s.requestOf c o].filter (·.ticket = i) = if c.id = i then [s.requestOf c o] else [] := by
    simp only [List.filter_cons, List.filter_nil, ht, decide_eq_true_eq]
  rw [standing, hline, List.filter_append, hone, queued, check?_withStage]
  rfl

/-- A turn of a check leaves where the other checks stand. -/
theorem CheckTurn.standing_other [SwarmClient κ τ] [SampleStore σ] {id i : Nat} (h : CheckTurn s id s')
    (hi : i ≠ id) : s'.standing i = s.standing i := by
  cases h with
  | absent | stands => rfl
  | waits => exact standing_withStage_other _ hi
  | @settles c p o client' task stage turn =>
    have hid := (mem_of_check? task).2
    rw [standing_queued, if_neg (by rw [hid]; exact Ne.symm hi), List.append_nil, standing]
    cases hc : s.check? i with
    | none => rfl
    | some x =>
      rw [Option.map_some, if_neg (by rw [(mem_of_check? hc).2, hid]; exact hi)]
  | ends task ending => exact standing_endCheck_other _ _ ((mem_of_check? task).2 ▸ hi)

/-! ## The writer's work -/

/-- The writer's work moves a request from its line to its answers. -/
theorem standing_of_writer {answered : List (Nat × AppendAnswer)} (hc : s'.checks = s.checks)
    (ha : s'.writer.answers = s.writer.answers ++ answered) (i : Nat) :
    s'.standing i = ⟨(s.standing i).task, s'.writer.line.filter (·.ticket = i),
      (s.standing i).answers ++ (answered.filter (·.1 = i)).map (·.2)⟩ := by
  rw [standing, standing, ha, List.filter_append, List.map_append, check?, hc]
  rfl

theorem standing_of_answer {r : AppendRequest} {rest : List AppendRequest} {a : AppendAnswer} {i : Nat}
    (hc : s'.checks = s.checks) (first : s.writer.line = r :: rest) (left : s'.writer.line = rest)
    (ha : s'.writer.answers = s.writer.answers ++ [(r.ticket, a)]) :
    s'.standing i =
      if r.ticket = i then
        ⟨(s.standing i).task, (s.standing i).requests.tail, (s.standing i).answers ++ [a]⟩
      else s.standing i := by
  rw [standing_of_writer hc ha, left]
  split
  · next h => simp [standing, first, h]
  · next h => simp [standing, first, h]

/-! ## Turns of runs -/

theorem getElem?_cons_sub {α : Type} {a : α} {as : List α} {first i : Nat} (h : first < i) :
    (a :: as)[i - first]? = as[i - (first + 1)]? := by
  rw [show i - first = i - (first + 1) + 1 by omega, List.getElem?_cons_succ]

theorem newTasks_find? (run first : Nat) (policy : RetryPolicy) (targets : List MonitoringTarget) (i : Nat) :
    (newTasks (τ := τ) run first policy targets).find? (·.id == i) =
      if first ≤ i then
        (targets[i - first]?).map fun t => ⟨i, run, t, .probing (.start t.magnet policy)⟩
      else none := by
  induction targets generalizing first with
  | nil => simp [newTasks]
  | cons t ts ih =>
    rw [newTasks, List.find?_cons]
    by_cases h : first = i
    · subst h
      simp
    · rw [beq_eq_false_iff_ne.2 h, ih]
      by_cases hle : first ≤ i
      · rw [if_pos hle, if_pos (by omega), getElem?_cons_sub (by omega)]
      · rw [if_neg hle, if_neg (by omega)]

theorem newTasks_ids (run first : Nat) (policy : RetryPolicy) (targets : List MonitoringTarget) :
    (newTasks (τ := τ) run first policy targets).map (·.id) = List.range' first targets.length := by
  induction targets generalizing first with
  | nil => rfl
  | cons t ts ih => rw [newTasks, List.map_cons, ih, List.length_cons, List.range'_succ]

theorem mem_newTasks {run first : Nat} {policy : RetryPolicy} {targets : List MonitoringTarget}
    {t : CheckTask τ} (h : t ∈ newTasks run first policy targets) :
    first ≤ t.id ∧ targets[t.id - first]? = some t.target ∧ t.run = run := by
  induction targets generalizing first with
  | nil => cases h
  | cons x xs ih =>
    rcases List.mem_cons.1 h with rfl | h
    · simp
    · obtain ⟨hle, hx, hrun⟩ := ih h
      exact ⟨by omega, (getElem?_cons_sub hle).trans hx, hrun⟩

/-- A turn of a run leaves where checks stand that were started before, and gives new ones tasks. -/
theorem Ran.standing [SampleStore σ] {run : Nat} {first : List MonitoringTarget} (h : Ran run first s s')
    (i : Nat) :
    s'.standing i = { s.standing i with
      task := (s.check? i).or
        (if s.started ≤ i then
          (first[i - s.started]?).map fun t => ⟨i, run, t, .probing (.start t.magnet s.plan.policy)⟩
        else none) } := by
  rw [Sampler.standing, h.writer, check?, h.checks, List.find?_append, newTasks_find?]
  rfl

end Sampler

end SwarmSampler
