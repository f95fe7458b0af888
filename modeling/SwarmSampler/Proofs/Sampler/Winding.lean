import SwarmSampler.Proofs.Sampler.Accepting
import SwarmSampler.Proofs.Sampler.Halting

/-
How a cancelled run comes to its end. Its tasks are given turns in rounds, in
any order and with anything else in between: in the first round its checks
settle, in the second the writer answers them, in the third they end, and in the
fourth the run itself does. The store has to take what it is given.
-/

namespace SwarmSampler

namespace Sampler

variable {κ τ σ : Type} {s s' : Sampler κ τ σ} {run : Nat}

/-- A piece of the writer's work. -/
def Move.isWork : Move σ → Bool
  | .work => true
  | _ => false

/-- Moves in which a run, all its checks, and the writer for each request in its line have turns. -/
structure Round (s : Sampler κ τ σ) (run : Nat) (ms : List (Move σ)) : Prop where
  turn : Move.run run ∈ ms
  checks : ∀ t ∈ s.checks, t.run = run → Move.check t.id ∈ ms
  works : s.writer.line.length ≤ ms.countP Move.isWork

/-- A round that is possible at any time: the run, the checks, the writer. -/
def roundOf (s : Sampler κ τ σ) (run : Nat) : List (Move σ) :=
  .run run :: s.checks.map (fun t => .check t.id) ++ List.replicate s.writer.line.length .work

theorem roundOf_round (s : Sampler κ τ σ) (run : Nat) : s.Round run (s.roundOf run) where
  turn := List.mem_cons_self
  checks t ht _ := List.mem_append_left _ (List.mem_cons_of_mem _ (List.mem_map.2 ⟨t, ht, rfl⟩))
  works := by
    rw [roundOf, List.countP_append, List.countP_replicate]
    exact Nat.le_add_left _ _

section

variable [SwarmClient κ τ] [SampleStore σ]

/-- Some rounds, one after another. -/
inductive Rounds (run : Nat) : Nat → Sampler κ τ σ → List (Move σ) → Prop
  | none (s : Sampler κ τ σ) : Rounds run 0 s []
  | more {n : Nat} {s : Sampler κ τ σ} {ms later : List (Move σ)} (round : s.Round run ms)
      (rounds : Rounds run n (s.moveAll ms) later) : Rounds run (n + 1) s (ms ++ later)

/-- Rounds that are possible at any time. -/
def roundsOf (run : Nat) : Nat → Sampler κ τ σ → List (Move σ)
  | 0, _ => []
  | n + 1, s => s.roundOf run ++ roundsOf run n (s.moveAll (s.roundOf run))

theorem roundsOf_rounds (run n : Nat) : ∀ s : Sampler κ τ σ, Rounds run n s (roundsOf run n s) := by
  induction n with
  | zero => exact .none
  | succ n ih => exact fun s => .more (s.roundOf_round run) (ih _)

end

/-- A check whose retries are not settled. -/
def Probing (s : Sampler κ τ σ) (id : Nat) : Prop :=
  ∃ t p, s.check? id = some t ∧ t.stage = .probing p

/-- All requests of a check are among the first in the writer's line, up to some number. -/
def Within (s : Sampler κ τ σ) (id n : Nat) : Prop := ∀ r ∈ s.writer.line.drop n, r.ticket ≠ id

theorem Within.of_zero {id : Nat} (h : s.Within id 0) : (s.standing id).requests = [] :=
  List.filter_eq_nil_iff.2 fun r hr => by simpa using h r hr

/-! ## The end of a check -/

theorem check?_ended {id : Nat} {c : CheckTask τ} (task : s.check? id = some c) {client : κ}
    {new : List CheckReport} {result : CheckResult} : (s.ended client c new result).check? id = none :=
  congrArg Standing.task (standing_ended task client new result)

theorem check?_withStage_self {id : Nat} {stage : CheckStage τ} {c : CheckTask τ} (task : s.check? id = some c) :
    (s.withStage id stage).check? id = some { c with stage := stage } :=
  congrArg Standing.task (standing_withStage_self task)

/-- A check whose sample has gone to the writer is settled. -/
theorem check?_queued [SampleStore σ] {id : Nat} {c : CheckTask τ} (task : s.check? id = some c) {client : κ}
    {o : CheckOutcome} : ¬(s.queued client c o).Probing id := by
  rintro ⟨t, p, htask, hstage⟩
  have h := (congrArg Standing.task (standing_queued s client c o id)).symm.trans htask
  rw [task, Option.map_some, if_pos rfl, Option.some.injEq] at h
  rw [← h] at hstage
  cases hstage

/-! ## The end of a run -/

/-- A run that is over. -/
def Returned (s : Sampler κ τ σ) (run : Nat) : Prop := (s.result? run).isSome = true

theorem returned_iff : s.Returned run ↔ ∃ r e, s.runs[run]? = some r ∧ r.phase = .over e := by
  unfold Returned result?
  split
  · next h => exact ⟨fun _ => ⟨_, _, h, rfl⟩, fun _ => rfl⟩
  · next hne =>
    refine ⟨fun h => (by cases h), fun ⟨r, e, hr, he⟩ => ?_⟩
    obtain ⟨repeats, halted, phase, passes⟩ := r
    obtain rfl : phase = .over e := he
    exact absurd hr (hne _ _ _ _)

theorem returned_congr (h : s'.runs[run]? = s.runs[run]?) : s'.Returned run ↔ s.Returned run := by
  rw [returned_iff, returned_iff, h]

theorem Returned.idle (h : s.Returned run) : s.cycle? run = none := by
  obtain ⟨r, e, hr, he⟩ := returned_iff.1 h
  rw [cycle?_eq, hr, Option.bind_some, Run.cycle?, he]

theorem Returned.known (h : s.Returned run) : run < s.runs.length := by
  obtain ⟨r, e, hr, -⟩ := returned_iff.1 h
  exact (List.getElem?_eq_some_iff.1 hr).1

theorem returned_withRun {f : Run → Run} {r : Nat} (h : s.Returned run)
    (keeps : ∀ x e, x.phase = .over e → (f x).phase = .over e) : (s.withRun r f).Returned run := by
  obtain ⟨x, e, hx, he⟩ := returned_iff.1 h
  rw [returned_iff, runs_withRun]
  split
  · exact ⟨f x, e, by rw [hx, Option.map_some], keeps x e he⟩
  · exact ⟨x, e, hx, he⟩

theorem returned_withPhase (known : run < s.runs.length) (e : Except Failure Unit) :
    (s.withPhase run (.over e)).Returned run := by
  rw [returned_iff, withPhase, runs_withRun, if_pos rfl, List.getElem?_eq_getElem known]
  exact ⟨_, e, rfl, rfl⟩

theorem length_withRun (s : Sampler κ τ σ) (run : Nat) (f : Run → Run) :
    (s.withRun run f).runs.length = s.runs.length := List.length_modify ..

/-- A turn of a run adds no run and takes none away. -/
theorem RunTurn.length [SampleStore σ] (h : RunTurn s run s') : s'.runs.length = s.runs.length := by
  have goes : ∀ (s : Sampler κ τ σ) (began : Nat) (cycle : Cycle),
      (s.goOnCycle run began cycle).runs.length = s.runs.length := by
    intro s began cycle
    obtain ⟨first, rest, x, hx, ht⟩ := goOnCycle_turn s run began cycle
    obtain ⟨pool, hp⟩ := hx.state
    rw [hp] at ht
    generalize s.goOnCycle run began cycle = s' at ht ⊢
    cases ht <;> exact length_withRun ..
  cases h with
  | rests => rfl
  | ends | barren => exact length_withRun ..
  | begins | goesOn => exact goes ..

/-- A cancelled run is over after its cycle. -/
theorem returned_endCycle (known : run < s.runs.length) (halted : s.runHalted run = true) (began : Nat)
    (result : Except Failure CycleSummary) : (s.endCycle run began result).Returned run := by
  obtain ⟨e, he⟩ | ⟨hh, -⟩ := (s.runs[run]).phaseAfter_cases (s.runHalted run)
    (s.now + s.plan.cycleInterval.wait) result
  · rw [returned_iff, endCycle, runs_withRun, if_pos rfl, List.getElem?_eq_getElem known]
    exact ⟨_, e, rfl, he⟩
  · exact absurd (hh.symm.trans halted) Bool.false_ne_true

/-- A cancelled run whose checks are over ends in its turn. -/
theorem RunTurn.returned [SampleStore σ] (h : RunTurn s run s') (hb : s.Balanced) (known : run < s.runs.length)
    (halted : s.runHalted run = true) (gone : s.openChecks run = 0) : s'.Returned run := by
  have goes : ∀ {s : Sampler κ τ σ} {began : Nat} {cycle : Cycle}, run < s.runs.length →
      s.runHalted run = true → cycle.uncounted = cycle.arrived.length →
      (s.goOnCycle run began cycle).Returned run := by
    intro s began cycle known halted counted
    obtain ⟨first, rest, x, hx, ht⟩ := goOnCycle_turn s run began cycle
    obtain ⟨rfl, hleft⟩ := hx.halted (by rw [halted]; rfl)
    obtain ⟨pool, hp⟩ := hx.state
    rw [hp] at ht
    generalize s.goOnCycle run began cycle = s' at ht ⊢
    cases ht with
    | starts left => exact absurd hleft left
    | counts left open' =>
      rw [Cycle.takeArrived_eq, hx.kept] at open'
      exact absurd (by simp only [List.length_nil]; omega) open'
    | ends left done => exact returned_endCycle (s := s.begun run [] pool) known halted _ _
  cases h with
  | rests idle ended => exact ended halted known
  | ends => exact returned_withPhase known _
  | @barren f store drawn =>
    exact returned_endCycle (s := { s with store := store, drawn := drawn }) known halted _ _
  | @begins targets n store =>
    exact goes (s := { s with store := store, drawn := s.drawn + 1 }) known halted rfl
  | @goesOn began cycle r busy phase =>
    refine goes known halted ?_
    have hbalance := hb run
    rw [uncounted, arrived, cycle?_of_phase busy phase, gone] at hbalance
    exact hbalance.trans (Nat.zero_add _)

end Sampler

namespace Chronicle

open Sampler

variable {κ τ σ ρ : Type} [SwarmClient κ τ] [SampleStore σ] {view : SampleView σ ρ} {before : List ρ}
  {c : Chronicle κ τ σ ρ} {run id : Nat} {m : Move σ}

/-! ## What stays as it is -/

/-- Only its own turns change the task of a check that was started. -/
theorem Right.task_kept (h : Right view before c) (known : id < c.sampler.started) (other : m ≠ .check id) :
    (c.sampler.move m).check? id = c.sampler.check? id := by
  cases m with
  | run r =>
    obtain ⟨first, hran⟩ := (resumeRun_turn c.sampler r).ran
    have hstanding := congrArg Standing.task (hran.standing id)
    rw [if_neg (Nat.not_le.2 known), Option.or_none] at hstanding
    exact hstanding
  | check i =>
    exact congrArg Standing.task ((h.checkTurn i).standing_other fun hi => other (by rw [hi]))
  | work | clock | cancel | cancelRun | addRun | relist | register | append => rfl

/-- A check that has settled or ended has done so for good. -/
theorem Right.settled_kept (h : Right view before c) (known : id < c.sampler.started)
    (settled : ¬c.sampler.Probing id) (m : Move σ) : ¬(c.sampler.move m).Probing id := by
  by_cases hm : m = .check id
  · subst hm
    have ht := h.checkTurn id
    rw [move]
    generalize c.sampler.resumeCheck id = s' at ht ⊢
    cases ht with
    | absent | stands => exact settled
    | waits task stage => exact absurd ⟨_, _, task, stage⟩ settled
    | settles task stage => exact absurd ⟨_, _, task, stage⟩ settled
    | ends task ending =>
      rintro ⟨t, p, htask, -⟩
      cases (check?_ended task).symm.trans htask
  · rintro ⟨t, p, htask, hstage⟩
    exact settled ⟨t, p, (h.task_kept known hm).symm.trans htask, hstage⟩

theorem Right.ended_kept (h : Right view before c) (known : id < c.sampler.started)
    (ended : c.sampler.check? id = none) (m : Move σ) : (c.sampler.move m).check? id = none := by
  by_cases hm : m = .check id
  · subst hm
    rw [move, resumeCheck, ended]
    exact ended
  · exact (h.task_kept known hm).trans ended

theorem Right.returned_kept (h : Right view before c) (returned : c.sampler.Returned run) (m : Move σ) :
    (c.sampler.move m).Returned run := by
  cases m with
  | run r =>
    by_cases hr : run = r
    · subst hr
      obtain ⟨x, e, hx, he⟩ := returned_iff.1 returned
      rw [move, resumeRun, hx]
      simp only [he]
      exact returned
    · obtain ⟨first, hran⟩ := (resumeRun_turn c.sampler r).ran
      exact (returned_congr (hran.others run hr)).2 returned
  | check i =>
    have ht := h.checkTurn i
    rw [move]
    generalize c.sampler.resumeCheck i = s' at ht ⊢
    cases ht with
    | absent | stands | waits | settles => exact returned
    | ends => exact returned_withRun returned fun x e he => by rw [he]; exact he
  | cancelRun r => exact returned_withRun returned fun x e he => he
  | addRun repeats =>
    have hsame : (c.sampler.runs ++ [Run.start repeats])[run]? = c.sampler.runs[run]? :=
      List.getElem?_append_left returned.known
    exact (returned_congr hsame).2 returned
  | work | clock | cancel | relist | register | append => exact returned

theorem Right.known_kept (h : Right view before c) (known : run < c.sampler.runs.length) (m : Move σ) :
    run < (c.sampler.move m).runs.length := by
  cases m with
  | run r => exact (resumeRun_turn c.sampler r).length ▸ known
  | check i =>
    have ht := h.checkTurn i
    rw [move]
    generalize c.sampler.resumeCheck i = s' at ht ⊢
    cases ht with
    | absent | stands | waits | settles => exact known
    | ends => exact (length_withRun ..).symm ▸ known
  | cancelRun r => exact (length_withRun ..).symm ▸ known
  | addRun repeats =>
    show run < (c.sampler.runs ++ [Run.start repeats]).length
    rw [List.length_append]
    exact Nat.lt_add_right _ known
  | work | clock | cancel | relist | register | append => exact known

/-! ## A check that is cancelled -/

/-- A check of a cancelled run. -/
structure Leaving (view : SampleView σ ρ) (before : List ρ) (run id : Nat) (c : Chronicle κ τ σ ρ) : Prop where
  right : Right view before c
  halted : c.sampler.runHalted run = true
  started : ∃ k target, CheckEvent.started ⟨run, k, target⟩ ∈ c.life id

theorem life_step (view : SampleView σ ρ) (c : Chronicle κ τ σ ρ) (m : Move σ) :
    (c.step view.toRowView m).life id = c.life id ++ (brings view c.sampler m).filterMap (Entry.of? id) :=
  List.filterMap_append

namespace Leaving

theorem step (h : Leaving view before run id c) (m : Move σ) :
    Leaving view before run id (c.step view.toRowView m) where
  right := h.right.step m
  halted := (h.right.runHalted m run).2 (.inl h.halted)
  started := by
    obtain ⟨k, target, hs⟩ := h.started
    exact ⟨k, target, life_step view c m ▸ List.mem_append_left _ hs⟩

omit [SwarmClient κ τ] in
theorem known (h : Leaving view before run id c) : id < c.sampler.started := by
  obtain ⟨k, target, hs⟩ := h.started
  refine Nat.lt_of_not_le fun hle => ?_
  rw [h.right.fresh id hle] at hs
  exact List.not_mem_nil hs

omit [SwarmClient κ τ] in
theorem cancelled (h : Leaving view before run id c) {t : CheckTask (Nat × τ)}
    (task : c.sampler.check? id = some t) : c.sampler.checksHalted t.run = true := by
  obtain ⟨k, target, hs⟩ := h.started
  rw [(h.right.task_of_started hs task).1]
  exact checksHalted_of_run h.halted

/-- It settles in its next turn. -/
theorem settles (h : Leaving view before run id c) : ¬(c.sampler.move (.check id)).Probing id := by
  have ht := h.right.checkTurn id
  rw [move]
  generalize c.sampler.resumeCheck id = s' at ht ⊢
  cases ht with
  | absent gone =>
    rintro ⟨t, p, task, -⟩
    cases gone.symm.trans task
  | stands task stage =>
    rintro ⟨t, p, task', stage'⟩
    obtain rfl := Option.some.inj (task.symm.trans task')
    cases stage.symm.trans stage'
  | @waits t p p' client' task stage turn =>
    obtain ⟨outcome, ho, -⟩ := Probe.resume_cancelled c.sampler.now p c.sampler.client
    rw [h.cancelled task] at turn
    cases ho.symm.trans (congrArg Prod.fst turn)
  | settles task stage turn => exact check?_queued task
  | ends task ending =>
    rintro ⟨t, p, task', -⟩
    cases (check?_ended task).symm.trans task'

/-- A settled check sends the writer nothing more, and a piece of work takes the first request from the
line. -/
theorem within_step (h : Leaving view before run id c) (settled : ¬c.sampler.Probing id)
    (hw : c.sampler.writer.Unrefused) (m : Move σ) (quiet : (c.step view.toRowView m).Accepting) {n : Nat}
    (within : c.sampler.Within id n) : (c.sampler.move m).Within id (n - [m].countP Move.isWork) := by
  have same : ∀ {s' : Sampler (Observed κ) (Nat × τ) σ}, s'.writer = c.sampler.writer → s'.Within id n :=
    fun hs => by rwa [Within, hs]
  cases m with
  | run r => exact same (resumeRun_turn c.sampler r).writer
  | check i =>
    have ht := h.right.checkTurn i
    rw [move]
    generalize c.sampler.resumeCheck i = s' at ht ⊢
    cases ht with
    | absent | stands | waits | ends => exact within
    | @settles t p o client' task stage turn =>
      have hne : t.id ≠ id := by
        rw [(mem_of_check? task).2]
        rintro rfl
        exact settled ⟨t, p, task, stage⟩
      intro r hr
      have hline : (c.sampler.queued client' t o).writer.line =
          c.sampler.writer.line ++ [c.sampler.requestOf t o] :=
        (List.append_assoc ..).symm
      rw [hline, List.countP_singleton] at hr
      rcases List.mem_append.1 ((List.drop_append ▸ hr : r ∈ _ ++ _)) with hr | hr
      · exact within r hr
      · rw [List.mem_singleton.1 (List.mem_of_mem_drop hr)]
        exact hne
  | work =>
    have hquiet : ∀ e ∈ noteWork view.toRowView c.sampler c.sampler.work, e ≠ .vain := fun e he =>
      quiet e (List.mem_append_right _ he)
    show c.sampler.work.Within id (n - 1)
    -- Whosever the first request in line is, it goes.
    obtain ⟨hnil, hsame⟩ | ⟨r, rest, stored, hline, hnew⟩ := work_accepted hw hquiet
    · rw [Within, hsame, hnil, List.drop_nil]
      exact fun r hr => absurd hr List.not_mem_nil
    · have hrest : c.sampler.work.writer.line = rest := by
        rw [hnew, Writer.line, Writer.current, hw.idle]
        rfl
      intro q hq
      rw [hrest] at hq
      cases n with
      | zero => exact within q (by rw [hline]; exact List.mem_cons_of_mem _ hq)
      | succ n => exact within q (by rw [hline]; exact hq)
  | clock | cancel | cancelRun | addRun | relist | register | append => exact within

end Leaving

/-! ## Rounds -/

/-- A check of a cancelled run whose store has taken all it was given. -/
structure Served (view : SampleView σ ρ) (before : List ρ) (run id : Nat) (c : Chronicle κ τ σ ρ) : Prop
    extends Leaving view before run id c where
  unrefused : c.sampler.writer.Unrefused

namespace Served

theorem step (h : Served view before run id c) (m : Move σ) (quiet : (c.step view.toRowView m).Accepting) :
    Served view before run id (c.step view.toRowView m) :=
  ⟨h.toLeaving.step m, h.right.unrefused_step h.unrefused m quiet⟩

/-- A property of checks that outlives every move which the store does not refuse. -/
def Lasts (view : SampleView σ ρ) (before : List ρ) (run id : Nat) (P : Chronicle κ τ σ ρ → Prop) : Prop :=
  ∀ {c m}, Served view before run id c → (c.step view.toRowView m).Accepting → P c → P (c.step view.toRowView m)

theorem lasts_run {P : Chronicle κ τ σ ρ → Prop} (lasts : Lasts view before run id P) (ms : List (Move σ)) :
    ∀ {c}, Served view before run id c → (c.run view.toRowView ms).Accepting → P c →
      Served view before run id (c.run view.toRowView ms) ∧ P (c.run view.toRowView ms) := by
  induction ms with
  | nil => exact fun h _ hp => ⟨h, hp⟩
  | cons m ms ih =>
    intro c h quiet hp
    have hquiet := quiet.earlier ms
    exact ih (h.step m hquiet) quiet (lasts h hquiet hp)

/-- What one of some moves brings about, if it finds what it needs, is so after them. -/
theorem run_of_mem {P Q : Chronicle κ τ σ ρ → Prop} (needs : Lasts view before run id P)
    (lasts : Lasts view before run id Q)
    (turn : ∀ {c}, Served view before run id c → P c → Q (c.step view.toRowView m)) (ms : List (Move σ))
    (hm : m ∈ ms) : ∀ {c}, Served view before run id c → (c.run view.toRowView ms).Accepting → P c →
      Q (c.run view.toRowView ms) := by
  induction ms with
  | nil => cases hm
  | cons a ms ih =>
    intro c h quiet hp
    have hquiet := quiet.earlier ms
    by_cases ha : m = a
    · subst ha
      exact (lasts_run lasts ms (h.step m hquiet) quiet (turn h hp)).2
    · exact ih ((List.mem_cons.1 hm).resolve_left ha) (h.step a hquiet) quiet (needs h hquiet hp)

omit [SwarmClient κ τ] in
/-- A check that is on its way has its turn in a round. -/
theorem turn_of_round {ms : List (Move σ)} (h : Served view before run id c) {t : CheckTask (Nat × τ)}
    (task : c.sampler.check? id = some t) (round : c.sampler.Round run ms) : Move.check id ∈ ms := by
  obtain ⟨k, target, hs⟩ := h.started
  obtain ⟨hmem, rfl⟩ := mem_of_check? task
  exact round.checks t hmem (h.right.task_of_started hs task).1

theorem lasts_settled : Lasts view before run id fun c : Chronicle κ τ σ ρ => ¬c.sampler.Probing id :=
  fun {_ m} h _ settled => h.right.settled_kept h.known settled m

theorem lasts_ended : Lasts view before run id fun c : Chronicle κ τ σ ρ => c.sampler.check? id = none :=
  fun {_ m} h _ ended => h.right.ended_kept h.known ended m

/-- After the first round a check is settled. -/
theorem settled {ms : List (Move σ)} (h : Served view before run id c) (round : c.sampler.Round run ms)
    (quiet : (c.run view.toRowView ms).Accepting) : ¬(c.run view.toRowView ms).sampler.Probing id := by
  cases task : c.sampler.check? id with
  | none =>
    rintro ⟨t, p, htask, -⟩
    cases (lasts_run lasts_ended ms h quiet task).2.symm.trans htask
  | some t =>
    exact run_of_mem (P := fun _ => True) (fun _ _ _ => trivial) lasts_settled (fun h _ => h.settles) ms
      (h.turn_of_round task round) h quiet trivial

theorem within_run (ms : List (Move σ)) : ∀ {c : Chronicle κ τ σ ρ} {n : Nat}, Served view before run id c →
    ¬c.sampler.Probing id → (c.run view.toRowView ms).Accepting → c.sampler.Within id n →
      (c.run view.toRowView ms).sampler.Within id (n - ms.countP Move.isWork) := by
  induction ms with
  | nil => exact fun _ _ _ within => within
  | cons m ms ih =>
    intro c n h settled quiet within
    have hquiet := quiet.earlier ms
    have hstep := ih (h.step m hquiet) (h.right.settled_kept h.known settled m) quiet
      (h.within_step settled h.unrefused m hquiet within)
    rwa [Nat.sub_sub, ← List.countP_append] at hstep

/-- After the second round a settled check has nothing in the writer's line. -/
theorem answered {ms : List (Move σ)} (h : Served view before run id c) (settled : ¬c.sampler.Probing id)
    (round : c.sampler.Round run ms) (quiet : (c.run view.toRowView ms).Accepting) :
    (c.run view.toRowView ms).sampler.Within id 0 := by
  have hall : c.sampler.Within id c.sampler.writer.line.length := by
    rw [Within, List.drop_length]
    exact fun r hr => absurd hr List.not_mem_nil
  have hrun := within_run ms h settled quiet hall
  rwa [Nat.sub_eq_zero_of_le round.works] at hrun

/-- A settled check with nothing in the writer's line ends in its next turn. -/
theorem ends (h : Served view before run id c) (settled : ¬c.sampler.Probing id)
    (answered : c.sampler.Within id 0) : (c.sampler.move (.check id)).check? id = none := by
  have ht := h.right.checkTurn id
  rw [move]
  generalize c.sampler.resumeCheck id = s' at ht ⊢
  cases ht with
  | absent gone => exact gone
  | @stands t metrics task stage answer =>
    obtain ⟨a, ha⟩ := (h.right.lives id).exists_answer task stage answered.of_zero
    rw [answer?_standing, ha] at answer
    cases answer
  | waits task stage => exact absurd ⟨_, _, task, stage⟩ settled
  | settles task stage => exact absurd ⟨_, _, task, stage⟩ settled
  | ends task ending => exact check?_ended task

/-- After the third round a check is over. -/
theorem ended {ms : List (Move σ)} (h : Served view before run id c) (settled : ¬c.sampler.Probing id)
    (answered : c.sampler.Within id 0) (round : c.sampler.Round run ms)
    (quiet : (c.run view.toRowView ms).Accepting) : (c.run view.toRowView ms).sampler.check? id = none := by
  cases task : c.sampler.check? id with
  | none => exact (lasts_run lasts_ended ms h quiet task).2
  | some t =>
    have needs : Lasts view before run id fun c : Chronicle κ τ σ ρ =>
        ¬c.sampler.Probing id ∧ c.sampler.Within id 0 :=
      fun {_ m} h quiet ⟨settled, within⟩ =>
        ⟨lasts_settled h quiet settled, by
          have hstep := h.within_step settled h.unrefused m quiet within
          rwa [Nat.zero_sub] at hstep⟩
    exact run_of_mem needs lasts_ended (fun h hp => h.ends hp.1 hp.2) ms (h.turn_of_round task round) h quiet
      ⟨settled, answered⟩

end Served

/-- The checks of a cancelled run are those it had before. -/
theorem Right.checks_before (h : Right view before c) (halted : c.sampler.runHalted run = true) (m : Move σ)
    {t : CheckTask (Nat × τ)} (ht : t ∈ (c.sampler.move m).checks) (hrun : t.run = run) :
    ∃ u ∈ c.sampler.checks, u.id = t.id ∧ u.run = run := by
  cases m with
  | run r =>
    obtain ⟨first, hran⟩ := (resumeRun_turn c.sampler r).ran
    rw [move, hran.checks] at ht
    rcases List.mem_append.1 ht with ht | ht
    · exact ⟨t, ht, rfl, hrun⟩
    · obtain rfl : run = r := hrun.symm.trans (mem_newTasks ht).2.2
      rw [hran.cancelled (checksHalted_of_run halted)] at ht
      exact absurd ht List.not_mem_nil
  | check i =>
    obtain ⟨u, hu, hid, hr, -⟩ := (h.checkTurn i).mem_checks ht
    exact ⟨u, hu, hid, hr.trans hrun⟩
  | work | clock | cancel | cancelRun | addRun | relist | register | append => exact ⟨t, ht, rfl, hrun⟩

theorem Right.checks_before_run (ms : List (Move σ)) : ∀ {c : Chronicle κ τ σ ρ}, Right view before c →
    c.sampler.runHalted run = true →
      ∀ t ∈ (c.run view.toRowView ms).sampler.checks, t.run = run →
        ∃ u ∈ c.sampler.checks, u.id = t.id ∧ u.run = run := by
  induction ms with
  | nil => exact fun _ _ t ht hrun => ⟨t, ht, rfl, hrun⟩
  | cons m ms ih =>
    intro c h halted t ht hrun
    obtain ⟨u, hu, hid, hr⟩ := ih (h.step m) ((h.runHalted m run).2 (.inl halted)) t ht hrun
    obtain ⟨v, hv, hid', hr'⟩ := h.checks_before halted m hu hr
    exact ⟨v, hv, hid'.trans hid, hr'⟩

/-- What a cancelled run keeps. -/
structure Cancelled (view : SampleView σ ρ) (before : List ρ) (run : Nat) (c : Chronicle κ τ σ ρ) : Prop where
  right : Right view before c
  halted : c.sampler.runHalted run = true
  known : run < c.sampler.runs.length

namespace Cancelled

theorem step (h : Cancelled view before run c) (m : Move σ) :
    Cancelled view before run (c.step view.toRowView m) :=
  ⟨h.right.step m, (h.right.runHalted m run).2 (.inl h.halted), h.right.known_kept h.known m⟩

theorem steps (ms : List (Move σ)) (h : Cancelled view before run c) :
    Cancelled view before run (c.run view.toRowView ms) :=
  run_keeps (P := Cancelled view before run) (fun m h => h.step m) ms h

theorem returned_run (ms : List (Move σ)) (h : Cancelled view before run c)
    (returned : c.sampler.Returned run) :
    (c.run view.toRowView ms).sampler.Returned run :=
  (run_keeps (P := fun c => Cancelled view before run c ∧ c.sampler.Returned run)
    (fun m h => ⟨h.1.step m, h.1.right.returned_kept h.2 m⟩) ms ⟨h, returned⟩).2

/-- After the fourth round a run without checks is over. -/
theorem returned {ms : List (Move σ)} (turn : Move.run run ∈ ms) :
    ∀ {c : Chronicle κ τ σ ρ}, Cancelled view before run c → (∀ t ∈ c.sampler.checks, t.run ≠ run) →
      (c.run view.toRowView ms).sampler.Returned run := by
  induction ms with
  | nil => cases turn
  | cons m ms ih =>
    intro c h gone
    by_cases hm : .run run = m
    · subst hm
      have hopen : c.sampler.openChecks run = 0 := List.countP_eq_zero.2 fun t ht => by simpa using gone t ht
      exact (h.step _).returned_run ms
        ((resumeRun_turn c.sampler run).returned h.right.balanced h.known h.halted hopen)
    · refine ih ((List.mem_cons.1 turn).resolve_left hm) (h.step m) fun t ht hrun => ?_
      obtain ⟨u, hu, -, hr⟩ := h.right.checks_before h.halted m ht hrun
      exact gone u hu hr

/-- The checks of a cancelled run are over after three rounds. -/
theorem gone (h : Cancelled view before run c) (unrefused : c.sampler.writer.Unrefused)
    {first second third : List (Move σ)} (round₁ : c.sampler.Round run first)
    (round₂ : (c.run view.toRowView first).sampler.Round run second)
    (round₃ : ((c.run view.toRowView first).run view.toRowView second).sampler.Round run third)
    (quiet : (((c.run view.toRowView first).run view.toRowView second).run view.toRowView third).Accepting) :
    ∀ t ∈ (((c.run view.toRowView first).run view.toRowView second).run view.toRowView third).sampler.checks,
      t.run ≠ run := by
  -- Such a check was there before the first round. It settles, then it is answered, then it ends.
  intro t ht hrun
  have quiet₂ := quiet.earlier third
  have quiet₁ := quiet₂.earlier second
  rw [← run_append, ← run_append] at ht
  obtain ⟨u, hu, hid, hr⟩ := h.right.checks_before_run _ h.halted t ht hrun
  obtain ⟨rest, hcurrent⟩ := h.right.current u hu
  rw [hid, hr] at hcurrent
  have h₀ : Served view before run t.id c :=
    ⟨⟨h.right, h.halted, _, _, hcurrent ▸ List.mem_cons_self⟩, unrefused⟩
  have settled := h₀.settled round₁ quiet₁
  have h₁ := (Served.lasts_run (P := fun _ => True) (fun _ _ _ => trivial) first h₀ quiet₁ trivial).1
  have answered := h₁.answered settled round₂ quiet₂
  obtain ⟨h₂, settled⟩ := Served.lasts_run Served.lasts_settled second h₁ quiet₂ settled
  have gone := h₂.ended settled answered round₃ quiet
  rw [← run_append, ← run_append] at gone
  exact List.find?_eq_none.1 gone t ht (beq_self_eq_true t.id)

/-- **A cancelled run comes to its end.** Four rounds of turns are enough, whatever else happens. -/
theorem returns (h : Cancelled view before run c) (unrefused : c.sampler.writer.Unrefused)
    {ms : List (Move σ)} (rounds : Rounds run 4 c.sampler ms) (quiet : (c.run view.toRowView ms).Accepting) :
    (c.run view.toRowView ms).sampler.Returned run := by
  cases rounds with
  | @more _ _ first _ round₁ rounds =>
    cases rounds with
    | @more _ _ second _ round₂ rounds =>
      cases rounds with
      | @more _ _ third _ round₃ rounds =>
        cases rounds with
        | @more _ _ fourth _ round₄ rounds =>
          cases rounds with
          | none =>
            simp only [← run_sampler view.toRowView] at round₂ round₃ round₄
            simp only [run_append, List.append_nil] at quiet ⊢
            have quiet₃ := quiet.earlier fourth
            exact returned round₄.turn (((h.steps first).steps second).steps third)
              (h.gone unrefused round₁ round₂ round₃ quiet₃)

end Cancelled

end Chronicle

end SwarmSampler
