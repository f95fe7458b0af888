import SwarmSampler.Proofs.Sampler.Balance
import SwarmSampler.Proofs.Sampler.Moves

/-
A run's record, which tells what the run has been through and what it waits for,
and what each move makes of it. Only a turn of the run itself takes it from one
thing to the next; other moves cancel it or hand it the result of a check.
-/

namespace SwarmSampler

namespace Run

/-- The instant at which the cycle began that a turn of the run goes through: just now, if the run has
waited for its first turn or its pause is over, and else when the present cycle did. A cancelled run begins
no cycle after a pause, and none at all if it repeats. -/
inductive Begins (now : Nat) (cancelled : Bool) (r : Run) : Nat → Prop
  | first (phase : r.phase = .starting) (free : r.repeats = true → cancelled = false) :
      Begins now cancelled r now
  | next {wakeAt : Nat} (phase : r.phase = .pausing wakeAt) (due : wakeAt ≤ now) (free : cancelled = false) :
      Begins now cancelled r now
  | goesOn {began : Nat} {cycle : Cycle} (phase : r.phase = .cycling began cycle) : Begins now cancelled r began

/-- What a turn of the run makes of it. -/
inductive Step (now gap : Nat) (cancelled : Bool) (r : Run) : Run → Prop
  | rests (idle : (∃ result, r.phase = .over result) ∨
      ∃ wakeAt, r.phase = .pausing wakeAt ∧ now < wakeAt ∧ cancelled = false) : Step now gap cancelled r r
  | stops (waits : r.phase = .starting ∨ ∃ wakeAt, r.phase = .pausing wakeAt) (halted : cancelled = true) :
      Step now gap cancelled r { r with phase := .over (.ok ()) }
  | cycles {began : Nat} {cycle : Cycle} (since : r.Begins now cancelled began) :
      Step now gap cancelled r { r with phase := .cycling began cycle }
  | closes {began : Nat} {result : Except Failure CycleSummary} (since : r.Begins now cancelled began) :
      Step now gap cancelled r { r with
        passes := r.passes ++ [⟨began, now, result⟩]
        phase := r.phaseAfter cancelled (now + gap) result }

/-- The same run, but for cancellations and for results that have arrived. -/
structure Like (r r' : Run) : Prop where
  repeats : r'.repeats = r.repeats
  passes : r'.passes = r.passes
  halted : r.halted = true → r'.halted = true
  phase : r'.phase = r.phase ∨
    ∃ began cycle cycle', r.phase = .cycling began cycle ∧ r'.phase = .cycling began cycle'

theorem Like.refl (r : Run) : r.Like r := ⟨rfl, rfl, id, .inl rfl⟩

variable {r r' : Run}

theorem Like.over_iff (h : r.Like r') {result : Except Failure Unit} :
    r'.phase = .over result ↔ r.phase = .over result := by
  obtain hp | ⟨began, cycle, cycle', hp, hp'⟩ := h.phase
  · rw [hp]
  · rw [hp, hp']
    exact ⟨nofun, nofun⟩

theorem Like.pausing_iff (h : r.Like r') {wakeAt : Nat} :
    r'.phase = .pausing wakeAt ↔ r.phase = .pausing wakeAt := by
  obtain hp | ⟨began, cycle, cycle', hp, hp'⟩ := h.phase
  · rw [hp]
  · rw [hp, hp']
    exact ⟨nofun, nofun⟩

theorem Step.repeats {now gap : Nat} {cancelled : Bool} (h : r.Step now gap cancelled r') :
    r'.repeats = r.repeats := by cases h <;> rfl

/-- A run that is over stays as it is. -/
theorem Step.of_over {now gap : Nat} {cancelled : Bool} (h : r.Step now gap cancelled r')
    {result : Except Failure Unit} (ended : r.phase = .over result) : r' = r := by
  have unbegun : ∀ {began}, ¬r.Begins now cancelled began := by
    rintro _ (⟨hp, -⟩ | ⟨hp, -, -⟩ | hp) <;> exact RunPhase.noConfusion (ended.symm.trans hp)
  cases h with
  | rests => rfl
  | stops waits =>
    obtain hp | ⟨_, hp⟩ := waits <;> cases ended.symm.trans hp
  | cycles since => exact absurd since unbegun
  | closes since => exact absurd since unbegun

end Run

namespace Sampler

variable {κ τ σ : Type} {s s' : Sampler κ τ σ} {run : Nat} {r r' : Run}

/-- How long a run pauses between two cycles. -/
def gap (s : Sampler κ τ σ) : Nat := s.plan.cycleInterval.wait

/-! ## Turns of runs -/

theorem withPhase_run (present : s.runs[run]? = some r) (phase : RunPhase) :
    (s.withPhase run phase).runs[run]? = some { r with phase := phase } := by
  rw [withPhase, runs_withRun, if_pos rfl, present, Option.map_some]

theorem endCycle_run (present : s.runs[run]? = some r) (began : Nat) (result : Except Failure CycleSummary) :
    (s.endCycle run began result).runs[run]? = some { r with
      passes := r.passes ++ [⟨began, s.now, result⟩]
      phase := r.phaseAfter (s.runHalted run) (s.now + s.gap) result } := by
  rw [endCycle, runs_withRun, if_pos rfl, present, Option.map_some, gap]

theorem goOnCycle_run (present : s.runs[run]? = some r) {began : Nat}
    (since : r.Begins s.now (s.runHalted run) began) (cycle : Cycle) :
    ∃ r', (s.goOnCycle run began cycle).runs[run]? = some r' ∧ r.Step s.now s.gap (s.runHalted run) r' := by
  obtain ⟨first, rest, x, hx, ht⟩ := goOnCycle_turn s run began cycle
  obtain ⟨pool, hp⟩ := hx.state
  rw [hp] at ht
  generalize s.goOnCycle run began cycle = s' at ht ⊢
  have hbegun : (s.begun run first pool).runs[run]? = some r := present
  cases ht with
  | starts | counts => exact ⟨_, withPhase_run hbegun _, .cycles since⟩
  | ends => exact ⟨_, endCycle_run hbegun _ _, .closes since⟩

theorem beginCycle_run [SampleStore σ] (present : s.runs[run]? = some r)
    (since : r.Begins s.now (s.runHalted run) s.now) :
    ∃ r', (s.beginCycle run).runs[run]? = some r' ∧ r.Step s.now s.gap (s.runHalted run) r' := by
  unfold beginCycle
  split
  · exact ⟨_, endCycle_run present _ _, .closes since⟩
  · next targets _ =>
    dsimp only
    cases SampleStore.register (s.chance.wall s.drawn) s.source.name (eligibleOnce targets) s.store with
    | mk registered store =>
      have hlisted : ({ s with store := store, drawn := s.drawn + 1 } : Sampler κ τ σ).runs[run]? = some r := present
      cases registered with
      | error f => exact ⟨_, endCycle_run hlisted _ _, .closes since⟩
      | ok n => exact goOnCycle_run hlisted since _

/-- What a turn of a run makes of it. -/
theorem resumeRun_run [SampleStore σ] (present : s.runs[run]? = some r) :
    ∃ r', (s.resumeRun run).runs[run]? = some r' ∧ r.Step s.now s.gap (s.runHalted run) r' := by
  unfold resumeRun
  rw [present]
  dsimp only
  cases phase : r.phase with
  | starting =>
    dsimp only
    split
    · next h => exact ⟨_, withPhase_run present _, .stops (.inl phase) (Bool.and_eq_true_iff.1 h).2⟩
    · next h =>
      refine beginCycle_run present (.first phase fun hr => ?_)
      rw [hr, Bool.true_and] at h
      exact Bool.eq_false_iff.2 h
  | cycling began cycle => exact goOnCycle_run present (.goesOn phase) cycle
  | pausing wakeAt =>
    dsimp only
    split
    · next h => exact ⟨_, withPhase_run present _, .stops (.inr ⟨wakeAt, phase⟩) h⟩
    · next h =>
      split
      · next due => exact beginCycle_run present (.next phase due (Bool.eq_false_iff.2 h))
      · next late =>
        exact ⟨r, present, .rests (.inr ⟨wakeAt, phase, Nat.lt_of_not_le late, Bool.eq_false_iff.2 h⟩)⟩
  | «over» result => exact ⟨r, present, .rests (.inl ⟨result, phase⟩)⟩

/-! ## Turns of checks -/

/-- What a turn of a check leaves as it is, unless it ends the check. -/
structure Holding (s s' : Sampler κ τ σ) : Prop where
  pool : s'.pool = s.pool
  started : s'.started = s.started
  ids : s'.checks.map (·.id) = s.checks.map (·.id)
  runs : s'.runs = s.runs
  plan : s'.plan = s.plan
  halted : s'.halted = s.halted
  now : s'.now = s.now

theorem withStage_ids (s : Sampler κ τ σ) (id : Nat) (stage : CheckStage τ) :
    (s.withStage id stage).checks.map (·.id) = s.checks.map (·.id) := by
  simp only [withStage, List.map_map]
  refine List.map_congr_left fun c _ => ?_
  simp only [Function.comp_apply]
  split <;> rfl

theorem Holding.refl (s : Sampler κ τ σ) : Holding s s := ⟨rfl, rfl, rfl, rfl, rfl, rfl, rfl⟩

theorem holding_withStage (s : Sampler κ τ σ) (client : κ) (id : Nat) (stage : CheckStage τ) :
    Holding s ({ s with client := client }.withStage id stage) :=
  ⟨rfl, rfl, withStage_ids { s with client := client } id stage, rfl, rfl, rfl, rfl⟩

/-- A check whose sample was answered ends, and any other goes on. -/
theorem Holding.collect {mid : Sampler κ τ σ} (h : Holding s mid) (c : CheckTask τ) (metrics : MetricsReading) :
    Holding s (mid.collect c metrics) ∨
      ∃ last result, Holding s last ∧ mid.collect c metrics = last.endCheck c result := by
  unfold Sampler.collect
  split
  · exact .inl h
  · next stored _ =>
    refine .inr ⟨{ mid with reports := mid.reports ++ [CheckReport.ofSample c.target metrics stored] }, _, ?_, rfl⟩
    exact ⟨h.pool, h.started, h.ids, h.runs, h.plan, h.halted, h.now⟩
  · exact .inr ⟨mid, _, h, rfl⟩

/-- A turn of a check leaves runs and permits as they are, or ends the check. -/
theorem resumeCheck_holding [SwarmClient κ τ] [SampleStore σ] (s : Sampler κ τ σ) (id : Nat) :
    Holding s (s.resumeCheck id) ∨
      ∃ c last result, s.check? id = some c ∧ Holding s last ∧ s.resumeCheck id = last.endCheck c result := by
  unfold resumeCheck
  split
  · exact .inl (.refl s)
  · next c task =>
    split
    · next metrics _ =>
      refine ((Holding.refl s).collect c metrics).imp_right ?_
      rintro ⟨last, result, hlast, he⟩
      exact ⟨c, last, result, task, hlast, he⟩
    · split
      · exact .inl (holding_withStage s ..)
      · next o client' _ =>
        -- The sample goes to the writer before its answer is looked for.
        refine (Holding.collect (s := s) ?_ c _).imp_right ?_
        · exact ⟨rfl, rfl, withStage_ids { s with client := client' } .., rfl, rfl, rfl, rfl⟩
        · rintro ⟨last, result, hlast, he⟩
          exact ⟨c, last, result, task, hlast, he⟩
      · next client' _ =>
        exact .inr ⟨c, { s with client := client' }, .crashed, task, ⟨rfl, rfl, rfl, rfl, rfl, rfl, rfl⟩, rfl⟩

theorem deliver_run {owner : Nat} (result : CheckResult)
    (present : (s.deliver owner result).runs[run]? = some r') :
    ∃ r, s.runs[run]? = some r ∧ r.Like r' := by
  rw [deliver, runs_withRun] at present
  split at present
  · obtain ⟨r, hr, rfl⟩ := Option.map_eq_some_iff.1 present
    refine ⟨r, hr, ?_⟩
    cases phase : r.phase with
    | cycling began cycle => exact ⟨rfl, rfl, id, .inr ⟨began, cycle, _, phase, rfl⟩⟩
    | starting | pausing | «over» => exact .refl r
  · exact ⟨r', present, .refl r'⟩

/-! ## Every move -/

variable [SwarmClient κ τ] [SampleStore σ]

/-- What a move makes of the runs: it leaves them alike but for the one whose turn it is, or adds one. -/
theorem move_run {m : Move σ} (present : (s.move m).runs[run]? = some r') :
    (∃ r, s.runs[run]? = some r ∧
      (r.Like r' ∨ m = .run run ∧ r.Step s.now s.gap (s.runHalted run) r')) ∨
    ∃ repeats, m = .addRun repeats ∧ run = s.runs.length ∧ r' = .start repeats := by
  have same : (s.move m).runs = s.runs → (∃ r, s.runs[run]? = some r ∧
      (r.Like r' ∨ m = .run run ∧ r.Step s.now s.gap (s.runHalted run) r')) := fun hs =>
    ⟨r', hs ▸ present, .inl (.refl r')⟩
  cases m with
  | run id =>
    obtain ⟨first, hran⟩ := (resumeRun_turn s id).ran
    by_cases hid : run = id
    · subst hid
      cases hr : s.runs[run]? with
      | none =>
        rw [move, resumeRun, hr] at present
        cases hr.symm.trans present
      | some r =>
        obtain ⟨r'', hr'', hstep⟩ := resumeRun_run hr
        obtain rfl := Option.some.inj (hr''.symm.trans present)
        exact .inl ⟨r, rfl, .inr ⟨rfl, hstep⟩⟩
    · exact .inl ⟨r', (hran.others run hid) ▸ present, .inl (.refl r')⟩
  | check id =>
    obtain hs | ⟨c, last, result, -, hlast, he⟩ := resumeCheck_holding s id
    · exact .inl (same hs.runs)
    · rw [move, he] at present
      obtain ⟨r, hr, hlike⟩ := deliver_run result present
      exact .inl ⟨r, hlast.runs ▸ hr, .inl hlike⟩
  | cancelRun id =>
    rw [move, cancelRun, runs_withRun] at present
    split at present
    · obtain ⟨r, hr, rfl⟩ := Option.map_eq_some_iff.1 present
      exact .inl ⟨r, hr, .inl ⟨rfl, rfl, fun _ => rfl, .inl rfl⟩⟩
    · exact .inl ⟨r', present, .inl (.refl r')⟩
  | addRun repeats =>
    rw [move, addRun, List.getElem?_append] at present
    split at present
    · exact .inl ⟨r', present, .inl (.refl r')⟩
    · next hge =>
      obtain ⟨hlt, heq⟩ := List.getElem?_eq_some_iff.1 present
      rw [List.length_singleton] at hlt
      refine .inr ⟨repeats, rfl, by omega, ?_⟩
      rw [← heq]
      exact List.getElem_singleton ..
  | work | clock | cancel | relist | register | append => exact .inl (same rfl)

theorem move_plan (s : Sampler κ τ σ) (m : Move σ) : (s.move m).plan = s.plan := by
  cases m with
  | run id =>
    obtain ⟨first, hran⟩ := (resumeRun_turn s id).ran
    exact hran.plan
  | check id =>
    obtain hs | ⟨c, last, result, -, hlast, he⟩ := resumeCheck_holding s id
    · exact hs.plan
    · rw [move, he]
      exact hlast.plan
  | work | clock | cancel | cancelRun | addRun | relist | register | append => rfl

end Sampler

end SwarmSampler
