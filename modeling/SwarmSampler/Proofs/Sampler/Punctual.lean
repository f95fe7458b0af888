import SwarmSampler.Proofs.Sampler.Records

/-
A clock that does not run ahead of the runs: it never passes the instant at which
a pause is over before the run has had its turn. The program's own order of turns
goes by such a clock, whatever its operator does, because time passes only when
no task can go on, and then no further than to the next instant something waits
for.
-/

namespace SwarmSampler

namespace Run

variable {r r' : Run} {now gap wakeAt : Nat} {cancelled : Bool}

/-- Only a run that repeats begins a pause, and a pause lasts as long as it should. -/
theorem Step.pausing (h : r.Step now gap cancelled r') (pauses : r'.phase = .pausing wakeAt) :
    r.phase = .pausing wakeAt ∨ r.repeats = true ∧ wakeAt = now + gap := by
  cases h with
  | rests => exact .inl pauses
  | stops | cycles => cases pauses
  | @closes began result =>
    refine .inr ⟨?_, ?_⟩
    · cases hr : r.repeats with
      | true => rfl
      | false =>
        have hp : r.phaseAfter cancelled (now + gap) result = .pausing wakeAt := pauses
        cases result <;> simp [phaseAfter, hr] at hp
    · obtain ⟨e, he⟩ | ⟨-, he⟩ := r.phaseAfter_cases cancelled (now + gap) result
      · cases he.symm.trans pauses
      · exact (RunPhase.pausing.inj (he.symm.trans pauses)).symm

end Run

namespace Sampler

variable {κ τ σ : Type} {s s' s'' : Sampler κ τ σ} {m : Move σ}

theorem runDue?_eq_some {run wakeAt : Nat} :
    s.runDue? run = some wakeAt ↔ ∃ r, s.runs[run]? = some r ∧ r.phase = .pausing wakeAt := by
  unfold runDue?
  split
  · next h =>
    rw [h]
    exact ⟨fun hd => ⟨_, rfl, congrArg _ (Option.some.inj hd)⟩, fun ⟨r, hr, hp⟩ =>
      congrArg some (RunPhase.pausing.inj ((congrArg Run.phase (Option.some.inj hr)).trans hp))⟩
  · next hne =>
    refine ⟨nofun, fun ⟨r, hr, hp⟩ => ?_⟩
    obtain ⟨repeats, halted, phase, passes⟩ := r
    obtain rfl : phase = .pausing wakeAt := hp
    exact absurd hr (hne _ _ _ _)

/-- What is done to a sampler from outside, other than starting a run. -/
def Move.isPlain : Move σ → Bool
  | .cancel | .cancelRun _ | .relist _ | .register .. | .append .. => true
  | _ => false

/-- No run has been late for the end of its pause. -/
def Unmissed (s : Sampler κ τ σ) : Prop := ∀ run wakeAt, s.runDue? run = some wakeAt → s.now ≤ wakeAt

/-- A move that does not take the clock past the end of a pause. -/
def Timely (s : Sampler κ τ σ) (m : Move σ) : Prop :=
  ∀ instant, m = .clock instant → ∀ run wakeAt, s.runDue? run = some wakeAt → instant ≤ wakeAt

variable [SwarmClient κ τ] [SampleStore σ]

/-- Moves by which the clock never passes the end of a pause. -/
inductive Punctual : Sampler κ τ σ → List (Move σ) → Prop
  | none (s : Sampler κ τ σ) : Punctual s []
  | more {s : Sampler κ τ σ} {m : Move σ} {ms : List (Move σ)} (timely : s.Timely m)
      (rest : Punctual (s.move m) ms) : Punctual s (m :: ms)

theorem Punctual.append {ms later : List (Move σ)} (h : Punctual s ms) (h' : Punctual (s.moveAll ms) later) :
    Punctual s (ms ++ later) := by
  induction h with
  | none => exact h'
  | more timely _ ih => exact .more timely (ih h')

omit [SwarmClient κ τ] [SampleStore σ] in
theorem timely_of_turn (turn : m.isTurn = true) : s.Timely m := by
  rintro instant rfl
  cases turn

theorem punctual_turns {ms : List (Move σ)} (turns : ∀ m ∈ ms, m.isTurn = true) : Punctual s ms := by
  induction ms generalizing s with
  | nil => exact .none s
  | cons m ms ih =>
    obtain ⟨turn, turns⟩ := List.forall_mem_cons.1 turns
    exact .more (timely_of_turn turn) (ih turns)

theorem move_now (other : ∀ instant, m ≠ .clock instant) : (s.move m).now = s.now := by
  cases m with
  | run id =>
    obtain ⟨first, hran⟩ := (resumeRun_turn s id).ran
    rw [move, hran.same]
  | check id =>
    obtain hs | ⟨c, last, result, -, hlast, he⟩ := resumeCheck_holding s id
    · exact hs.now
    · rw [move, he]
      exact hlast.now
  | clock instant => exact absurd rfl (other instant)
  | work | cancel | cancelRun | addRun | relist | register | append => rfl

/-- A timely move makes no run late. -/
theorem Unmissed.move (h : s.Unmissed) (timely : s.Timely m) : (s.move m).Unmissed := by
  intro run wakeAt due
  obtain ⟨r', hr', hp'⟩ := runDue?_eq_some.1 due
  -- A pause that had begun before is not over yet, and a new one has only begun.
  have before : s.runDue? run = some wakeAt → (s.move m).now ≤ wakeAt := fun hdue => by
    by_cases hm : ∃ instant, m = .clock instant
    · obtain ⟨instant, rfl⟩ := hm
      exact timely instant rfl run wakeAt hdue
    · rw [move_now fun instant hi => hm ⟨instant, hi⟩]
      exact h run wakeAt hdue
  obtain ⟨r, hr, hlike | ⟨rfl, hstep⟩⟩ | ⟨repeats, -, -, rfl⟩ := move_run hr'
  · exact before (runDue?_eq_some.2 ⟨r, hr, hlike.pausing_iff.1 hp'⟩)
  · obtain hp | ⟨-, rfl⟩ := hstep.pausing hp'
    · exact before (runDue?_eq_some.2 ⟨r, hr, hp⟩)
    · rw [move_now fun _ hm => by cases hm]
      exact Nat.le_add_right ..
  · cases hp'

/-- A state that punctual moves lead to. -/
def Promptly (s s' : Sampler κ τ σ) : Prop := ∃ ms, Punctual s ms ∧ s' = s.moveAll ms

theorem Promptly.refl (s : Sampler κ τ σ) : Promptly s s := ⟨[], .none s, rfl⟩

theorem Promptly.one (timely : s.Timely m) : Promptly s (s.move m) := ⟨[m], .more timely (.none _), rfl⟩

theorem Promptly.trans (h : Promptly s s') (h' : Promptly s' s'') : Promptly s s'' := by
  obtain ⟨ms, hms, rfl⟩ := h
  obtain ⟨later, hlater, rfl⟩ := h'
  exact ⟨ms ++ later, hms.append hlater, (moveAll_append s ms later).symm⟩

/-- What a turn of a task makes of the runs. -/
theorem resume_run {t : Task} {run : Nat} {r' : Run} (present : (s.resume t).runs[run]? = some r') :
    ∃ r, s.runs[run]? = some r ∧ (r.Like r' ∨ t = .run run ∧ r.Step s.now s.gap (s.runHalted run) r') := by
  have of_move : ∀ m : Move σ, s.resume t = s.move m → (∀ repeats, m ≠ .addRun repeats) →
      (m = .run run → t = .run run) →
      ∃ r, s.runs[run]? = some r ∧ (r.Like r' ∨ t = .run run ∧ r.Step s.now s.gap (s.runHalted run) r') := by
    intro m hm other own
    obtain ⟨r, hr, hlike⟩ | ⟨repeats, rfl, -⟩ := move_run (hm ▸ present)
    · exact ⟨r, hr, hlike.imp_right fun h => ⟨own h.1, h.2⟩⟩
    · exact absurd rfl (other repeats)
  cases t with
  | run id => exact of_move (.run id) rfl nofun fun h => by rw [Move.run.inj h]
  | check id => exact of_move (.check id) rfl nofun nofun
  | writer => exact ⟨r', present, .inl (.refl r')⟩

end Sampler

/-! ## The program's own order of turns -/

namespace Schedule

open Sampler

variable {κ τ σ : Type} [SwarmClient κ τ] [SampleStore σ] {s s' : Schedule κ τ σ}

/-- Every run that repeats and is not over is among some tasks, and the operator's own run does not
repeat. -/
structure Attended (s : Schedule κ τ σ) (tasks : List Task) : Prop where
  writes : s.sampler.Writes
  listed : ∀ (run : Nat) (r : Run), s.sampler.runs[run]? = some r → r.repeats = true →
    (∀ e, r.phase ≠ .over e) → .run run ∈ tasks
  own : ∀ (run : Nat) (r : Run), s.own = some run → s.sampler.runs[run]? = some r → r.repeats = false
  pauses : ∀ (run wakeAt : Nat) (r : Run), s.sampler.runs[run]? = some r → r.phase = .pausing wakeAt →
    r.repeats = true

/-- The tasks that are to have turns. -/
def tasks (s : Schedule κ τ σ) : List Task := s.ready ++ s.waiting

omit [SwarmClient κ τ] [SampleStore σ] in
theorem mem_tasks_wake {t : Task} : t ∈ s.wake.tasks ↔ t ∈ s.tasks := by
  simp only [tasks, wake, List.partition_eq_filter_filter, List.mem_append, List.mem_filter,
    Function.comp_apply]
  cases s.sampler.awake t <;> simp [or_comm]

omit [SwarmClient κ τ] [SampleStore σ] in
theorem Attended.mono {tasks tasks' : List Task} (h : s.Attended tasks) (more : ∀ t ∈ tasks, t ∈ tasks') :
    s.Attended tasks' :=
  ⟨h.writes, fun run r hr repeats alive => more _ (h.listed run r hr repeats alive), h.own, h.pauses⟩

omit [SwarmClient κ τ] [SampleStore σ] in
/-- Whatever leaves the runs as they are leaves them attended to. -/
theorem Attended.congr {tasks : List Task} (h : s.Attended tasks) (writes : s'.sampler.Writes)
    (runs : s'.sampler.runs = s.sampler.runs) (own : s'.own = s.own) : s'.Attended tasks :=
  ⟨writes, fun run r hr => h.listed run r (runs ▸ hr), fun run r ho hr => h.own run r (own ▸ ho) (runs ▸ hr),
    fun run wakeAt r hr => h.pauses run wakeAt r (runs ▸ hr)⟩

omit [SwarmClient κ τ] [SampleStore σ] in
theorem Attended.wake (h : s.Attended s.tasks) : s.wake.Attended s.wake.tasks :=
  ⟨h.writes, fun run r hr repeats alive => mem_tasks_wake.2 (h.listed run r hr repeats alive), h.own, h.pauses⟩

omit [SwarmClient κ τ] [SampleStore σ] in
theorem alive_of_run {s : Sampler κ τ σ} {run : Nat} {r : Run} (hr : s.runs[run]? = some r)
    (alive : ∀ e, r.phase ≠ .over e) : s.alive (.run run) = true := by
  obtain ⟨repeats, halted, phase, passes⟩ := r
  simp only [Sampler.alive, hr]
  cases phase with
  | «over» e => exact absurd rfl (alive e)
  | starting | cycling | pausing => rfl

omit [SwarmClient κ τ] [SampleStore σ] in
/-- A run that repeats is not the operator's own. -/
theorem Attended.not_own {tasks : List Task} {run : Nat} {r : Run} (h : s.Attended tasks)
    (present : s.sampler.runs[run]? = some r) (repeats : r.repeats = true) : s.isOwn (.run run) = false := by
  cases ho : s.own with
  | none => rw [isOwn, ho, Option.any_none]
  | some own =>
    have hne : run ≠ own := by
      rintro rfl
      exact Bool.false_ne_true ((h.own run r ho present).symm.trans repeats)
    rw [isOwn, ho, Option.any_some]
    simpa using hne

/-- A run that has had its turn is still attended to, unless it is over. -/
theorem Attended.give {t : Task} (h : s.Attended (t :: s.tasks)) : (s.give t).Attended (s.give t).tasks := by
  have hwrites : (s.sampler.resume t).Writes := by
    obtain ⟨ms, -, hs⟩ := resume_moves h.writes t
    exact Reaches.writes ⟨ms, hs⟩ h.writes
  have kept : ∀ {r r' : Run} {run : Nat}, s.sampler.runs[run]? = some r →
      (r.Like r' ∨ t = .run run ∧ r.Step s.sampler.now s.sampler.gap (s.sampler.runHalted run) r') →
      r'.repeats = r.repeats := fun _ hlike => hlike.elim (·.repeats) (·.2.repeats)
  refine ⟨hwrites, fun run r' hr' repeats alive => ?_, fun run r' ho hr' => ?_, fun run wakeAt r' hr' hp => ?_⟩
  all_goals
    have hr' : (s.sampler.resume t).runs[run]? = some r' := hr'
    obtain ⟨r, hr, hlike⟩ := resume_run hr'
    have hkept := kept hr hlike
  · have halive : ∀ e, r.phase ≠ .over e := fun e he => by
      obtain hl | ⟨-, hstep⟩ := hlike
      · exact alive e (hl.over_iff.2 he)
      · exact alive e (hstep.of_over he ▸ he)
    have hrepeats := hkept.symm.trans repeats
    refine mem_tasks_wake.2 ?_
    rcases List.mem_cons.1 (h.listed run r hr hrepeats halive) with rfl | ht
    · -- The run itself has had the turn: it waits again, since it is not over.
      simp only [tasks, alive_of_run hr' alive, h.not_own hr hrepeats, Bool.not_false, Bool.and_self, if_true]
      exact List.mem_append_right _ (List.mem_append_right _ List.mem_cons_self)
    · rcases List.mem_append.1 ht with ht | ht
      · exact List.mem_append_left _ (List.mem_append_left _ ht)
      · refine List.mem_append_right _ ?_
        dsimp only
        split
        · exact List.mem_append_left _ ht
        · exact ht
  · rw [hkept]
    exact h.own run r ho hr
  · rw [hkept]
    obtain hl | ⟨-, hstep⟩ := hlike
    · exact h.pauses run wakeAt r hr (hl.pausing_iff.1 hp)
    · obtain hp | ⟨repeats, -⟩ := hstep.pausing hp
      · exact h.pauses run wakeAt r hr hp
      · exact repeats

/-- A schedule that goes on from another keeps runs attended to and the clock punctual. -/
structure Onward (s s' : Schedule κ τ σ) : Prop where
  attended : s'.Attended s'.tasks
  promptly : Promptly s.sampler s'.sampler
  own : s'.own = s.own

theorem Onward.trans {s'' : Schedule κ τ σ} (h : Onward s s') (h' : Onward s' s'') : Onward s s'' :=
  ⟨h'.attended, h.promptly.trans h'.promptly, h'.own.trans h.own⟩

theorem onward_refl (h : s.Attended s.tasks) : Onward s s := ⟨h, .refl _, rfl⟩

theorem onward_give {t : Task} (h : s.Attended (t :: s.tasks)) : Onward s (s.give t) := by
  obtain ⟨ms, turns, hs⟩ := resume_moves h.writes t
  exact ⟨h.give, ⟨ms, punctual_turns turns, hs⟩, rfl⟩

/-- The clock jumps no further than to the next end of a pause, since every run that pauses waits. -/
theorem onward_jump {instant : Nat} {horizon : Option Nat} (h : s.Attended s.tasks) (idle : s.ready = [])
    (next : (s.dues ++ horizon.toList).min? = some instant) : Onward s (s.jump instant) := by
  have timely : s.sampler.Timely (.clock instant : Move σ) := by
    intro i hi run wakeAt due
    obtain rfl := Move.clock.inj hi
    obtain ⟨r, hr, hp⟩ := runDue?_eq_some.1 due
    have hlisted := h.listed run r hr (h.pauses run wakeAt r hr hp) fun e he => by cases hp.symm.trans he
    rw [tasks, idle, List.nil_append] at hlisted
    refine (List.min?_eq_some_iff.1 next).2 wakeAt (List.mem_append_left _ ?_)
    exact List.mem_append_left _ (List.mem_append_left _ (List.mem_filterMap.2 ⟨_, hlisted, due⟩))
  have hclock : Promptly s.sampler (s.sampler.move (.clock instant)) := .one timely
  unfold jump
  dsimp only
  split
  · refine ⟨Attended.wake ?_, hclock.trans (.one (m := .cancel) nofun), rfl⟩
    exact h.congr h.writes rfl rfl
  · refine ⟨Attended.wake ?_, hclock, rfl⟩
    exact h.congr h.writes rfl rfl

theorem onward_step {horizon : Option Nat} (h : s.Attended s.tasks) (hs : s.step horizon = some s') :
    Onward s s' := by
  unfold step at hs
  split at hs
  · next t rest ready =>
    cases hs
    have htasks : t :: ({ s with ready := rest } : Schedule κ τ σ).tasks = s.tasks := by
      rw [tasks, tasks, ready]
      rfl
    have hrest : Attended { s with ready := rest } (t :: ({ s with ready := rest } : Schedule κ τ σ).tasks) :=
      htasks ▸ h.congr h.writes rfl rfl
    have hgive := onward_give hrest
    exact ⟨hgive.attended, hgive.promptly, hgive.own⟩
  · next ready =>
    split at hs
    · cases hs
      exact onward_give (h.mono fun t ht => List.mem_cons_of_mem _ ht)
    · obtain ⟨instant, hnext, rfl⟩ := Option.map_eq_some_iff.1 hs
      exact onward_jump h ready hnext

theorem onward_goUntil (done : Schedule κ τ σ → Bool) (horizon : Option Nat) (steps : Nat) :
    ∀ {s : Schedule κ τ σ}, s.Attended s.tasks → Onward s (s.goUntil done horizon steps) := by
  induction steps with
  | zero => exact fun h => onward_refl h
  | succ steps ih =>
    intro s h
    unfold goUntil
    split
    · exact onward_refl h
    · split
      · next s' hs =>
        have hstep := onward_step h hs
        exact hstep.trans (ih hstep.attended)
      · exact onward_refl h

theorem onward_wait (h : s.Attended s.tasks) (run : Nat) (horizon : Option Nat) :
    Onward s (s.wait run horizon) := by
  unfold wait
  split
  · exact onward_refl h
  · exact onward_goUntil _ _ _ h

theorem onward_sleep (h : s.Attended s.tasks) (nanos : Nat) : Onward s (s.sleep nanos) := onward_goUntil _ _ _ h

/-- What the operator does that leaves tasks and runs where they are lets them go on. -/
theorem onward_change {m : Move σ} (h : s.Attended s.tasks) (plain : m.isPlain = true) :
    Onward s (s.change (·.move m)) := by
  have timely : s.sampler.Timely m := by
    rintro instant rfl
    cases plain
  refine ⟨?_, .one timely, rfl⟩
  have hmoved : Attended { s with sampler := s.sampler.move m } s.tasks := by
    have like : ∀ {run : Nat} {r' : Run}, (s.sampler.move m).runs[run]? = some r' →
        ∃ r, s.sampler.runs[run]? = some r ∧ r.Like r' := by
      intro run r' hr'
      obtain ⟨r, hr, hl | ⟨rfl, -⟩⟩ | ⟨repeats, rfl, -⟩ := move_run hr'
      · exact ⟨r, hr, hl⟩
      · cases plain
      · cases plain
    refine ⟨move_writes h.writes m, fun run r' hr' repeats alive => ?_, fun run r' ho hr' => ?_,
      fun run wakeAt r' hr' hp => ?_⟩
    all_goals obtain ⟨r, hr, hl⟩ := like hr'
    · exact h.listed run r hr (hl.repeats ▸ repeats) fun e he => alive e (hl.over_iff.2 he)
    · exact hl.repeats ▸ h.own run r ho hr
    · exact hl.repeats ▸ h.pauses run wakeAt r hr (hl.pausing_iff.1 hp)
  exact hmoved.wake

theorem onward_cancelAfter (h : s.Attended s.tasks) (nanos : Nat) : Onward s (s.cancelAfter nanos) := by
  unfold cancelAfter
  split
  · exact onward_change (m := .cancel) h rfl
  · exact ⟨h.congr h.writes rfl rfl, .refl _, rfl⟩

theorem onward_stop (h : s.Attended s.tasks) (run : Nat) : Onward s (s.stop run) := by
  have hcancel : Onward s (s.change (·.cancelRun run)) := onward_change (m := .cancelRun run) h rfl
  exact hcancel.trans (onward_wait hcancel.attended run none)

omit [SwarmClient κ τ] [SampleStore σ] in
/-- A new run is attended to if it repeats, and may be the operator's own if it does not. -/
theorem Attended.addRun (h : s.Attended s.tasks) {repeats : Bool} {own : Option Nat}
    (mine : ∀ run, own = some run → run = s.sampler.runs.length ∧ repeats = false) {tasks : List Task}
    (more : ∀ t ∈ s.tasks, t ∈ tasks) (listed : repeats = true → .run s.sampler.runs.length ∈ tasks) :
    Attended { s with sampler := s.sampler.addRun repeats, own := own } tasks := by
  have cases_run : ∀ {run : Nat} {r : Run}, (s.sampler.addRun repeats).runs[run]? = some r →
      s.sampler.runs[run]? = some r ∧ run ≠ s.sampler.runs.length ∨
        run = s.sampler.runs.length ∧ r = .start repeats := by
    intro run r hr
    rw [Sampler.addRun, List.getElem?_append] at hr
    split at hr
    · next hlt => exact .inl ⟨hr, Nat.ne_of_lt hlt⟩
    · obtain ⟨hlt, heq⟩ := List.getElem?_eq_some_iff.1 hr
      rw [List.length_singleton] at hlt
      exact .inr ⟨by omega, heq.symm.trans (List.getElem_singleton ..)⟩
  refine ⟨h.writes, fun run r hr repeats alive => ?_, fun run r ho hr => ?_, fun run wakeAt r hr hp => ?_⟩
  all_goals obtain ⟨hr, hne⟩ | ⟨rfl, rfl⟩ := cases_run hr
  · exact more _ (h.listed run r hr repeats alive)
  · exact listed repeats
  · exact absurd (mine run ho).1 hne
  · exact (mine _ ho).2
  · exact h.pauses run wakeAt r hr hp
  · cases hp

theorem onward_start (h : s.Attended s.tasks) (idle : s.own = none) : Onward s s.start.2 := by
  refine ⟨?_, .one (m := .addRun true) nofun, rfl⟩
  have hadded : Attended { s with sampler := s.sampler.addRun true, own := none } s.start.2.tasks :=
    h.addRun (fun _ ho => absurd ho (Option.some_ne_none _).symm) (fun t ht => ?_) fun _ => ?_
  · exact hadded.congr hadded.writes rfl idle
  · rcases List.mem_append.1 ht with ht | ht
    · exact List.mem_append_left _ (List.mem_append_left _ ht)
    · exact List.mem_append_right _ ht
  · exact List.mem_append_left _ (List.mem_append_right _ List.mem_cons_self)

theorem onward_cycle (h : s.Attended s.tasks) (idle : s.own = none) : Onward s s.cycle.2 := by
  let run := s.sampler.runs.length
  let added : Schedule κ τ σ := { s with sampler := s.sampler.addRun false, own := some run }
  have hadded : added.Attended (.run run :: added.tasks) :=
    h.addRun (fun own ho => ⟨(Option.some.inj ho).symm, rfl⟩) (fun t ht => List.mem_cons_of_mem _ ht) nofun
  have hgive := onward_give hadded
  have hrun := hgive.trans (onward_goUntil (fun s => (s.sampler.result? run).isSome) none patience hgive.attended)
  have hlast := hrun.attended
  refine ⟨⟨hlast.writes, hlast.listed, nofun, hlast.pauses⟩, ?_, idle.symm⟩
  exact (Promptly.one (m := .addRun false) nofun).trans hrun.promptly

theorem onward_runUntilShutdown (h : s.Attended s.tasks) (idle : s.own = none) (interruptAt : Option Nat) :
    Onward s (s.runUntilShutdown interruptAt).2 := by
  have hstart := onward_start h idle
  have hwait := hstart.trans (onward_wait hstart.attended s.start.1 interruptAt)
  simp only [runUntilShutdown]
  split
  · exact hwait
  · exact hwait.trans (onward_stop hwait.attended _)

/-- What an operator may make of a sampler, going by the program's own order of turns. -/
inductive Operated (s : Sampler κ τ σ) : Schedule κ τ σ → Prop
  | opened : Operated s (ofSampler s)
  | start {t : Schedule κ τ σ} (h : Operated s t) : Operated s t.start.2
  | cycle {t : Schedule κ τ σ} (h : Operated s t) : Operated s t.cycle.2
  | sleep {t : Schedule κ τ σ} (h : Operated s t) (nanos : Nat) : Operated s (t.sleep nanos)
  | wait {t : Schedule κ τ σ} (h : Operated s t) (run : Nat) (horizon : Option Nat) :
      Operated s (t.wait run horizon)
  | stop {t : Schedule κ τ σ} (h : Operated s t) (run : Nat) : Operated s (t.stop run)
  | shutdown {t : Schedule κ τ σ} (h : Operated s t) (interruptAt : Option Nat) :
      Operated s (t.runUntilShutdown interruptAt).2
  | cancelAfter {t : Schedule κ τ σ} (h : Operated s t) (nanos : Nat) : Operated s (t.cancelAfter nanos)
  | change {t : Schedule κ τ σ} {m : Move σ} (h : Operated s t) (plain : m.isPlain = true) :
      Operated s (t.change (·.move m))

/-- **The program's own order of turns goes by a punctual clock.** -/
theorem Operated.onward {s : Sampler κ τ σ} (writes : s.Writes) (new : s.runs = []) {t : Schedule κ τ σ}
    (h : Operated s t) : Onward (ofSampler s) t := by
  induction h with
  | opened =>
    have none_run : ∀ {run : Nat} {r : Run}, (ofSampler s).sampler.runs[run]? ≠ some r := fun {run r} hr => by
      rw [show (ofSampler s).sampler.runs = [] from new] at hr
      cases hr
    exact onward_refl ⟨writes, fun _ _ hr => absurd hr none_run, nofun, fun _ _ _ hr => absurd hr none_run⟩
  | start _ ih => exact ih.trans (onward_start ih.attended ih.own)
  | cycle _ ih => exact ih.trans (onward_cycle ih.attended ih.own)
  | sleep _ nanos ih => exact ih.trans (onward_sleep ih.attended nanos)
  | wait _ run horizon ih => exact ih.trans (onward_wait ih.attended run horizon)
  | stop _ run ih => exact ih.trans (onward_stop ih.attended run)
  | shutdown _ interruptAt ih => exact ih.trans (onward_runUntilShutdown ih.attended ih.own interruptAt)
  | cancelAfter _ nanos ih => exact ih.trans (onward_cancelAfter ih.attended nanos)
  | change _ plain ih => exact ih.trans (onward_change ih.attended plain)

end Schedule

end SwarmSampler
