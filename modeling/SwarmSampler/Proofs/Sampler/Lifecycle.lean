import SwarmSampler.Proofs.Sampler.Punctual
import SwarmSampler.Proofs.Sampler.Stopping

/-
The life of a run that was started: cycle after cycle, each a pause after the one
before it has ended, until a cycle fails for good or the run is cancelled. A
cycle that fails otherwise has checked nothing, and the run goes on. What cancels
one run cancels no other; but once all runs are cancelled, a run that is started
ends without a cycle.
-/

namespace SwarmSampler

/-- The failure that ends the run with its cycle. -/
def Pass.fatal? (p : Pass) : Option Failure :=
  match p.result with
  | .error f => if f.fatal then some f else none
  | .ok _ => none

theorem Pass.fatal?_eq_some {p : Pass} {f : Failure} :
    p.fatal? = some f ↔ p.result = .error f ∧ f.fatal = true := by
  unfold fatal?
  cases p.result with
  | ok summary => exact ⟨nofun, fun h => nomatch h.1⟩
  | error g =>
    simp only [Option.ite_none_right_eq_some, Option.some.injEq, Except.error.injEq]
    exact ⟨fun ⟨hg, he⟩ => ⟨he, he ▸ hg⟩, fun ⟨he, hf⟩ => ⟨he ▸ hf, he⟩⟩

/-! ## Where a run stands -/

namespace Run

/-- Between two cycles that follow each other there is a pause. Whether it may take longer than it should is
left to a relation. -/
def Spaced (rel : Nat → Nat → Prop) (gap : Nat) (passes : List Pass) : Prop :=
  ∀ k p q, passes[k]? = some p → passes[k + 1]? = some q → rel (p.ended + gap) q.began

/-- A cycle follows those that the run has been through. -/
def Follows (rel : Nat → Nat → Prop) (gap : Nat) (passes : List Pass) (began : Nat) : Prop :=
  ∀ p, passes.getLast? = some p → rel (p.ended + gap) began

/-- What a run that repeats has been through, by what it waits for: only the last cycle can have failed for
good, and then the run is over with that failure; else it is over only if it was cancelled. -/
inductive Stands (rel : Nat → Nat → Prop) (gap : Nat) (cancelled : Bool) : List Pass → RunPhase → Prop
  | starting : Stands rel gap cancelled [] .starting
  | cycling {passes : List Pass} {began : Nat} {cycle : Cycle} (mild : ∀ p ∈ passes, p.fatal? = none)
      (follows : Follows rel gap passes began) : Stands rel gap cancelled passes (.cycling began cycle)
  | pausing {earlier : List Pass} {p : Pass} (mild : ∀ q ∈ earlier ++ [p], q.fatal? = none) :
      Stands rel gap cancelled (earlier ++ [p]) (.pausing (p.ended + gap))
  | failed {earlier : List Pass} {p : Pass} {f : Failure} (mild : ∀ q ∈ earlier, q.fatal? = none)
      (fatal : p.fatal? = some f) : Stands rel gap cancelled (earlier ++ [p]) (.over (.error f))
  | stopped {passes : List Pass} (mild : ∀ p ∈ passes, p.fatal? = none) (halted : cancelled = true) :
      Stands rel gap cancelled passes (.over (.ok ()))

variable {rel : Nat → Nat → Prop} {gap now began : Nat} {cancelled : Bool} {r r' : Run} {passes : List Pass}
  {phase : RunPhase}

theorem Spaced.concat (h : Spaced rel gap passes) {p : Pass} (follows : Follows rel gap passes p.began) :
    Spaced rel gap (passes ++ [p]) := by
  intro k q q' hq hq'
  rcases Nat.lt_trichotomy (k + 1) passes.length with hk | hk | hk
  · rw [List.getElem?_append_left hk] at hq'
    rw [List.getElem?_append_left (Nat.lt_of_succ_lt hk)] at hq
    exact h k q q' hq hq'
  · rw [hk, List.getElem?_concat_length, Option.some.injEq] at hq'
    rw [List.getElem?_append_left (by omega)] at hq
    subst hq'
    refine follows q ?_
    rw [List.getLast?_eq_getElem?, ← hq]
    congr 1
    omega
  · have hlt := (List.getElem?_eq_some_iff.1 hq').1
    rw [List.length_append, List.length_singleton] at hlt
    omega

theorem Stands.cancel (h : Stands rel gap cancelled passes phase) {cancelled' : Bool}
    (mono : cancelled = true → cancelled' = true) : Stands rel gap cancelled' passes phase := by
  cases h with
  | starting => exact .starting
  | cycling mild follows => exact .cycling mild follows
  | pausing mild => exact .pausing mild
  | failed mild fatal => exact .failed mild fatal
  | stopped mild halted => exact .stopped mild (mono halted)

/-- A run that begins a cycle or is in one has not failed, and the cycle follows the others. -/
theorem Stands.begins (h : Stands rel gap cancelled r.passes r.phase) (begins : r.Begins now cancelled began)
    (ontime : ∀ wakeAt, r.phase = .pausing wakeAt → wakeAt ≤ now → rel wakeAt now) :
    (∀ p ∈ r.passes, p.fatal? = none) ∧ Follows rel gap r.passes began := by
  obtain ⟨repeats, halted, phase, passes⟩ := r
  cases begins with
  | first waits =>
    obtain rfl : phase = .starting := waits
    cases h
    exact ⟨nofun, nofun⟩
  | @next wakeAt waits due =>
    obtain rfl : phase = .pausing wakeAt := waits
    cases h with
    | @pausing earlier p mild =>
      refine ⟨mild, fun q hq => ?_⟩
      obtain rfl : p = q := Option.some.inj (List.getLast?_concat.symm.trans hq)
      exact ontime _ rfl due
  | goesOn waits =>
    obtain rfl : phase = .cycling _ _ := waits
    cases h with
    | cycling mild follows => exact ⟨mild, follows⟩

/-- After a cycle that follows others a run that repeats stands somewhere. -/
theorem stands_phaseAfter (repeats : r.repeats = true) (mild : ∀ p ∈ passes, p.fatal? = none)
    (result : Except Failure CycleSummary) :
    Stands rel gap cancelled (passes ++ [⟨began, now, result⟩]) (r.phaseAfter cancelled (now + gap) result) := by
  have milder : ∀ {p : Pass}, p.fatal? = none → ∀ q ∈ passes ++ [p], q.fatal? = none := fun hp q hq =>
    (List.mem_append.1 hq).elim (mild q) fun hq => List.mem_singleton.1 hq ▸ hp
  have goesOn : ∀ {phase}, (⟨began, now, result⟩ : Pass).fatal? = none →
      (phase = if cancelled then .over (.ok ()) else .pausing (now + gap)) →
      Stands rel gap cancelled (passes ++ [⟨began, now, result⟩]) phase := by
    rintro _ hnone rfl
    split
    · next h => exact .stopped (milder hnone) h
    · exact .pausing (milder hnone)
  cases result with
  | error f =>
    cases hf : f.fatal with
    | true =>
      have hphase : r.phaseAfter cancelled (now + gap) (.error f) = .over (.error f) := by simp [phaseAfter, hf]
      exact hphase ▸ .failed mild (Pass.fatal?_eq_some.2 ⟨rfl, hf⟩)
    | false => exact goesOn (by simp [Pass.fatal?, hf]) (by simp [phaseAfter, repeats, hf])
  | ok summary => exact goesOn rfl (by simp [phaseAfter, repeats])

/-- Pauses lie between the cycles that a run has been through, and before the present one. -/
structure Paced (rel : Nat → Nat → Prop) (gap : Nat) (r : Run) : Prop where
  spaced : Spaced rel gap r.passes
  follows : ∀ began cycle, r.phase = .cycling began cycle → Follows rel gap r.passes began

/-- How a run that repeats has gone. -/
structure Steady (rel : Nat → Nat → Prop) (gap : Nat) (cancelled : Bool) (r : Run) : Prop where
  spaced : Spaced rel gap r.passes
  stands : Stands rel gap cancelled r.passes r.phase

theorem steady_start (repeats : Bool) : Steady rel gap cancelled (.start repeats) where
  spaced _ _ _ h := nomatch h
  stands := .starting

theorem Steady.like (h : Steady rel gap cancelled r) (same : r.Like r') {cancelled' : Bool}
    (mono : cancelled = true → cancelled' = true) : Steady rel gap cancelled' r' := by
  have hstands := h.stands.cancel mono
  refine ⟨same.passes ▸ h.spaced, ?_⟩
  rw [same.passes]
  obtain hp | ⟨began, cycle, cycle', hp, hp'⟩ := same.phase
  · exact hp ▸ hstands
  · rw [hp] at hstands
    rw [hp']
    generalize r.passes = passes at hstands
    cases hstands with
    | cycling mild follows => exact .cycling mild follows

/-- A turn of the run keeps it steady. -/
theorem Steady.step (h : Steady rel gap cancelled r) (repeats : r.repeats = true)
    (step : r.Step now gap cancelled r')
    (ontime : ∀ wakeAt, r.phase = .pausing wakeAt → wakeAt ≤ now → rel wakeAt now) :
    Steady rel gap cancelled r' := by
  obtain ⟨spaced, stands⟩ := h
  cases step with
  | rests => exact ⟨spaced, stands⟩
  | stops waits halted =>
    obtain ⟨repeats, _, phase, passes⟩ := r
    refine ⟨spaced, .stopped ?_ halted⟩
    obtain waits | ⟨wakeAt, waits⟩ := waits
    · obtain rfl : phase = .starting := waits
      cases stands
      exact nofun
    · obtain rfl : phase = .pausing wakeAt := waits
      cases stands with
      | pausing mild => exact mild
  | cycles since =>
    obtain ⟨mild, follows⟩ := stands.begins since ontime
    exact ⟨spaced, .cycling mild follows⟩
  | closes since =>
    obtain ⟨mild, follows⟩ := stands.begins since ontime
    exact ⟨spaced.concat follows, stands_phaseAfter repeats mild _⟩

theorem Steady.paced (h : Steady rel gap cancelled r) : Paced rel gap r := by
  refine ⟨h.spaced, fun began cycle hp => ?_⟩
  have hstands := h.stands
  rw [hp] at hstands
  generalize r.passes = passes at hstands ⊢
  cases hstands with
  | cycling mild follows => exact follows

theorem Steady.pausing (h : Steady rel gap cancelled r) {wakeAt : Nat} (hp : r.phase = .pausing wakeAt) :
    ∃ p, r.passes.getLast? = some p ∧ wakeAt = p.ended + gap := by
  have hstands := h.stands
  rw [hp] at hstands
  generalize r.passes = passes at hstands ⊢
  cases hstands with
  | @pausing earlier p mild => exact ⟨p, List.getLast?_concat, rfl⟩

/-- A cycle that failed for good is the last one, and the run is over with its failure. -/
theorem Steady.of_fatal (h : Steady rel gap cancelled r) {k : Nat} {p : Pass} {f : Failure}
    (passed : r.passes[k]? = some p) (fatal : p.fatal? = some f) :
    r.phase = .over (.error f) ∧ k + 1 = r.passes.length := by
  have hstands := h.stands
  have unfatal : ¬∀ q ∈ r.passes, q.fatal? = none := fun mild => by
    cases fatal.symm.trans (mild p (List.mem_of_getElem? passed))
  generalize r.passes = passes at hstands passed unfatal ⊢
  generalize r.phase = phase at hstands ⊢
  cases hstands with
  | starting => cases passed
  | cycling mild | pausing mild | stopped mild => exact absurd mild unfatal
  | @failed earlier q g mild hg =>
    rcases Nat.lt_or_ge k earlier.length with hk | hk
    · rw [List.getElem?_append_left hk] at passed
      cases fatal.symm.trans (mild p (List.mem_of_getElem? passed))
    · obtain ⟨hlt, -⟩ := List.getElem?_eq_some_iff.1 passed
      rw [List.length_append, List.length_singleton] at hlt ⊢
      obtain rfl : k = earlier.length := by omega
      rw [List.getElem?_concat_length, Option.some.injEq] at passed
      subst passed
      exact ⟨by rw [Option.some.inj (hg.symm.trans fatal)], rfl⟩

theorem Steady.of_failed (h : Steady rel gap cancelled r) {f : Failure} (ended : r.phase = .over (.error f)) :
    ∃ p ∈ r.passes, p.fatal? = some f := by
  have hstands := h.stands
  rw [ended] at hstands
  generalize r.passes = passes at hstands ⊢
  cases hstands with
  | @failed earlier p f mild fatal => exact ⟨p, List.mem_append_right _ List.mem_cons_self, fatal⟩

theorem Steady.of_stopped (h : Steady rel gap cancelled r) (ended : r.phase = .over (.ok ())) :
    cancelled = true := by
  have hstands := h.stands
  rw [ended] at hstands
  generalize r.passes = passes at hstands
  cases hstands with
  | stopped mild halted => exact halted

/-- A run that is due and not cancelled begins a cycle in its turn. -/
theorem Step.begins {r' : Run} (step : r.Step now gap false r')
    (due : r.phase = .starting ∨ ∃ wakeAt, r.phase = .pausing wakeAt ∧ wakeAt ≤ now) :
    (∃ cycle, r'.phase = .cycling now cycle) ∧ r'.passes = r.passes ∨
      ∃ result, r'.passes = r.passes ++ [⟨now, now, result⟩] := by
  have began_now : ∀ {began}, r.Begins now false began → began = now := fun hb => by
    cases hb with
    | first | next => rfl
    | goesOn phase => obtain hp | ⟨_, hp, -⟩ := due <;> cases hp.symm.trans phase
  cases step with
  | rests idle =>
    obtain ⟨_, ho⟩ | ⟨wakeAt, ho, hlt, -⟩ := idle
    · obtain hp | ⟨_, hp, -⟩ := due <;> cases hp.symm.trans ho
    · obtain hp | ⟨wakeAt', hp, hle⟩ := due
      · cases hp.symm.trans ho
      · obtain rfl := RunPhase.pausing.inj (hp.symm.trans ho)
        omega
  | stops waits halted => cases halted
  | cycles since => exact .inl ⟨⟨_, by rw [began_now since]⟩, rfl⟩
  | closes since => exact .inr ⟨_, by rw [began_now since]⟩

/-- A run that repeats and waits for its first turn, or is over without having gone through a cycle. -/
structure Barred (r : Run) : Prop where
  repeats : r.repeats = true
  passes : r.passes = []
  phase : r.phase = .starting ∨ r.phase = .over (.ok ())

theorem Barred.like (h : r.Barred) (same : r.Like r') : r'.Barred := by
  refine ⟨same.repeats.trans h.repeats, same.passes.trans h.passes, ?_⟩
  obtain hp | ⟨began, cycle, cycle', hp, -⟩ := same.phase
  · rw [hp]
    exact h.phase
  · obtain hstart | hover := h.phase
    · cases hstart.symm.trans hp
    · cases hover.symm.trans hp

/-- Once it is cancelled, such a run is over after its turn. -/
theorem Barred.step (h : r.Barred) (step : r.Step now gap true r') : r'.Barred ∧ r'.phase = .over (.ok ()) := by
  obtain hstart | hover := h.phase
  · have unbegun : ∀ {began}, ¬r.Begins now true began := fun hb => by
      cases hb with
      | first _ free => cases free h.repeats
      | next _ _ free => cases free
      | goesOn phase => cases hstart.symm.trans phase
    cases step with
    | rests idle =>
      obtain ⟨_, hp⟩ | ⟨_, -, -, hc⟩ := idle
      · cases hstart.symm.trans hp
      · cases hc
    | stops => exact ⟨⟨h.repeats, h.passes, .inr rfl⟩, rfl⟩
    | cycles since => exact absurd since unbegun
    | closes since => exact absurd since unbegun
  · rw [step.of_over hover]
    exact ⟨h, hover⟩

end Run

namespace Sampler

variable {κ τ σ : Type}

/-- How all runs that repeat have gone. -/
def Steady (rel : Nat → Nat → Prop) (s : Sampler κ τ σ) : Prop :=
  ∀ (run : Nat) (r : Run), s.runs[run]? = some r → r.repeats = true → r.Steady rel s.gap (s.runHalted run)

/-- Some moves cancel a run: by its own cancellation once it is there, or by that of all runs. -/
def CancelledBy [SwarmClient κ τ] [SampleStore σ] (s : Sampler κ τ σ) (ms : List (Move σ)) (run : Nat) : Prop :=
  ∃ earlier stop later, ms = earlier ++ stop :: later ∧
    (stop = .cancel ∨ stop = .cancelRun run ∧ run < (s.moveAll earlier).runs.length)

/-- A run that was cancelled before its first turn. -/
structure Barred (s : Sampler κ τ σ) (run : Nat) : Prop where
  halted : s.runHalted run = true
  record : ∃ r, s.runs[run]? = some r ∧ r.Barred

/-- A run that is over with some result, after some cycles. -/
def Finished (s : Sampler κ τ σ) (run : Nat) (result : Except Failure Unit) (past : List Pass) : Prop :=
  ∃ r, s.runs[run]? = some r ∧ r.phase = .over result ∧ r.passes = past

theorem Finished.result? {s : Sampler κ τ σ} {run : Nat} {result : Except Failure Unit} {past : List Pass}
    (h : s.Finished run result past) : s.result? run = some result := by
  obtain ⟨⟨repeats, halted, phase, passes⟩, hr, hp, -⟩ := h
  obtain rfl : phase = .over result := hp
  rw [Sampler.result?, hr]

theorem Finished.idle {s : Sampler κ τ σ} {run : Nat} {result : Except Failure Unit} {past : List Pass}
    (h : s.Finished run result past) : s.cycle? run = none ∧ s.passNo run = past.length := by
  obtain ⟨r, hr, hp, hpast⟩ := h
  refine ⟨by rw [cycle?_eq, hr, Option.bind_some, Run.cycle?, hp], ?_⟩
  rw [passNo, passes, hr]
  exact congrArg List.length hpast

theorem Barred.idle {s : Sampler κ τ σ} {run : Nat} (barred : s.Barred run) :
    s.cycle? run = none ∧ s.passNo run = 0 := by
  obtain ⟨-, r, hr, hbarred⟩ := barred
  refine ⟨?_, ?_⟩
  · rw [cycle?_eq, hr, Option.bind_some, Run.cycle?]
    obtain hp | hp := hbarred.phase <;> rw [hp]
  · rw [passNo, passes, hr]
    exact congrArg List.length hbarred.passes

end Sampler

namespace Chronicle

open Sampler

variable {κ τ σ ρ : Type} [SwarmClient κ τ] [SampleStore σ] {view : SampleView σ ρ} {before : List ρ}
  {c : Chronicle κ τ σ ρ} {run : Nat} {rel : Nat → Nat → Prop}

/-! ## Every run that repeats goes steadily -/

theorem Right.steady (h : Right view before c) (steady : c.sampler.Steady rel)
    (ontime : ∀ run wakeAt, c.sampler.runDue? run = some wakeAt → wakeAt ≤ c.sampler.now →
      rel wakeAt c.sampler.now)
    (m : Move σ) : (c.sampler.move m).Steady rel := by
  intro run r' hr' repeats
  have mono : c.sampler.runHalted run = true → (c.sampler.move m).runHalted run = true := fun hh =>
    (h.runHalted m run).2 (.inl hh)
  rw [gap, move_plan]
  obtain ⟨r, hr, hlike | ⟨-, hstep⟩⟩ | ⟨_, -, -, rfl⟩ := move_run hr'
  · exact (steady run r hr (hlike.repeats ▸ repeats)).like hlike mono
  · have hrepeats : r.repeats = true := hstep.repeats ▸ repeats
    have hsteady := (steady run r hr hrepeats).step hrepeats hstep fun wakeAt hp =>
      ontime run wakeAt (runDue?_eq_some.2 ⟨r, hr, hp⟩)
    exact hsteady.like (.refl r') mono
  · exact Run.steady_start _

theorem Right.steady_run (ms : List (Move σ)) (h : Right view before c) (steady : c.sampler.Steady (· ≤ ·)) :
    (c.run view.toRowView ms).sampler.Steady (· ≤ ·) :=
  (run_keeps (P := fun c => Right view before c ∧ c.sampler.Steady (· ≤ ·))
    (fun m h => ⟨h.1.step m, h.1.steady h.2 (fun _ _ _ due => due) m⟩) ms ⟨h, steady⟩).2

/-- By a punctual clock every pause lasts exactly as long as it should. -/
theorem Right.steady_punctual {s : Sampler (Observed κ) (Nat × τ) σ} {ms : List (Move σ)}
    (punctual : Punctual s ms) :
    ∀ {c : Chronicle κ τ σ ρ}, c.sampler = s → Right view before c → s.Unmissed → s.Steady (· = ·) →
      (c.run view.toRowView ms).sampler.Steady (· = ·) := by
  induction punctual with
  | none => exact fun hs _ _ steady => hs ▸ steady
  | more timely _ ih =>
    rintro c rfl h unmissed steady
    refine ih (c := c.step view.toRowView _) rfl (h.step _) (unmissed.move timely) ?_
    exact h.steady steady (fun run wakeAt hdue due => Nat.le_antisymm due (unmissed run wakeAt hdue)) _

/-! ## What cancels a run -/

omit view before c rel in
theorem cancelledBy_cons {s : Sampler (Observed κ) (Nat × τ) σ} {m : Move σ} {ms : List (Move σ)} :
    CancelledBy s (m :: ms) run ↔
      (m = .cancel ∨ m = .cancelRun run ∧ run < s.runs.length) ∨ CancelledBy (s.move m) ms run := by
  constructor
  · rintro ⟨earlier, stop, later, heq, hstop⟩
    cases earlier with
    | nil =>
      obtain ⟨rfl, rfl⟩ := List.cons.inj heq
      exact .inl hstop
    | cons first earlier =>
      obtain ⟨rfl, rfl⟩ := List.cons.inj heq
      exact .inr ⟨earlier, stop, later, rfl, hstop⟩
  · rintro (hstop | ⟨earlier, stop, later, rfl, hstop⟩)
    · exact ⟨[], m, ms, rfl, hstop⟩
    · exact ⟨m :: earlier, stop, later, rfl, hstop⟩

/-- A run is cancelled by its own cancellation or by that of all runs, and by nothing else. -/
theorem Right.cancelled_iff (ms : List (Move σ)) : ∀ {c : Chronicle κ τ σ ρ}, Right view before c →
    ((c.run view.toRowView ms).sampler.runHalted run = true ↔
      c.sampler.runHalted run = true ∨ CancelledBy c.sampler ms run) := by
  induction ms with
  | nil =>
    refine fun _ => ⟨.inl, fun h => h.resolve_right ?_⟩
    rintro ⟨earlier, stop, later, heq, -⟩
    cases earlier <;> cases heq
  | cons m ms ih =>
    intro c h
    rw [cancelledBy_cons, ← or_assoc, ← h.runHalted m run]
    exact ih (h.step m)

/-! ## Runs that are over -/

theorem Right.finished (h : Right view before c) {result : Except Failure Unit} {past : List Pass}
    (finished : c.sampler.Finished run result past) (m : Move σ) :
    (c.sampler.move m).Finished run result past := by
  obtain ⟨r, hr, hp, hpast⟩ := finished
  have known := (List.getElem?_eq_some_iff.1 hr).1
  have present := List.getElem?_eq_getElem (h.known_kept known m)
  refine ⟨_, present, ?_⟩
  obtain ⟨x, hx, hlike | ⟨-, hstep⟩⟩ | ⟨_, -, hlength, -⟩ := move_run present
  · obtain rfl := Option.some.inj (hr.symm.trans hx)
    exact ⟨hlike.over_iff.2 hp, hlike.passes.trans hpast⟩
  · obtain rfl := Option.some.inj (hr.symm.trans hx)
    rw [hstep.of_over hp]
    exact ⟨hp, hpast⟩
  · omega

theorem Right.finished_run (ms : List (Move σ)) (h : Right view before c) {result : Except Failure Unit}
    {past : List Pass} (finished : c.sampler.Finished run result past) :
    (c.run view.toRowView ms).sampler.Finished run result past :=
  (run_keeps (P := fun c => Right view before c ∧ c.sampler.Finished run result past)
    (fun m h => ⟨h.1.step m, h.1.finished h.2 m⟩) ms ⟨h, finished⟩).2

/-- A run that is over starts no check any more. -/
theorem Right.finished_starts (ms : List (Move σ)) (h : Right view before c) (ht : c.Tallied)
    {result : Except Failure Unit} {past : List Pass} (finished : c.sampler.Finished run result past) (k : Nat) :
    (c.run view.toRowView ms).startedIn run k = c.startedIn run k := by
  obtain ⟨idle, hpast⟩ := finished.idle
  obtain ⟨idle', hpast'⟩ := (h.finished_run ms finished).idle
  rcases Nat.lt_or_ge k past.length with hk | hk
  · exact (h.stilled_steps ms (.inl (hpast ▸ hk))).1
  · have now : c.Untold run k := ht.future (hpast ▸ hk) fun _ => idle
    have later : (c.run view.toRowView ms).Untold run k := (ht.steps ms h).future (hpast' ▸ hk) fun _ => idle'
    rw [now.2.1, later.2.1]

/-! ## Runs that are started after all runs were cancelled -/

theorem Right.barred (h : Right view before c) (barred : c.sampler.Barred run) (m : Move σ) :
    (c.sampler.move m).Barred run := by
  obtain ⟨halted, r, hr, hbarred⟩ := barred
  refine ⟨(h.runHalted m run).2 (.inl halted), ?_⟩
  have known := (List.getElem?_eq_some_iff.1 hr).1
  have present := List.getElem?_eq_getElem (h.known_kept known m)
  refine ⟨_, present, ?_⟩
  obtain ⟨x, hx, hlike | ⟨rfl, hstep⟩⟩ | ⟨_, -, hlength, -⟩ := move_run present
  · exact (Option.some.inj (hr.symm.trans hx) ▸ hbarred).like hlike
  · rw [halted] at hstep
    exact ((Option.some.inj (hr.symm.trans hx) ▸ hbarred).step hstep).1
  · omega

omit [SwarmClient κ τ] view before c rel in
theorem barred_turn {s : Sampler κ τ σ} (barred : s.Barred run) : (s.resumeRun run).Finished run (.ok ()) [] := by
  obtain ⟨halted, r, hr, hbarred⟩ := barred
  obtain ⟨r', hr', hstep⟩ := resumeRun_run hr
  rw [halted] at hstep
  obtain ⟨hbarred', hover⟩ := hbarred.step hstep
  exact ⟨r', hr', hover, hbarred'.passes⟩

/-- A run that was cancelled before its first turn is over after it, and never goes through a cycle. -/
theorem Right.barred_run (ms : List (Move σ)) : ∀ {c : Chronicle κ τ σ ρ}, Right view before c →
    c.sampler.Barred run → (c.run view.toRowView ms).sampler.Barred run ∧
      (.run run ∈ ms → (c.run view.toRowView ms).sampler.Finished run (.ok ()) []) := by
  induction ms with
  | nil => exact fun _ barred => ⟨barred, nofun⟩
  | cons m ms ih =>
    intro c h barred
    obtain ⟨hlast, hlater⟩ := ih (h.step m) (h.barred barred m)
    refine ⟨hlast, fun hm => ?_⟩
    rcases List.mem_cons.1 hm with rfl | hm
    · exact (h.step _).finished_run ms (barred_turn barred)
    · exact hlater hm

/-! ## The life of a run -/

/-- What a sampler was set up for does not change, nor does the time of a pause. -/
theorem gap_run (view : SampleView σ ρ) (ms : List (Move σ)) (c : Chronicle κ τ σ ρ) :
    (c.run view.toRowView ms).sampler.gap = c.sampler.gap :=
  run_same (P := fun _ => True) (f := fun c => c.sampler.gap) (fun _ h => h)
    (fun m _ => congrArg (·.cycleInterval.wait) (move_plan _ m)) ms trivial

/-- How a run that was started has gone, with some time for each pause. -/
structure Course (c : Chronicle κ τ σ ρ) (gap run : Nat) (r : Run) : Prop where
  /-- One cycle after another: each begins a pause after the one before it has ended, or later. -/
  paced : r.Paced (· ≤ ·) gap
  pauses : ∀ wakeAt, r.phase = .pausing wakeAt → ∃ p, r.passes.getLast? = some p ∧ wakeAt = p.ended + gap
  /-- A run that is due and not cancelled begins a cycle in its turn, then and there. -/
  begins : c.sampler.runHalted run = false →
    (r.phase = .starting ∨ ∃ wakeAt, r.phase = .pausing wakeAt ∧ wakeAt ≤ c.sampler.now) →
    ∃ r', (c.sampler.move (.run run)).runs[run]? = some r' ∧
      ((∃ cycle, r'.phase = .cycling c.sampler.now cycle) ∧ r'.passes = r.passes ∨
        ∃ result, r'.passes = r.passes ++ [⟨c.sampler.now, c.sampler.now, result⟩])
  /-- No check outlasts its cycle. -/
  apart : ∀ k < r.passes.length, ∀ p ∈ c.startedIn run k, c.sampler.check? p.1 = none
  /-- A cycle that failed, but not for good, has checked nothing. -/
  barren : ∀ k p f, r.passes[k]? = some p → p.result = .error f → f.fatal = false → c.startedIn run k = []
  /-- The run is over with an error if and only if a cycle failed for good with it. -/
  fails : ∀ f, r.phase = .over (.error f) ↔ ∃ p ∈ r.passes, p.result = .error f ∧ f.fatal = true
  /-- Such a cycle is the last one. -/
  last : ∀ k p f, r.passes[k]? = some p → p.result = .error f → f.fatal = true → k + 1 = r.passes.length
  /-- The run is over without an error only if it was cancelled. -/
  stops : r.phase = .over (.ok ()) → c.sampler.runHalted run = true

omit [SwarmClient κ τ] [SampleStore σ] in
/-- A cycle that has counted its checks fails only for good. -/
theorem Closed.of_mild {result : Except Failure CycleSummary} {k : Nat} (h : c.Closed run k result) {f : Failure}
    (failed : result = .error f) (mild : f.fatal = false) : c.startedIn run k = [] := by
  cases h with
  | barren started => exact started
  | @counted cycle agrees =>
    obtain ⟨draw, targets, -, htally⟩ := agrees
    cases hfatal : cycle.fatal with
    | none =>
      rw [hfatal] at failed
      cases failed
    | some g =>
      rw [hfatal] at failed
      obtain rfl := Except.error.inj failed
      obtain ⟨x, -, hx⟩ := List.exists_of_findSome?_eq_some (htally.fatal.symm.trans hfatal)
      cases mild.symm.trans (CheckResult.fatal_of_fatal? hx)

theorem Right.course (h : Right view before c) (ht : c.Tallied) {r : Run} (present : c.sampler.runs[run]? = some r)
    (steady : r.Steady (· ≤ ·) c.sampler.gap (c.sampler.runHalted run)) : Course c c.sampler.gap run r := by
  have hpasses : c.sampler.passes run = r.passes := by rw [passes, present]; rfl
  refine ⟨steady.paced, fun wakeAt hp => steady.pausing hp, fun free due => ?_, fun k hk p hp => ?_,
    fun k p f passed hr hf => ?_, fun f => ⟨fun ended => ?_, ?_⟩, fun k p f passed hr hf => ?_, steady.of_stopped⟩
  · obtain ⟨r', hr', hstep⟩ := resumeRun_run present
    rw [free] at hstep
    exact ⟨r', hr', hstep.begins due⟩
  · exact h.over_of_past (by rw [passNo, hpasses]; exact hk) (mem_startedIn.1 hp)
  · exact (ht.past (hpasses.symm ▸ passed)).of_mild hr hf
  · obtain ⟨p, hp, hfatal⟩ := steady.of_failed ended
    exact ⟨p, hp, Pass.fatal?_eq_some.1 hfatal⟩
  · rintro ⟨p, hp, hfatal⟩
    obtain ⟨k, hk⟩ := List.getElem?_of_mem hp
    exact (steady.of_fatal hk (Pass.fatal?_eq_some.2 hfatal)).1
  · exact (steady.of_fatal passed (Pass.fatal?_eq_some.2 ⟨hr, hf⟩)).2

/-- **A run that was started goes through cycle after cycle until one fails for good or the run is
cancelled.** Each cycle begins after the one before it has ended and a pause is over, and exactly then by a
clock that does not run ahead of the run, as the program's own does; a pause lasts the cycle interval, rounded
up to whole milliseconds, but not longer than any wait. A cycle that fails, but not for good, has checked nothing. The run is over with an
error if and only if its last cycle failed for good with it, and with no error only if it was cancelled;
nothing more comes from it then. A run is cancelled by its own cancellation or that of all runs, so the
cancellation of one touches neither others nor those that are started later; after the cancellation of all,
a run that is started is over after its first turn, without a cycle. -/
theorem run_lifecycle (view : SampleView σ ρ) {settings : Settings} {chance : Chance} {source : TargetSource σ}
    {client : κ} {store : σ} {s : Sampler (Observed κ) (Nat × τ) σ}
    (opens : ofSettings settings chance source (Observed.of client) store = .ok s) (ms : List (Move σ)) :
    let c := (opened s).run view.toRowView ms
    let gap := min settings.cycleInterval.timer Span.longestWait
    (∀ (run : Nat) (r : Run), c.sampler.runs[run]? = some r → r.repeats = true →
      Course c gap run r ∧ (Punctual s ms → r.Paced (· = ·) gap) ∧
        ∀ result, r.phase = .over result → ∀ later,
          let c' := c.run view.toRowView later
          c'.sampler.Finished run result r.passes ∧ ∀ k, c'.startedIn run k = c.startedIn run k) ∧
    (∀ run, c.sampler.runHalted run = true ↔ CancelledBy s ms run) ∧
    (∀ run other, other ≠ run → (c.sampler.cancelRun run).runs[other]? = c.sampler.runs[other]? ∧
      (c.sampler.cancelRun run).checksHalted other = c.sampler.checksHalted other) ∧
    (.cancel ∈ ms → ∀ later,
      let run := c.sampler.runs.length
      let c' := (c.step view.toRowView (.addRun true)).run view.toRowView later
      c'.sampler.Barred run ∧ (∀ k, c'.Untold run k) ∧
        (.run run ∈ later → c'.sampler.Finished run (.ok ()) [])) ∧
    Kept view (view.rows s.store) c ∧ c.sampler.client.queries = c.journal.filterMap Entry.question? ∧
    ∀ t, Schedule.Operated s t → ∃ ms, Punctual s ms ∧ t.sampler = s.moveAll ms := by
  intro c gap
  have hnew := new_of_ofSettings opens
  have hopened := right_opened view hnew
  have hright : Right view (view.rows s.store) c := hopened.run ms
  have htallied : c.Tallied := (tallied_opened hnew).steps ms hopened
  have steady : ∀ rel, s.Steady rel := fun rel run r hr => by
    rw [hnew.runs] at hr
    cases hr
  have hgap : c.sampler.gap = gap := by
    obtain ⟨-, policy, rfl⟩ := eq_of_ofSettings opens
    exact gap_run view ms _
  have hcancelled : ∀ run, c.sampler.runHalted run = true ↔ CancelledBy s ms run := fun run => by
    have hfresh : s.runHalted run = false := by
      rw [runHalted, hnew.halted, hnew.runs]
      rfl
    rw [hopened.cancelled_iff ms, opened_sampler, hfresh]
    simp
  refine ⟨fun run r present repeats => ⟨?_, fun punctual => ?_, fun result ended later => ?_⟩, hcancelled,
    fun run other hne => ?_, fun hm later => ?_, hright.kept, hright.queries, fun t operated => ?_⟩
  · rw [← hgap]
    exact hright.course htallied present (hopened.steady_run ms (steady _) run r present repeats)
  · have unmissed : s.Unmissed := fun run wakeAt due => by
      obtain ⟨r, hr, -⟩ := runDue?_eq_some.1 due
      rw [hnew.runs] at hr
      cases hr
    rw [← hgap]
    exact (hopened.steady_punctual punctual rfl unmissed (steady _) run r present repeats).paced
  · have finished : c.sampler.Finished run result r.passes := ⟨r, present, ended, rfl⟩
    exact ⟨hright.finished_run later finished, hright.finished_starts later htallied finished⟩
  · have hruns : (c.sampler.cancelRun run).runs[other]? = c.sampler.runs[other]? :=
      (runs_withRun ..).trans (if_neg hne)
    refine ⟨hruns, checksHalted_congr hruns ?_⟩
    rw [runHalted, runHalted, hruns]
    rfl
  · obtain ⟨earlier, rest, heq⟩ := List.append_of_mem hm
    have barred : (c.step view.toRowView (.addRun true)).sampler.Barred c.sampler.runs.length := by
      refine ⟨?_, .start true, List.getElem?_concat_length, rfl, rfl, .inl rfl⟩
      exact (runHalted_addRun ..).trans ((hcancelled _).2 ⟨earlier, .cancel, rest, heq, .inl rfl⟩)
    have hstep := hright.step (.addRun true)
    obtain ⟨hlast, hover⟩ := hstep.barred_run later barred
    obtain ⟨idle, hpasses⟩ := hlast.idle
    refine ⟨hlast, fun k => ?_, hover⟩
    exact ((htallied.step hright (.addRun true)).steps later hstep).future (hpasses ▸ Nat.zero_le k) fun _ => idle
  · obtain ⟨-, ⟨ms, punctual, hs⟩, -⟩ := operated.onward (hopened.writes) hnew.runs
    exact ⟨ms, punctual, hs⟩

/-! ## Two runs, and a pause that is cut short -/

/-- A sampler without targets, whose cycles take no time. -/
def bare (interval : Span) : Sampler (Observed ScriptedClient) (Nat × Unit) FaultyStore where
  plan := ⟨⟨3, .ofMillis 60000, .ofMillis 10000, .ofMillis 16000⟩, .all, interval, 10⟩
  chance := .still
  drawn := 0
  now := 0
  source := .ofList []
  client := .of ⟨[], .ok ⟨2, 1⟩, 0, [], []⟩
  store := ⟨⟨[], none, false, false⟩, 0, []⟩
  writer := .start Settings.standard.writer
  pool := .full 4
  checks := []
  started := 0
  runs := []
  reports := []
  halted := false

/-- Two runs go through a cycle each, and the first is cancelled in its pause. -/
def bareMoves : List (Move FaultyStore) :=
  [.addRun true, .addRun true, .run 0, .run 1, .cancelRun 0, .run 0, .clock 300000000000, .run 0, .run 1]

theorem run_lifecycle_cancelled :
    let c := (opened (bare (.ofMillis 300000))).run FaultyStore.sampleView.toRowView bareMoves
    (c.sampler.passes 0).map (·.began) = [0] ∧ c.sampler.result? 0 = some (.ok ()) ∧
      (c.sampler.passes 1).map (·.began) = [0, 300000000000] ∧ c.sampler.runHalted 1 = false ∧
      ∃ r, c.sampler.runs[1]? = some r ∧ Course c 300000000000 1 r := by
  intro c
  have opens : ofSettings Settings.standard .still (.ofList [])
      (Observed.of (⟨[], .ok ⟨2, 1⟩, 0, [], []⟩ : ScriptedClient)) (bare (.ofMillis 300000)).store =
        .ok (bare (.ofMillis 300000)) := rfl
  obtain ⟨hruns, -⟩ := run_lifecycle FaultyStore.sampleView opens bareMoves
  obtain ⟨r, present, repeats⟩ : ∃ r, c.sampler.runs[1]? = some r ∧ r.repeats = true := ⟨_, rfl, rfl⟩
  obtain ⟨hcourse, -⟩ := hruns 1 r present repeats
  exact ⟨by decide +kernel, rfl, by decide +kernel, by decide +kernel, r, present, hcourse⟩

/-- An interval of sixty years of 365 days. -/
def sixtyYears : Span := .ofMillis 1892160000000

/-- An interval of a second and a nanosecond. -/
def overSecond : Span := ⟨1000000001, by decide⟩

/-- Thirty years after its first cycle has ended, a run whose interval is sixty begins the next, and a millisecond
late if its interval is a nanosecond more than a second. So it does in the program's own order of turns. -/
theorem pause_cut_short :
    let opens (interval : Span) : Prop :=
      ofSettings { Settings.standard with cycleInterval := interval } .still (.ofList []) (bare interval).client
        (bare interval).store = .ok (bare interval)
    let cycles (interval : Span) (sleeps : List Nat) : List (Nat × Nat) :=
      let program := sleeps.foldl Schedule.sleep (Schedule.ofSampler (bare interval)).start.2
      (program.sampler.passes 0).map fun p => (p.began, p.ended)
    (opens sixtyYears ∧ cycles sixtyYears [946080000000000000, 1000000000] =
        [(0, 0), (946080000000000000, 946080000000000000)] ∧ ¬ 0 + sixtyYears.nanos = 946080000000000000) ∧
    opens overSecond ∧ cycles overSecond [1500000000] = [(0, 0), (1001000000, 1001000000)] ∧
      ¬ 0 + overSecond.nanos = 1001000000 := by
  refine ⟨⟨rfl, by decide +kernel, by decide⟩, rfl, by decide +kernel, by decide⟩

end Chronicle

end SwarmSampler
