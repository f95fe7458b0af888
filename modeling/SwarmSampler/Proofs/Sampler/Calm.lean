import SwarmSampler.Proofs.Check.Apart
import SwarmSampler.Proofs.Sampler.Stopping

/-
A sampler with a single run of one cycle, which nobody disturbs: only its own
tasks have turns while time passes, and its store takes every sample. Nothing is
cancelled then, neither from outside nor by a failure, all that the store gains is
from checks, and every check on its way is about its target's magnet.
-/

namespace SwarmSampler

/-- A run of one cycle, which it has still to go through or which has ended it. -/
def Run.Once (r : Run) : Prop :=
  r.repeats = false ∧ (r.passes = [] ∨ r.passes.length = 1 ∧ ∃ e, r.phase = .over e)

/-- A run that does not repeat is over after its cycle. -/
theorem Run.phaseAfter_single {r : Run} (h : r.repeats = false) (cancelled : Bool) (wakeAt : Nat)
    (result : Except Failure CycleSummary) : ∃ e, r.phaseAfter cancelled wakeAt result = .over e := by
  cases result with
  | error f => exact ⟨.error f, by simp [phaseAfter, h]⟩
  | ok summary => exact ⟨.ok (), by simp [phaseAfter, h]⟩

namespace Sampler

section

variable {κ τ σ : Type} {s s' : Sampler κ τ σ}

/-- There is one run, of one cycle. -/
def Once (s : Sampler κ τ σ) : Prop := ∃ r, s.runs = [r] ∧ r.Once

theorem Once.withRun (h : s.Once) (run : Nat) {f : Run → Run} (keeps : ∀ r, s.runs = [r] → r.Once → (f r).Once) :
    (s.withRun run f).Once := by
  obtain ⟨r, hr, once⟩ := h
  rw [Once, Sampler.withRun, hr]
  cases run with
  | zero => exact ⟨f r, rfl, keeps r hr once⟩
  | succ n => exact ⟨r, by rw [List.modify_succ_cons, List.modify_nil], once⟩

/-- The cycle of a run that has not been through one yet ends it. -/
theorem Once.endCycle (h : s.Once) (fresh : s.passes 0 = []) (run began : Nat)
    (result : Except Failure CycleSummary) : (s.endCycle run began result).Once := by
  refine h.withRun run fun r hr once => ⟨once.1, .inr ⟨?_, Run.phaseAfter_single once.1 _ _ _⟩⟩
  have hpasses : r.passes = [] := by simpa [passes, hr] using fresh
  simp only [hpasses, List.nil_append, List.length_singleton]

theorem Once.withPhase (h : s.Once) (fresh : s.passes 0 = []) (run : Nat) (phase : RunPhase) :
    (s.withPhase run phase).Once := by
  refine h.withRun run fun r hr once => ⟨once.1, .inl ?_⟩
  simpa [passes, hr] using fresh

theorem Once.goOnCycle (h : s.Once) (fresh : s.passes 0 = []) (run began : Nat) (cycle : Cycle) :
    (s.goOnCycle run began cycle).Once := by
  obtain ⟨first, rest, x, hx, ht⟩ := goOnCycle_turn s run began cycle
  obtain ⟨pool, hp⟩ := hx.state
  rw [hp] at ht
  have hbegun : (s.begun run first pool).Once := h
  have hfresh : (s.begun run first pool).passes 0 = [] := fresh
  generalize s.goOnCycle run began cycle = s' at ht ⊢
  cases ht with
  | starts | counts => exact hbegun.withPhase hfresh run _
  | ends => exact hbegun.endCycle hfresh run began _

/-- A run that has been through its cycle does nothing any more. -/
theorem Once.rests [SampleStore σ] (h : s.Once) (run : Nat) : s.resumeRun run = s ∨ s.passes 0 = [] := by
  obtain ⟨r, hr, -, hpasses⟩ := h
  obtain hnone | ⟨-, e, he⟩ := hpasses
  · exact .inr (by simp [passes, hr, hnone])
  · refine .inl ?_
    unfold Sampler.resumeRun
    cases run with
    | zero => simp [hr, he]
    | succ n => simp [hr]

theorem Once.resumeRun [SampleStore σ] (h : s.Once) (run : Nat) : (s.resumeRun run).Once := by
  obtain hsame | fresh := h.rests run
  · exact hsame.symm ▸ h
  · have ht := resumeRun_turn s run
    generalize s.resumeRun run = s' at ht ⊢
    cases ht with
    | rests => exact h
    | ends => exact h.withPhase fresh run _
    | @barren f store drawn =>
      have hnow : ({ s with store := store, drawn := drawn } : Sampler κ τ σ).Once := h
      exact hnow.endCycle fresh run s.now _
    | @begins targets n store =>
      have hnow : ({ s with store := store, drawn := s.drawn + 1 } : Sampler κ τ σ).Once := h
      exact hnow.goOnCycle fresh run s.now _
    | goesOn => exact h.goOnCycle fresh run _ _

/-- The only run has still to begin its cycle. -/
def Unbegun (s : Sampler κ τ σ) : Prop := s.passes 0 = [] ∧ s.cycle? 0 = none

theorem Once.eq_zero (h : s.Once) {run : Nat} (known : run < s.runs.length) : run = 0 := by
  obtain ⟨r, hr, -⟩ := h
  rw [hr, List.length_singleton] at known
  omega

/-- A cycle that goes on has begun, and so it has when it is over. -/
theorem goOnCycle_begun (known : 0 < s.runs.length) (began : Nat) (cycle : Cycle) :
    ¬(s.goOnCycle 0 began cycle).Unbegun := by
  obtain ⟨first, rest, x, hx, ht⟩ := goOnCycle_turn s 0 began cycle
  obtain ⟨pool, hp⟩ := hx.state
  rw [hp] at ht
  generalize s.goOnCycle 0 began cycle = s' at ht ⊢
  rintro ⟨fresh, idle⟩
  cases ht with
  | starts | counts => cases (cycle?_withPhase (s := s.begun 0 first pool) known _).symm.trans idle
  | ends =>
    have hpasses := (passes_endCycle (s := s.begun 0 first pool) known ..).symm.trans fresh
    simp at hpasses

/-- A turn of a run draws on chance only if the run begins a cycle. -/
theorem RunTurn.drawn [SampleStore σ] {run : Nat} (h : RunTurn s run s') :
    s'.drawn = s.drawn ∨ s.cycle? run = none ∧ run < s.runs.length := by
  cases h with
  | rests | ends => exact .inl rfl
  | barren idle known => exact .inr ⟨idle, known⟩
  | begins idle known => exact .inr ⟨idle, known⟩
  | goesOn => exact .inl (goOnCycle_kept ..).2

/-- A turn that leaves the run's cycle to begin leaves the store alone. -/
theorem RunTurn.unbegun [SampleStore σ] {run : Nat} (h : RunTurn s run s') (once : s.Once) (hs : s'.Unbegun) :
    s.Unbegun ∧ s'.store = s.store := by
  cases h with
  | rests => exact ⟨hs, rfl⟩
  | ends idle => exact ⟨⟨(passes_withPhase ..).symm.trans hs.1, (cycle?_over idle _ 0).symm.trans hs.2⟩, rfl⟩
  | @barren f store drawn idle known =>
    obtain rfl := once.eq_zero known
    have hpasses := (passes_endCycle (s := { s with store := store, drawn := drawn }) known ..).symm.trans hs.1
    simp at hpasses
  | @begins targets n store idle known =>
    obtain rfl := once.eq_zero known
    exact absurd hs (goOnCycle_begun (s := { s with store := store, drawn := s.drawn + 1 }) known _ _)
  | goesOn busy =>
    obtain ⟨known, -⟩ := List.getElem?_eq_some_iff.1 busy
    obtain rfl := once.eq_zero known
    exact absurd hs (goOnCycle_begun known _ _)

theorem CheckTurn.once [SwarmClient κ τ] [SampleStore σ] {id : Nat} (h : CheckTurn s id s') (hs : s.Once) :
    s'.Once := by
  cases h with
  | absent | stands | waits | settles => exact hs
  | @ends c client' new result =>
    have hnow : ({ s with client := client', reports := s.reports ++ new } : Sampler κ τ σ).Once := hs
    refine hnow.withRun c.run fun r _ once => ?_
    obtain ⟨repeats, halted, _ | ⟨began, cycle⟩ | wakeAt | e, passes⟩ := r
    · exact once
    · exact ⟨once.1, once.2.imp_right fun ⟨hone, e, he⟩ => by cases he⟩
    · exact once
    · exact once

/-- Checks that are on their way ask about the magnets of their targets, by the sampler's policy. -/
def Keyed (s : Sampler κ τ σ) : Prop :=
  ∀ id t p, s.check? id = some t → t.stage = .probing p →
    p.magnet = t.target.magnet ∧ p.policy = s.plan.policy

theorem Ran.keyed [SampleStore σ] {run : Nat} {first : List MonitoringTarget} (h : Ran run first s s')
    (hs : s.Keyed) : s'.Keyed := by
  intro id t p task stage
  have hstanding := congrArg Standing.task (h.standing id)
  rw [show (s'.standing id).task = some t from task] at hstanding
  rw [h.plan]
  rcases Option.or_eq_some_iff.1 hstanding.symm with old | ⟨-, new⟩
  · exact hs id t p old stage
  · split at new
    · obtain ⟨target, -, rfl⟩ := Option.map_eq_some_iff.1 new
      cases stage
      exact ⟨rfl, rfl⟩
    · cases new

theorem CheckTurn.keyed [SwarmClient κ τ] [SampleStore σ] {id : Nat} (h : CheckTurn s id s') (hs : s.Keyed) :
    s'.Keyed := by
  have hplan := h.plan
  have hother : ∀ i, i ≠ id → s'.check? i = s.check? i := fun i hi => congrArg Standing.task (h.standing_other hi)
  intro i t p task stage
  by_cases hi : i = id
  · subst hi
    rw [hplan]
    cases h with
    | absent | stands => exact hs i t p task stage
    | @waits c p₀ p' client' task₀ stage₀ turn =>
      obtain ⟨about, policy⟩ := hs i c p₀ task₀ stage₀
      have hsame := Probe.resume_same turn
      have hnow : some { c with stage := .probing p' } = some t :=
        (check?_withStage_self (s := { s with client := client' }) task₀).symm.trans task
      cases hnow
      cases stage
      exact ⟨hsame.1.trans about, hsame.2.trans policy⟩
    | settles task₀ => exact absurd ⟨t, p, task, stage⟩ (check?_queued task₀)
    | ends task₀ => cases (check?_ended task₀).symm.trans task
  · rw [hplan]
    exact hs i t p (hother i hi ▸ task) stage

theorem CheckTurn.source [SwarmClient κ τ] [SampleStore σ] {id : Nat} (h : CheckTurn s id s') :
    s'.source = s.source := by cases h <;> rfl

theorem CheckTurn.unbegun [SwarmClient κ τ] [SampleStore σ] {id : Nat} (h : CheckTurn s id s')
    (balanced : s.Balanced) (hs : s'.Unbegun) : s.Unbegun := by
  refine ⟨(h.passes 0).symm.trans hs.1, ?_⟩
  obtain hcycles | ⟨t, result, cycle, -, -, hcycle, hothers⟩ := h.cycles balanced
  · exact (hcycles 0).symm.trans hs.2
  · by_cases hrun : 0 = t.run
    · rw [← hrun, hs.2] at hcycle
      cases hcycle
    · exact (cycle?_congr (hothers 0 hrun)).symm.trans hs.2

end

end Sampler

namespace Chronicle

open Sampler

variable {κ τ σ ρ : Type}

theorem mem_endedIn {c : Chronicle κ τ σ ρ} {run k id : Nat} {result : CheckResult}
    (h : (id, result) ∈ c.endedIn run k) : .ended run k result ∈ c.life id := by
  obtain ⟨e, he, heq⟩ := List.mem_filterMap.1 h
  refine List.mem_filterMap.2 ⟨e, he, ?_⟩
  cases e with
  | listed | vain | foreign => cases heq
  | check i event =>
    cases event with
    | ended r k' result' =>
      by_cases hr : r = run ∧ k' = k
      · simpa [Entry.end?, Entry.told, CheckEvent.end?, Entry.of?, hr] using heq
      · simp [Entry.end?, Entry.told, CheckEvent.end?, hr] at heq
    | started | asked | settled | stored | published => simp [Entry.end?, Entry.told, CheckEvent.end?] at heq

/-- All that the journal tells of cycles is of the first one of the only run, once that is over. -/
theorem Tallied.only {c : Chronicle κ τ σ ρ} (ht : c.Tallied) (once : c.sampler.Once)
    (past : c.sampler.passes 0 ≠ []) {run k id : Nat} {target : MonitoringTarget}
    (started : (id, target) ∈ c.startedIn run k) : run = 0 ∧ k = 0 := by
  obtain ⟨r, hr, -, hpasses⟩ := once
  obtain hnone | ⟨hone, e, he⟩ := hpasses
  · exact absurd (by simp [passes, hr, hnone]) past
  have told : ¬(c.sampler.passNo run ≤ k ∧ c.sampler.cycle? run = none) := by
    rintro ⟨hle, idle⟩
    rw [(ht.future hle fun _ => idle).2.1] at started
    cases started
  cases run with
  | zero =>
    have hidle : c.sampler.cycle? 0 = none := by simp [cycle?_eq, hr, Run.cycle?, he]
    have hpass : c.sampler.passNo 0 = 1 := by simp [passNo, passes, hr, hone]
    have hlt : ¬1 ≤ k := fun hle => told ⟨hpass ▸ hle, hidle⟩
    exact ⟨rfl, by omega⟩
  | succ n =>
    refine absurd ⟨?_, ?_⟩ told
    · simp [passNo, passes, hr]
    · simp [cycle?_eq, hr]

variable [SwarmClient κ τ] [SampleStore σ] {view : SampleView σ ρ} {before : List ρ} {c : Chronicle κ τ σ ρ}

/-- A sampler with one run of one cycle that nobody disturbs. -/
structure Calm (view : SampleView σ ρ) (before : List ρ) (c : Chronicle κ τ σ ρ) : Prop where
  right : Right view before c
  tallied : c.Tallied
  once : c.sampler.Once
  keyed : c.sampler.Keyed
  unrefused : c.sampler.writer.Unrefused
  unhalted : ∀ run, c.sampler.runHalted run = false
  /-- Nobody else has stored anything. -/
  own : ∀ row, .foreign row ∉ c.journal

/-- A sampler is calm when its run is added. -/
theorem calm_opened (view : SampleView σ ρ) {s : Sampler (Observed κ) (Nat × τ) σ} (h : s.New) :
    Calm view (view.rows s.store) ((opened s).step view.toRowView (.addRun false)) where
  right := (right_opened view h).step _
  tallied := (tallied_opened h).step (right_opened view h) _
  once := ⟨.start false, by
    rw [step, opened_sampler, move, addRun, h.runs]
    rfl, rfl, .inl rfl⟩
  keyed id t p task := by
    rw [step, opened_sampler, move, addRun, check?, h.checks] at task
    cases task
  unrefused := h.unrefused
  unhalted run := by
    rw [step, opened_sampler, move, addRun, runHalted, h.runs, h.halted]
    cases run <;> rfl
  own row := List.not_mem_nil

/-- No row of others comes of an ordinary move. -/
theorem own_of_ordinary (view : SampleView σ ρ) (s : Sampler (Observed κ) (Nat × τ) σ) {m : Move σ}
    (ordinary : m.isOrdinary = true) (row : ρ) : .foreign row ∉ brings view s m := by
  intro h
  cases m with
  | run run =>
    obtain ⟨first, hran⟩ := (resumeRun_turn s run).ran
    have hnote : brings view s (.run run) = _ := noteRun_eq hran
    rw [hnote, List.mem_append] at h
    rcases h with h | h
    · unfold noteListing at h
      split at h
      · split at h <;> simp at h
      · cases h
    · simp [starts] at h
  | check id =>
    obtain ⟨e, -, he⟩ := List.mem_map.1 h
    cases he
  | work =>
    obtain ⟨r, rest, x, -, -, -, hn⟩ | ⟨-, hn | hn⟩ := noteWork_cases view s
    all_goals
      rw [show brings view s .work = _ from hn] at h
      simp at h
  | clock => cases h
  | cancel | cancelRun | addRun | relist | register | append => cases ordinary

namespace Calm

theorem step (h : Calm view before c) {m : Move σ} (ordinary : m.isOrdinary = true)
    (quiet : (c.step view.toRowView m).Accepting) : Calm view before (c.step view.toRowView m) where
  right := h.right.step m
  tallied := h.tallied.step h.right m
  once := by
    cases m with
    | run id => exact h.once.resumeRun id
    | check id => exact (h.right.checkTurn id).once h.once
    | work | clock => exact h.once
    | cancel | cancelRun | addRun | relist | register | append => cases ordinary
  keyed := by
    cases m with
    | run id =>
      obtain ⟨first, hran⟩ := (resumeRun_turn c.sampler id).ran
      exact hran.keyed h.keyed
    | check id => exact (h.right.checkTurn id).keyed h.keyed
    | work | clock => exact h.keyed
    | cancel | cancelRun | addRun | relist | register | append => cases ordinary
  unrefused := h.right.unrefused_step h.unrefused m quiet
  unhalted run := Bool.eq_false_iff.2 fun halted => by
    rcases (h.right.runHalted m run).1 halted with hr | rfl | ⟨rfl, -⟩
    · exact Bool.false_ne_true ((h.unhalted run).symm.trans hr)
    · cases ordinary
    · cases ordinary
  own row hmem := by
    rcases List.mem_append.1 hmem with hold | hnew
    · exact h.own row hold
    · exact own_of_ordinary view c.sampler ordinary row hnew

theorem steps (ms : List (Move σ)) : ∀ {c : Chronicle κ τ σ ρ}, Calm view before c →
    (∀ m ∈ ms, m.isOrdinary = true) → (c.run view.toRowView ms).Accepting →
    Calm view before (c.run view.toRowView ms) := by
  induction ms with
  | nil => exact fun h _ _ => h
  | cons m ms ih =>
    exact fun h ordinary quiet => ih (h.step (ordinary m List.mem_cons_self) (quiet.earlier ms))
      (fun m hm => ordinary m (List.mem_cons_of_mem _ hm)) quiet

omit [SwarmClient κ τ] in
/-- No check has ended with a failure. -/
theorem not_failed (h : Calm view before c) {run k id : Nat} {why : Failure} :
    .ended run k (.failed why) ∉ c.life id := by
  intro hm
  obtain ⟨a, ha, heq⟩ := List.mem_map.1 ((h.right.lives id).refusal hm)
  obtain ⟨stored, hok⟩ := h.unrefused.answers a (List.mem_filter.1 ha).1
  cases hok.symm.trans heq

omit [SwarmClient κ τ] in
/-- No check is cancelled: a cycle is halted by failures alone. -/
theorem checks_unhalted (h : Calm view before c) (run : Nat) : c.sampler.checksHalted run = false := by
  rw [checksHalted, h.unhalted run, Bool.false_or]
  cases hcycle : c.sampler.cycle? run with
  | none => rfl
  | some cycle =>
    obtain ⟨counted, draw, targets, -, tally⟩ := h.tallied.present hcycle
    rw [Option.any_some, tally.halted, tally.fatal, Option.isSome_eq_false_iff, Option.isNone_iff_eq_none,
      List.findSome?_eq_none_iff]
    intro result hresult
    have hmem : result ∈ c.resultsIn run (c.sampler.passNo run) := tally.arrived ▸ List.mem_append_left _ hresult
    obtain ⟨⟨id, result⟩, hended, rfl⟩ := List.mem_map.1 hmem
    cases result with
    | failed why => exact absurd (mem_endedIn hended) h.not_failed
    | reported | crashed => rfl

omit [SwarmClient κ τ] in
/-- Nothing is told of checks before the cycle begins. -/
theorem life_eq_nil (h : Calm view before c) (unbegun : c.sampler.Unbegun) (id : Nat) : c.life id = [] := by
  obtain ⟨r, hr, -⟩ := h.once
  refine Classical.not_not.1 fun some => ?_
  obtain ⟨e, he⟩ := (h.right.lives id).exists_started some
  have hstarted : (id, e.target) ∈ c.startedIn e.run e.pass := mem_startedIn.2 he
  have hidle : c.sampler.passNo e.run = 0 ∧ c.sampler.cycle? e.run = none := by
    cases hrun : e.run with
    | zero => exact ⟨by rw [passNo, unbegun.1]; rfl, unbegun.2⟩
    | succ n => exact ⟨by simp [passNo, passes, hr], by simp [cycle?_eq, hr]⟩
  rw [(h.tallied.future (by omega) fun _ => hidle.2).2.1] at hstarted
  cases hstarted

omit [SwarmClient κ τ] in
/-- The writer has nothing to do before the cycle begins. -/
theorem work_store (h : Calm view before c) (unbegun : c.sampler.Unbegun) :
    c.sampler.work.store = c.sampler.store := by
  have hline : c.sampler.writer.line = [] := by
    cases hl : c.sampler.writer.line with
    | nil => rfl
    | cons r rest =>
      have hlife := h.right.lives r.ticket
      rw [h.life_eq_nil unbegun] at hlife
      cases (congrArg Standing.requests hlife.eq_unborn).symm.trans (requests_of_line hl)
  have hworked : c.sampler.writer.Worked c.sampler.store c.sampler.work.writer c.sampler.work.store :=
    Writer.work_worked c.sampler.now c.sampler.writer c.sampler.store
  cases hworked with
  | nothing same kept => exact kept
  | stored first | refused first | again first => cases hline.symm.trans first

end Calm

/-! ## What is listed -/

omit [SwarmClient κ τ] [SampleStore σ] in
theorem mem_listingsOf {run k draw : Nat} {targets : List MonitoringTarget} :
    (draw, targets) ∈ c.listingsOf run k ↔ .listed run k draw targets ∈ c.journal := by
  refine ⟨fun h => ?_, fun h => List.mem_filterMap.2 ⟨_, h, if_pos ⟨rfl, rfl⟩⟩⟩
  obtain ⟨e, he, heq⟩ := List.mem_filterMap.1 h
  cases e with
  | listed run' k' draw' targets' =>
    obtain ⟨⟨rfl, rfl⟩, rfl, rfl⟩ : (run' = run ∧ k' = k) ∧ draw' = draw ∧ targets' = targets := by
      simpa [Entry.listing?] using heq
    exact he
  | check | vain | foreign => cases heq

/-- What is listed in a move comes from the source, by a turn of a run that begins a cycle. -/
theorem listed_of_brings {s : Sampler (Observed κ) (Nat × τ) σ} {m : Move σ} {run k draw : Nat}
    {targets : List MonitoringTarget} (h : .listed run k draw targets ∈ brings view s m) :
    m = .run run ∧ s.source.targets s.store = .ok targets ∧ (s.resumeRun run).drawn ≠ s.drawn := by
  cases m with
  | run id =>
    rcases List.mem_append.1 h with h | h
    · unfold noteListing at h
      split at h
      · next listed hsource =>
        split at h
        · cases h
        · next hdrawn =>
          cases List.mem_singleton.1 h
          exact ⟨rfl, hsource, hdrawn⟩
      · cases h
    · obtain ⟨t, -, ht⟩ := List.mem_map.1 h
      cases ht
  | check id =>
    obtain ⟨e, -, he⟩ := List.mem_map.1 h
    cases he
  | work =>
    obtain ⟨r, rest, x, -, -, -, hn⟩ | ⟨-, hn | hn⟩ := noteWork_cases view s
    all_goals
      rw [show brings view s .work = _ from hn] at h
      simp at h
  | append =>
    obtain ⟨row, -, hrow⟩ := List.mem_map.1 h
    cases hrow
  | clock | cancel | cancelRun | addRun | relist | register => cases h

/-- A sampler lists its targets from the store as it found it, to which nothing happens before. -/
structure Given (source : TargetSource σ) (store : σ) (c : Chronicle κ τ σ ρ) : Prop where
  source_eq : c.sampler.source = source
  early : c.sampler.Unbegun → c.sampler.store = store
  listed : ∀ run k draw targets, .listed run k draw targets ∈ c.journal → source.targets store = .ok targets

namespace Given

variable {source : TargetSource σ} {store : σ}

theorem step (h : Given source store c) (calm : Calm view before c) {m : Move σ} (ordinary : m.isOrdinary = true) :
    Given source store (c.step view.toRowView m) where
  source_eq := by
    cases m with
    | run id =>
      obtain ⟨first, hran⟩ := (resumeRun_turn c.sampler id).ran
      have hsource : (c.sampler.resumeRun id).source = c.sampler.source := by rw [hran.same]
      exact hsource.trans h.source_eq
    | check id => exact (calm.right.checkTurn id).source.trans h.source_eq
    | work | clock => exact h.source_eq
    | cancel | cancelRun | addRun | relist | register | append => cases ordinary
  early unbegun := by
    cases m with
    | run id =>
      obtain ⟨hbefore, hstore⟩ := (resumeRun_turn c.sampler id).unbegun calm.once unbegun
      exact hstore.trans (h.early hbefore)
    | check id =>
      have turn := calm.right.checkTurn id
      exact turn.store.trans (h.early (turn.unbegun calm.right.balanced unbegun))
    | work => exact (calm.work_store unbegun).trans (h.early unbegun)
    | clock => exact h.early unbegun
    | cancel | cancelRun | addRun | relist | register | append => cases ordinary
  listed run k draw targets hm := by
    rcases List.mem_append.1 hm with hold | hnew
    · exact h.listed run k draw targets hold
    · obtain ⟨rfl, hsource, hdrawn⟩ := listed_of_brings hnew
      obtain hsame | fresh := calm.once.rests run
      · exact absurd (by rw [hsame]) hdrawn
      · obtain ⟨idle, known⟩ := (resumeRun_turn c.sampler run).drawn.resolve_left hdrawn
        obtain rfl := calm.once.eq_zero known
        rwa [h.source_eq, h.early ⟨fresh, idle⟩] at hsource

theorem steps (ms : List (Move σ)) : ∀ {c : Chronicle κ τ σ ρ}, Given source store c → Calm view before c →
    (∀ m ∈ ms, m.isOrdinary = true) → (c.run view.toRowView ms).Accepting →
    Given source store (c.run view.toRowView ms) := by
  induction ms with
  | nil => exact fun h _ _ _ => h
  | cons m ms ih =>
    intro c h calm ordinary quiet
    have hm := ordinary m List.mem_cons_self
    exact ih (h.step calm hm) (calm.step hm (quiet.earlier ms)) (fun m hm => ordinary m (List.mem_cons_of_mem _ hm))
      quiet

end Given

end Chronicle

end SwarmSampler
