import SwarmSampler.Sampler.Schedule
import SwarmSampler.Proofs.Sampler.Turns
import SwarmSampler.Proofs.Writer.Progress

/-
A sampler in its least moves, in any order: turns of runs and of checks, pieces
of the writer's work, cancellations, and what others do to the clock, to the
list of targets and to the store. Every turn of a task is some moves, and so is
whatever an operator has the program do, so what holds after any moves holds of
the program. A cycle of the program's own takes turns of tasks alone, while time
passes.
-/

namespace SwarmSampler

namespace Sampler

variable {κ τ σ : Type}

/-- What may happen to a sampler. -/
inductive Move (σ : Type)
  | run (id : Nat)
  | check (id : Nat)
  /-- The writer does a piece of its work. -/
  | work
  | clock (instant : Nat)
  | cancel
  | cancelRun (run : Nat)
  | addRun (repeats : Bool)
  /-- The targets come from elsewhere from now on. -/
  | relist (source : TargetSource σ)
  /-- Someone else registers targets. -/
  | register (now : Stamp) (source : String) (targets : List MonitoringTarget)
  /-- Someone else appends a sample. -/
  | append (sample : HealthSample) (metrics : Option MetricsSnapshot)

/-- A task's turn, or time that passes. -/
def Move.isOrdinary : Move σ → Bool
  | .run _ | .check _ | .work | .clock _ => true
  | _ => false

/-- A turn of a run or of a check, or a piece of the writer's work. -/
def Move.isTurn : Move σ → Bool
  | .run _ | .check _ | .work => true
  | _ => false

theorem Move.ordinary_of_turn {m : Move σ} (h : m.isTurn = true) : m.isOrdinary = true := by
  cases m with
  | run | check | work => rfl
  | clock | cancel | cancelRun | addRun | relist | register | append => cases h

/-- The writer has neither stopped nor been killed. -/
def Writes (s : Sampler κ τ σ) : Prop := s.writer.stopped = false ∧ s.writer.killed = false

/-- A piece of the writer's work. -/
def work [SampleStore σ] (s : Sampler κ τ σ) : Sampler κ τ σ :=
  let (writer, store) := s.writer.work s.now s.store
  { s with writer := writer, store := store }

variable [SwarmClient κ τ] [SampleStore σ]

/-- What a move makes of it all. -/
def move (s : Sampler κ τ σ) : Move σ → Sampler κ τ σ
  | .run id => s.resumeRun id
  | .check id => s.resumeCheck id
  | .work => s.work
  | .clock instant => { s with now := instant }
  | .cancel => s.cancel
  | .cancelRun run => s.cancelRun run
  | .addRun repeats => s.addRun repeats
  | .relist source => { s with source := source }
  | .register now source targets =>
    { s with store := (SampleStore.register now source targets s.store).2 }
  | .append sample metrics => { s with store := (SampleStore.append sample metrics s.store).2 }

/-- What some moves make of it all, one after another. -/
def moveAll (s : Sampler κ τ σ) (ms : List (Move σ)) : Sampler κ τ σ := ms.foldl move s

/-- A state that some moves lead to. -/
def Reaches (s s' : Sampler κ τ σ) : Prop := ∃ ms, s' = s.moveAll ms

/-- A state that turns of tasks lead to while time passes. -/
def Proceeds (s s' : Sampler κ τ σ) : Prop := ∃ ms, (∀ m ∈ ms, m.isOrdinary = true) ∧ s' = s.moveAll ms

variable {s s' s'' : Sampler κ τ σ}

theorem moveAll_append (s : Sampler κ τ σ) (ms later : List (Move σ)) :
    s.moveAll (ms ++ later) = (s.moveAll ms).moveAll later := List.foldl_append

theorem Reaches.refl (s : Sampler κ τ σ) : Reaches s s := ⟨[], rfl⟩

theorem Reaches.one (s : Sampler κ τ σ) (m : Move σ) : Reaches s (s.move m) := ⟨[m], rfl⟩

theorem Reaches.trans (h : Reaches s s') (h' : Reaches s' s'') : Reaches s s'' := by
  obtain ⟨ms, rfl⟩ := h
  obtain ⟨later, rfl⟩ := h'
  exact ⟨ms ++ later, (moveAll_append s ms later).symm⟩

theorem Proceeds.refl (s : Sampler κ τ σ) : Proceeds s s := ⟨[], fun _ h => absurd h List.not_mem_nil, rfl⟩

theorem Proceeds.one (s : Sampler κ τ σ) {m : Move σ} (ordinary : m.isOrdinary = true) : Proceeds s (s.move m) :=
  ⟨[m], fun _ h => List.mem_singleton.1 h ▸ ordinary, rfl⟩

theorem Proceeds.trans (h : Proceeds s s') (h' : Proceeds s' s'') : Proceeds s s'' := by
  obtain ⟨ms, ordinary, rfl⟩ := h
  obtain ⟨later, ordinary', rfl⟩ := h'
  exact ⟨ms ++ later, fun m hm => (List.mem_append.1 hm).elim (ordinary m) (ordinary' m),
    (moveAll_append s ms later).symm⟩

theorem Proceeds.reaches (h : Proceeds s s') : Reaches s s' := by
  obtain ⟨ms, -, hs⟩ := h
  exact ⟨ms, hs⟩

/-! ## Which moves concern the writer -/

omit [SwarmClient κ τ] in
/-- What appends keep of the store, a piece of the writer's work keeps. -/
theorem work_keeps {P : σ → Prop}
    (append : ∀ sample metrics store, P store → P (SampleStore.append sample metrics store).2)
    (s : Sampler κ τ σ) (h : P s.store) : P s.work.store := by
  have hworked : s.writer.Worked s.store s.work.writer s.work.store := Writer.work_worked s.now s.writer s.store
  have appended : ∀ {sample metrics result} {store' : σ},
      SampleStore.append sample metrics s.store = (result, store') → P store' := by
    intro sample metrics result store' heq
    have happended := append sample metrics s.store h
    rwa [heq] at happended
  cases hworked with
  | nothing same kept => exact kept ▸ h
  | stored first left answered taken => exact appended taken
  | refused first left answered vain =>
    obtain kept | ⟨e, vain⟩ := vain
    · exact kept ▸ h
    · exact appended vain
  | again first left answered vain => exact appended vain

omit [SwarmClient κ τ] [SampleStore σ] in
theorem CycleTurn.writer {run began : Nat} {cycle : Cycle} (h : CycleTurn run began cycle s s') :
    s'.writer = s.writer := by cases h <;> rfl

omit [SwarmClient κ τ] [SampleStore σ] in
theorem goOnCycle_writer (s : Sampler κ τ σ) (run began : Nat) (cycle : Cycle) :
    (s.goOnCycle run began cycle).writer = s.writer := by
  obtain ⟨_, _, _, hx, ht⟩ := goOnCycle_turn s run began cycle
  obtain ⟨pool, hp⟩ := hx.state
  rw [ht.writer, hp]
  rfl

omit [SwarmClient κ τ] in
theorem RunTurn.writer {run : Nat} (h : RunTurn s run s') : s'.writer = s.writer := by
  cases h with
  | rests | ends | barren => rfl
  | begins | goesOn => exact goOnCycle_writer ..

omit [SwarmClient κ τ] [SampleStore σ] in
theorem collect_writer (s : Sampler κ τ σ) (c : CheckTask τ) (metrics : MetricsReading) :
    (s.collect c metrics).writer = s.writer := by
  unfold collect
  split <;> rfl

omit [SwarmClient κ τ] in
theorem submit_writes (h : s.Writes) (c : CheckTask τ) (o : CheckOutcome) : (s.submit c o).Writes := by
  have hsend : ∀ r, (s.writer.send r).stopped = false ∧ (s.writer.send r).killed = false := fun r => by
    rw [show s.writer.send r = { s.writer with pending := s.writer.pending ++ [r] } from
      if_neg (by rw [h.1]; exact Bool.false_ne_true)]
    exact h
  simp only [Writes, submit, collect_writer]
  exact hsend _

theorem resumeCheck_writes (h : s.Writes) (id : Nat) : (s.resumeCheck id).Writes := by
  unfold resumeCheck
  split
  · exact h
  · next c _ =>
    split
    · rw [Writes, collect_writer]
      exact h
    · split
      · exact h
      · next client' _ => exact submit_writes (s := { s with client := client' }) h c _
      · exact h

/-- No move stops the writer. -/
theorem move_writes (h : s.Writes) (m : Move σ) : (s.move m).Writes := by
  cases m with
  | run id =>
    rw [Writes, move, (resumeRun_turn s id).writer]
    exact h
  | check id => exact resumeCheck_writes h id
  | work =>
    have hw := Writer.work_standing s.now s.writer s.store
    exact ⟨hw.stopped.trans h.1, hw.killed.trans h.2⟩
  | clock | cancel | cancelRun | addRun | relist | register | append => exact h

theorem Reaches.writes (h : Reaches s s') (hw : s.Writes) : s'.Writes := by
  obtain ⟨ms, rfl⟩ := h
  induction ms generalizing s with
  | nil => exact hw
  | cons m ms ih => exact ih (move_writes hw m)

/-! ## Turns are moves -/

theorem works_iterate {now : Nat} {x y : Writer × σ} (h : Writer.Works now x y) :
    ∀ {s : Sampler κ τ σ}, s.now = now → x = (s.writer, s.store) →
      ∃ n, { s with writer := y.1, store := y.2 } = s.moveAll (List.replicate n .work) := by
  induction h with
  | done x =>
    rintro s - rfl
    exact ⟨0, rfl⟩
  | next _ ih =>
    rintro s rfl rfl
    obtain ⟨n, hn⟩ := ih (s := s.work) rfl rfl
    exact ⟨n + 1, hn⟩

/-- A turn of a task is some moves, each a turn of a run or a check or a piece of work. -/
theorem resume_moves (h : s.Writes) (t : Task) : ∃ ms, (∀ m ∈ ms, m.isTurn = true) ∧ s.resume t = s.moveAll ms := by
  cases t with
  | run id => exact ⟨[.run id], fun m hm => List.mem_singleton.1 hm ▸ rfl, rfl⟩
  | check id => exact ⟨[.check id], fun m hm => List.mem_singleton.1 hm ▸ rfl, rfl⟩
  | writer =>
    have hr : s.resumeWriter = { s with
        writer := (s.writer.goOn s.now s.store).1, store := (s.writer.goOn s.now s.store).2 } := by
      simp only [resumeWriter, Writer.resume, h.1, h.2, Bool.false_eq_true, ↓reduceIte]
    rw [resume, hr]
    -- The writer works until it has to wait.
    cases hb : s.writer.busy s.now with
    | true =>
      obtain ⟨n, hn⟩ := works_iterate (.next (Writer.goOn_works hb)) (s := s) rfl rfl
      exact ⟨_, fun m hm => List.eq_of_mem_replicate hm ▸ rfl, hn⟩
    | false =>
      rw [Writer.goOn_of_not_busy hb]
      exact ⟨[], fun _ hm => absurd hm List.not_mem_nil, rfl⟩

theorem proceeds_resume (h : s.Writes) (t : Task) : Proceeds s (s.resume t) := by
  obtain ⟨ms, turns, hs⟩ := resume_moves h t
  exact ⟨ms, fun m hm => Move.ordinary_of_turn (turns m hm), hs⟩

end Sampler

/-! ## Whatever an operator does is moves -/

namespace Schedule

open Sampler

variable {κ τ σ : Type} [SwarmClient κ τ] [SampleStore σ] {s : Schedule κ τ σ}

theorem proceeds_give (h : s.sampler.Writes) (t : Task) : Proceeds s.sampler (s.give t).sampler :=
  proceeds_resume h t

theorem reaches_give (h : s.sampler.Writes) (t : Task) : Reaches s.sampler (s.give t).sampler :=
  (proceeds_give h t).reaches

theorem reaches_jump (s : Schedule κ τ σ) (instant : Nat) :
    Reaches s.sampler (s.jump instant).sampler := by
  unfold jump
  split
  · exact ⟨[.clock instant, .cancel], rfl⟩
  · exact ⟨[.clock instant], rfl⟩

theorem reaches_step {horizon : Option Nat} {s' : Schedule κ τ σ} (h : s.sampler.Writes)
    (hs : s.step horizon = some s') : Reaches s.sampler s'.sampler := by
  unfold step at hs
  split at hs
  · cases hs
    exact reaches_give (s := { s with ready := _ }) h _
  · split at hs
    · cases hs
      exact reaches_give h _
    · obtain ⟨instant, -, rfl⟩ := Option.map_eq_some_iff.1 hs
      exact reaches_jump s instant

theorem reaches_goUntil (done : Schedule κ τ σ → Bool) (horizon : Option Nat) (steps : Nat) :
    ∀ {s : Schedule κ τ σ}, s.sampler.Writes →
      Reaches s.sampler (s.goUntil done horizon steps).sampler := by
  induction steps with
  | zero => exact fun _ => .refl _
  | succ steps ih =>
    intro s h
    unfold goUntil
    split
    · exact .refl _
    · split
      · next s' hs =>
        have hr := reaches_step h hs
        exact hr.trans (ih (hr.writes h))
      · exact .refl _

theorem reaches_sleep (h : s.sampler.Writes) (nanos : Nat) :
    Reaches s.sampler (s.sleep nanos).sampler := reaches_goUntil _ _ _ h

theorem reaches_wait (h : s.sampler.Writes) (run : Nat) (horizon : Option Nat) :
    Reaches s.sampler (s.wait run horizon).sampler := by
  unfold wait
  split
  · exact .refl _
  · exact reaches_goUntil _ _ _ h

theorem reaches_stop (h : s.sampler.Writes) (run : Nat) :
    Reaches s.sampler (s.stop run).sampler := by
  have hc : Reaches s.sampler (s.change (·.cancelRun run)).sampler := .one s.sampler (.cancelRun run)
  exact hc.trans (reaches_wait (hc.writes h) run none)

theorem reaches_cycle (h : s.sampler.Writes) : Reaches s.sampler s.cycle.2.sampler := by
  have ha : Reaches s.sampler (s.sampler.addRun false) := .one s.sampler (.addRun false)
  have hg := reaches_give (s := { s with sampler := s.sampler.addRun false, own := some s.sampler.runs.length })
    (ha.writes h) (.run s.sampler.runs.length)
  exact (ha.trans hg).trans (reaches_goUntil _ _ _ ((ha.trans hg).writes h))

/-- Without alarms a step is a turn of a task, or time that passes. -/
theorem proceeds_step {horizon : Option Nat} {s' : Schedule κ τ σ} (h : s.sampler.Writes) (calm : s.alarms = [])
    (hs : s.step horizon = some s') : Proceeds s.sampler s'.sampler ∧ s'.alarms = [] := by
  unfold step at hs
  split at hs
  · cases hs
    exact ⟨proceeds_give (s := { s with ready := _ }) h _, calm⟩
  · split at hs
    · cases hs
      exact ⟨proceeds_give h _, calm⟩
    · obtain ⟨instant, -, rfl⟩ := Option.map_eq_some_iff.1 hs
      rw [jump, calm, if_neg (by simp)]
      exact ⟨.one s.sampler (m := .clock instant) rfl, rfl⟩

theorem proceeds_goUntil (done : Schedule κ τ σ → Bool) (horizon : Option Nat) (steps : Nat) :
    ∀ {s : Schedule κ τ σ}, s.sampler.Writes → s.alarms = [] →
      Proceeds s.sampler (s.goUntil done horizon steps).sampler := by
  induction steps with
  | zero => exact fun _ _ => .refl _
  | succ steps ih =>
    intro s h calm
    unfold goUntil
    split
    · exact .refl _
    · split
      · next s' hs =>
        obtain ⟨hr, calm'⟩ := proceeds_step h calm hs
        exact hr.trans (ih (hr.reaches.writes h) calm')
      · exact .refl _

/-- **In a cycle of the operator's own without alarms only tasks have turns**, while time passes. -/
theorem proceeds_cycle (h : s.sampler.Writes) (calm : s.alarms = []) :
    Proceeds (s.sampler.addRun false) s.cycle.2.sampler := by
  have hg := proceeds_give (s := { s with sampler := s.sampler.addRun false, own := some s.sampler.runs.length })
    h (.run s.sampler.runs.length)
  exact hg.trans (proceeds_goUntil _ _ _ (hg.reaches.writes h) calm)

theorem reaches_runUntilShutdown (h : s.sampler.Writes) (interruptAt : Option Nat) :
    Reaches s.sampler (s.runUntilShutdown interruptAt).2.sampler := by
  have ha : Reaches s.sampler s.start.2.sampler := .one s.sampler (.addRun true)
  have hw := ha.trans (reaches_wait (ha.writes h) s.start.1 interruptAt)
  simp only [runUntilShutdown]
  split
  · exact hw
  · exact hw.trans (reaches_stop (hw.writes h) _)

end Schedule

end SwarmSampler
