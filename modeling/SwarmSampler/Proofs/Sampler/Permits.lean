import SwarmSampler.Proofs.Sampler.Records
import SwarmSampler.Proofs.Sampler.Stopping

/-
Where the permits are. A permit lies free, or was given to a run that stands in
line for one, or is with a check's task from its start to its end, however that
comes about. None is lost and none is made, so no more checks are on their way
than there are permits, over all runs together.
-/

namespace SwarmSampler

/-! ## The pool -/

namespace Pool

variable {p q : Pool} {who r : Nat}

/-- The permits that are with no check. -/
def spare (p : Pool) : Nat := p.free + p.granted.length

/-- Who stands in line, or was given a permit there and has not used it. -/
def Knows (p : Pool) (who : Nat) : Prop := who ∈ p.line ++ p.granted

/-- Nobody waits twice, and nobody waits while a permit lies free. -/
structure Orderly (p : Pool) : Prop where
  distinct : (p.line ++ p.granted).Nodup
  busy : p.line ≠ [] → p.free = 0

theorem orderly_full (size : Nat) : (full size).Orderly := ⟨.nil, fun h => absurd rfl h⟩

theorem not_knows_full (size who : Nat) : ¬(full size).Knows who := List.not_mem_nil

/-- Who takes a permit is not waiting any more, and one permit less is left. -/
theorem take?_spec (h : p.Orderly) (taken : p.take? who = some q) :
    q.Orderly ∧ q.spare + 1 = p.spare ∧ ¬q.Knows who ∧ ∀ r, q.Knows r → p.Knows r := by
  unfold take? at taken
  split at taken
  · next hg =>
    cases taken
    have hg : who ∈ p.granted := List.contains_iff_mem.1 hg
    have hperm : (p.line ++ p.granted).Perm (who :: (p.line ++ p.granted.erase who)) :=
      ((List.perm_cons_erase hg).append_left p.line).trans List.perm_middle
    obtain ⟨hself, hdistinct⟩ := List.nodup_cons.1 (hperm.nodup_iff.1 h.distinct)
    refine ⟨⟨hdistinct, h.busy⟩, ?_, hself, fun r hr => hperm.mem_iff.2 (List.mem_cons_of_mem _ hr)⟩
    have hpos := List.length_pos_of_mem hg
    simp only [spare, List.length_erase_of_mem hg]
    omega
  · next hg =>
    split at taken
    · next hfree =>
      cases taken
      -- A permit lies free, so nobody stands in line.
      have hline : p.line = [] := Classical.not_not.1 fun hl => by have := h.busy hl; omega
      refine ⟨⟨h.distinct, fun hl => absurd hline hl⟩, ?_, ?_, fun _ hr => hr⟩
      · simp only [spare]
        omega
      · simpa [Knows, hline] using hg
    · cases taken

theorem enqueue_spec (h : p.Orderly) (refused : p.take? who = none) :
    (p.enqueue who).Orderly ∧ (p.enqueue who).spare = p.spare ∧
      ∀ r, r ≠ who → (p.enqueue who).Knows r → p.Knows r := by
  obtain ⟨hg, hfree⟩ : who ∉ p.granted ∧ p.free = 0 := by
    unfold take? at refused
    split at refused
    · cases refused
    · next hg =>
      split at refused
      · cases refused
      · next hfree => exact ⟨fun hm => hg (List.contains_iff_mem.2 hm), Nat.eq_zero_of_not_pos hfree⟩
  unfold enqueue
  split
  · exact ⟨h, rfl, fun _ _ hr => hr⟩
  · next hline =>
    have hperm : (p.line ++ [who] ++ p.granted).Perm (who :: (p.line ++ p.granted)) := by
      rw [List.append_assoc]
      exact List.perm_middle
    refine ⟨⟨hperm.nodup_iff.2 (List.nodup_cons.2 ⟨fun hm => ?_, h.distinct⟩), fun _ => hfree⟩, rfl,
      fun r hne hr => ?_⟩
    · exact (List.mem_append.1 hm).elim (fun hm => hline (List.contains_iff_mem.2 hm)) hg
    · exact (List.mem_cons.1 (hperm.mem_iff.1 hr)).resolve_left hne

/-- A permit given back goes to the first in line, or lies free. -/
theorem release_spec (h : p.Orderly) :
    p.release.Orderly ∧ p.release.spare = p.spare + 1 ∧ ∀ r, p.release.Knows r ↔ p.Knows r := by
  obtain ⟨free, line, granted⟩ := p
  cases line with
  | nil =>
    refine ⟨⟨h.distinct, fun hl => absurd rfl hl⟩, ?_, fun _ => .rfl⟩
    simp only [release, spare]
    omega
  | cons first line =>
    have hperm : (line ++ (granted ++ [first])).Perm (first :: line ++ granted) := by
      rw [← List.append_assoc]
      exact (List.perm_append_singleton first (line ++ granted))
    refine ⟨⟨hperm.nodup_iff.2 h.distinct, fun _ => h.busy (List.cons_ne_nil first line)⟩, ?_,
      fun r => hperm.mem_iff⟩
    simp only [release, spare, List.length_append, List.length_singleton]
    omega

/-- Who stops waiting gives back what was granted, so no permit goes with him. -/
theorem Orderly.withdraw_spec (h : p.Orderly) (who : Nat) :
    (p.withdraw who).Orderly ∧ (p.withdraw who).spare = p.spare ∧ ¬(p.withdraw who).Knows who ∧
      ∀ r, (p.withdraw who).Knows r → p.Knows r := by
  unfold withdraw
  split
  · next hg =>
    have htaken : p.take? who = some { p with granted := p.granted.erase who } := if_pos hg
    obtain ⟨horderly, hspare, hself, hothers⟩ := take?_spec h htaken
    obtain ⟨horderly, hspare', hknows⟩ := release_spec horderly
    exact ⟨horderly, hspare'.trans hspare, fun hk => hself ((hknows who).1 hk),
      fun r hk => hothers r ((hknows r).1 hk)⟩
  · next hg =>
    have hsub : (p.line.erase who ++ p.granted).Sublist (p.line ++ p.granted) :=
      List.erase_sublist.append (List.Sublist.refl _)
    refine ⟨⟨h.distinct.sublist hsub, fun hl => h.busy fun hnil => hl ?_⟩, rfl, fun hk => ?_,
      fun r hk => hsub.subset hk⟩
    · simp only [hnil, List.erase_nil]
    · rcases List.mem_append.1 hk with hk | hk
      · exact (List.nodup_append.1 h.distinct).1.not_mem_erase hk
      · exact hg (List.contains_iff_mem.2 hk)

end Pool

namespace Sampler

variable {κ τ σ : Type} {s s' : Sampler κ τ σ} {size run : Nat}

/-! ## Where the permits are -/

/-- All permits are accounted for, apart from who of the runs that wait has a use for one. -/
structure Conserved (size : Nat) (s : Sampler κ τ σ) : Prop where
  pool : s.pool.Orderly
  sum : s.pool.spare + s.checks.length = size
  distinct : (s.checks.map (·.id)).Nodup
  old : ∀ c ∈ s.checks, c.id < s.started

/-- A run is in a cycle with targets whose checks are still to be started. -/
def Wanting (s : Sampler κ τ σ) (run : Nat) : Prop := ∃ cycle, s.cycle? run = some cycle ∧ cycle.left ≠ []

/-- All permits are accounted for, and only runs that are about to start a check wait for one. -/
structure Permitted (size : Nat) (s : Sampler κ τ σ) : Prop extends Conserved size s where
  waiting : ∀ run, s.pool.Knows run → s.Wanting run

theorem Wanting.congr (h : s.Wanting run) (cycle : s'.cycle? run = s.cycle? run) : s'.Wanting run := by
  obtain ⟨c, hc, hl⟩ := h
  exact ⟨c, cycle.trans hc, hl⟩

theorem Conserved.congr (h : Conserved size s) (pool : s'.pool = s.pool) (started : s'.started = s.started)
    (ids : s'.checks.map (·.id) = s.checks.map (·.id)) : Conserved size s' := by
  have hlength : s'.checks.length = s.checks.length := by simpa using congrArg List.length ids
  refine ⟨pool ▸ h.pool, by rw [pool, hlength]; exact h.sum, ids ▸ h.distinct, fun c hc => ?_⟩
  obtain ⟨u, hu, hid⟩ := List.mem_map.1 (ids ▸ List.mem_map_of_mem hc : c.id ∈ s.checks.map (·.id))
  exact started ▸ hid ▸ h.old u hu

theorem Permitted.congr (h : Permitted size s) (pool : s'.pool = s.pool) (started : s'.started = s.started)
    (ids : s'.checks.map (·.id) = s.checks.map (·.id)) (cycles : ∀ run, s'.cycle? run = s.cycle? run) :
    Permitted size s' :=
  ⟨h.toConserved.congr pool started ids, fun run hk => (h.waiting run (pool ▸ hk)).congr (cycles run)⟩

/-! ## Turns of checks -/

theorem length_filter_ids {checks : List (CheckTask τ)} {id : Nat} (distinct : (checks.map (·.id)).Nodup)
    (present : id ∈ checks.map (·.id)) : (checks.filter (·.id ≠ id)).length + 1 = checks.length := by
  obtain ⟨c, hc, rfl⟩ := List.mem_map.1 present
  simpa using (countP_filter_ne (fun _ => true) distinct hc).symm

/-- A check that ends gives its permit back. -/
theorem Permitted.endCheck (h : Permitted size s) {c : CheckTask τ} (present : c.id ∈ s.checks.map (·.id))
    (result : CheckResult) : Permitted size (s.endCheck c result) := by
  obtain ⟨horderly, hspare, hknows⟩ := Pool.release_spec h.pool
  have hlength := length_filter_ids h.distinct present
  have hsum := h.sum
  refine ⟨⟨horderly, ?_, h.distinct.sublist (List.filter_sublist.map _), fun t ht => ?_⟩, fun run hk => ?_⟩
  · show s.pool.release.spare + (s.checks.filter (·.id ≠ c.id)).length = size
    omega
  · exact h.old t (List.mem_filter.1 ht).1
  · obtain ⟨cycle, hcy, hleft⟩ := h.waiting run ((hknows run).1 hk)
    by_cases hr : run = c.run
    · subst hr
      exact ⟨_, cycle?_endCheck_self hcy result, hleft⟩
    · exact ⟨cycle, (cycle?_congr ((runs_withRun ..).trans (if_neg hr))).trans hcy, hleft⟩

theorem Permitted.check [SwarmClient κ τ] [SampleStore σ] (h : Permitted size s) (id : Nat) :
    Permitted size (s.resumeCheck id) := by
  have holding : ∀ {s'}, Holding s s' → Permitted size s' := fun hs =>
    h.congr hs.pool hs.started hs.ids fun run => cycle?_congr (by rw [hs.runs])
  obtain hs | ⟨c, last, result, task, hlast, he⟩ := resumeCheck_holding s id
  · exact holding hs
  · rw [he]
    exact (holding hlast).endCheck (hlast.ids ▸ List.mem_map_of_mem (mem_of_check? task).1) result

/-! ## Turns of runs -/

/-- Who has got a permit starts a check with it. -/
theorem Conserved.start (h : Conserved size s) {pool : Pool} (taken : s.pool.take? run = some pool)
    (target : MonitoringTarget) : Conserved size ({ s with pool := pool }.startCheck run target) := by
  obtain ⟨horderly, hspare, -, -⟩ := Pool.take?_spec h.pool taken
  have hsum := h.sum
  refine ⟨horderly, ?_, ?_, fun c hc => ?_⟩
  · simp only [startCheck, List.length_append, List.length_singleton]
    omega
  · simp only [startCheck, List.map_append, List.map_cons, List.map_nil]
    refine List.nodup_append.2 ⟨h.distinct, List.pairwise_singleton _ _, fun i hi j hj => ?_⟩
    obtain ⟨c, hc, rfl⟩ := List.mem_map.1 hi
    rw [List.mem_singleton.1 hj]
    exact Nat.ne_of_lt (h.old c hc)
  · rcases List.mem_append.1 hc with hc | hc
    · exact Nat.lt_succ_of_lt (h.old c hc)
    · rw [List.mem_singleton.1 hc]
      exact Nat.lt_succ_self _

/-- A run that starts checks takes a permit for each, and waits for one only if targets are left. -/
theorem Conserved.startChecks (run : Nat) (left : List MonitoringTarget) :
    ∀ (cycle : Cycle) {s : Sampler κ τ σ}, Conserved size s → (s.pool.Knows run → left ≠ []) →
      let x := startChecks run left cycle s
      Conserved size x.2 ∧ (x.2.pool.Knows run → x.1.left ≠ []) ∧
        ∀ r, r ≠ run → x.2.pool.Knows r → s.pool.Knows r := by
  -- Each check that is started changes the pool and the cycle, so the claim is about all of them.
  induction left with
  | nil =>
    intro cycle s h wants
    exact ⟨h, fun hk => absurd rfl (wants hk), fun _ _ hk => hk⟩
  | cons target left ih =>
    intro cycle s h wants
    unfold Sampler.startChecks
    split
    · obtain ⟨horderly, hspare, hself, hothers⟩ := h.pool.withdraw_spec run
      have hsum := h.sum
      refine ⟨⟨horderly, ?_, h.distinct, h.old⟩, fun hk => absurd hk hself, fun r _ => hothers r⟩
      rw [hspare]
      exact hsum
    · split
      · next refused =>
        obtain ⟨horderly, hspare, hothers⟩ := Pool.enqueue_spec h.pool refused
        refine ⟨⟨horderly, ?_, h.distinct, h.old⟩, fun _ => List.cons_ne_nil _ _, hothers⟩
        rw [hspare]
        exact h.sum
      · next pool taken =>
        obtain ⟨-, -, hself, hothers⟩ := Pool.take?_spec h.pool taken
        obtain ⟨hc, hw, hr⟩ := ih { cycle with uncounted := cycle.uncounted + 1 } (h.start taken target)
          fun hk => absurd hk hself
        exact ⟨hc, hw, fun r hne hk => hothers r (hr r hne hk)⟩

/-- Where a cycle stands after it has started checks, its run waits only if targets are left. -/
theorem CycleTurn.permitted {began : Nat} {cycle : Cycle} (turn : CycleTurn run began cycle s s')
    (h : Conserved size s) (known : run < s.runs.length)
    (others : ∀ r, r ≠ run → s.pool.Knows r → s.Wanting r) (own : s.pool.Knows run → cycle.left ≠ []) :
    Permitted size s' := by
  have hpool : s'.pool = s.pool := by rw [turn.same]
  have hconserved : Conserved size s' := by cases turn <;> exact h.congr rfl rfl rfl
  refine ⟨hconserved, fun r hk => ?_⟩
  rw [hpool] at hk
  by_cases hr : r = run
  · subst hr
    cases turn with
    | starts left => exact ⟨cycle, cycle?_withPhase known _, left⟩
    | counts left => exact absurd left (own hk)
    | ends left => exact absurd left (own hk)
  · exact (others r hr hk).congr (cycle?_congr (turn.others hr))

theorem Permitted.goOnCycle (h : Conserved size s) (known : run < s.runs.length) (began : Nat) (cycle : Cycle)
    (others : ∀ r, r ≠ run → s.pool.Knows r → s.Wanting r) (own : s.pool.Knows run → cycle.left ≠ []) :
    Permitted size (s.goOnCycle run began cycle) := by
  obtain ⟨hconserved, hown, hothers⟩ := Conserved.startChecks run cycle.left cycle h own
  obtain ⟨first, rest, hstarting⟩ := startChecks_starting run cycle.left cycle s
  obtain ⟨pool, hp⟩ := hstarting.state
  have hruns : (Sampler.startChecks run cycle.left cycle s).2.runs = s.runs := by rw [hp]; rfl
  refine (goOnCycle_started s run began cycle).permitted hconserved (hruns ▸ known) (fun r hr hk => ?_) hown
  exact (others r hr (hothers r hr hk)).congr (cycle?_congr (by rw [hruns]))

theorem Permitted.runTurn [SampleStore σ] (h : Permitted size s) (turn : RunTurn s run s') :
    Permitted size s' := by
  -- A run that is in no cycle does not wait for a permit.
  have idles : s.cycle? run = none → ¬s.pool.Knows run := fun idle hk => by
    obtain ⟨cycle, hcy, -⟩ := h.waiting run hk
    cases idle.symm.trans hcy
  cases turn with
  | rests => exact h
  | ends idle => exact h.congr rfl rfl rfl (cycle?_over idle _)
  | @barren f store drawn idle known =>
    refine h.congr rfl rfl rfl fun r => ?_
    by_cases hr : r = run
    · rw [hr, cycle?_endCycle, idle]
    · exact cycle?_congr ((runs_withRun ..).trans (if_neg hr))
  | @begins targets n store idle known =>
    have listed : Conserved size ({ s with store := store, drawn := s.drawn + 1 } : Sampler κ τ σ) :=
      h.toConserved.congr rfl rfl rfl
    exact .goOnCycle listed known _ _ (fun r _ hk => h.waiting r hk) fun hk => absurd hk (idles idle)
  | goesOn busy phase =>
    refine .goOnCycle h.toConserved (List.getElem?_eq_some_iff.1 busy).1 _ _ (fun r _ hk => h.waiting r hk)
      fun hk => ?_
    obtain ⟨cycle, hcy, hleft⟩ := h.waiting run hk
    exact Option.some.inj (hcy.symm.trans (cycle?_of_phase busy phase)) ▸ hleft

/-! ## Every move -/

variable [SwarmClient κ τ] [SampleStore σ]

theorem Permitted.move (h : Permitted size s) (m : Move σ) : Permitted size (s.move m) := by
  cases m with
  | run run => exact h.runTurn (resumeRun_turn s run)
  | check id => exact h.check id
  | cancelRun run => exact h.congr rfl rfl rfl (cycle?_cancelRun s run)
  | addRun repeats => exact h.congr rfl rfl rfl fun r => (addRun_eq s repeats r).1
  | work | clock | cancel | relist | register | append => exact h.congr rfl rfl rfl fun _ => rfl

theorem Permitted.moves (ms : List (Move σ)) (h : Permitted size s) : Permitted size (s.moveAll ms) := by
  induction ms generalizing s with
  | nil => exact h
  | cons m ms ih => exact ih (h.move m)

omit [SwarmClient κ τ] [SampleStore σ] in
theorem permitted_opened {settings : Settings} {chance : Chance} {source : TargetSource σ} {client : κ}
    {store : σ} (opens : ofSettings settings chance source client store = .ok s) :
    Permitted settings.concurrency.toNat s := by
  obtain ⟨-, policy, rfl⟩ := eq_of_ofSettings opens
  exact ⟨⟨Pool.orderly_full _, rfl, .nil, fun _ hc => absurd hc List.not_mem_nil⟩,
    fun run hk => absurd hk (Pool.not_knows_full _ run)⟩

end Sampler

/-- Whether a query of the check is on its way. -/
def CheckTask.asks {τ : Type} (c : CheckTask τ) : Bool :=
  match c.stage with
  | .probing { phase := .asking .., .. } => true
  | _ => false

namespace Sampler

variable {κ τ σ : Type} [SwarmClient κ τ] [SampleStore σ]

/-- **The bound on checks holds across all runs.** However runs, their checks and the writer take turns,
however many runs are started, overlap and are cancelled, and whatever the client and the store do: the
permits that lie free, those that were given to runs which are about to start a check, and those of the
checks that are on their way add up to the permits there were. So no more checks are on their way, and no
more of them ask their client, than there are permits. -/
theorem permits_conserved {settings : Settings} {chance : Chance} {source : TargetSource σ} {client : κ}
    {store : σ} {s : Sampler κ τ σ} (opens : ofSettings settings chance source client store = .ok s)
    (ms : List (Move σ)) :
    let s' := s.moveAll ms
    let size := settings.concurrency.toNat
    s'.pool.free + s'.pool.granted.length + s'.checks.length = size ∧
      (s'.pool.granted.Nodup ∧ ∀ run ∈ s'.pool.granted, s'.Wanting run) ∧
      (s'.checks.map (·.id)).Nodup ∧
      s'.checks.length ≤ size ∧ s'.checks.countP (·.asks) ≤ size := by
  intro s' size
  have h : Permitted size s' := (permitted_opened opens).moves ms
  have hsum : s'.pool.spare + s'.checks.length = size := h.sum
  have hchecks : s'.checks.length ≤ size := by omega
  refine ⟨hsum, ⟨(List.nodup_append.1 h.pool.distinct).2.1, fun run hg => ?_⟩, h.distinct, hchecks,
    Nat.le_trans List.countP_le_length hchecks⟩
  exact h.waiting run (List.mem_append_right _ hg)

/-- Two runs come upon two permits. The first has a check reported and another on its way, and both runs
wait by then: the permit that comes back goes to the first in line, which has yet to use it. -/
def crowdedMoves : List (Move FaultyStore) :=
  [.addRun true, .addRun false, .run 0, .run 1, .check 0, .check 1, .clock 1000000000, .check 0, .work, .work,
    .check 0]

theorem permits_conserved_crowded :
    let s' := Chronicle.stopped.moveAll crowdedMoves
    (s'.pool.granted, s'.pool.line, s'.checks.map (·.id), s'.checks.countP (·.asks)) = ([0], [1], [1], 1) ∧
      s'.pool.free + s'.pool.granted.length + s'.checks.length = 2 ∧
      ∀ run ∈ s'.pool.granted, s'.Wanting run := by
  intro s'
  have opens : ofSettings Chronicle.stoppedSettings .still (.ofList Chronicle.stoppedTargets)
      (Observed.of (⟨[], .ok ⟨2, 1⟩, 1000000000, [], []⟩ : ScriptedClient)) Chronicle.stopped.store =
        .ok Chronicle.stopped := rfl
  obtain ⟨hsum, ⟨-, hwanting⟩, -⟩ := permits_conserved opens crowdedMoves
  exact ⟨by decide +kernel, hsum, hwanting⟩

end Sampler

end SwarmSampler
