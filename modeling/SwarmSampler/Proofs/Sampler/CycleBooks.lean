import Mathlib
import SwarmSampler.Client.Scripted
import SwarmSampler.Proofs.Sampler.Accepting
import SwarmSampler.Proofs.Sampler.Accounts
import SwarmSampler.Proofs.Target.FirstById

/-
The books of a cycle that has come to a summary. They tell which targets it was
given and which of them it checks, that each of these is checked once, and what
has become of every check: a row and a report that tell the same, or neither if
the writer refused the sample or the client broke down. Nothing is lost, nothing
is counted twice, and no other row of the store comes from a check.
-/

namespace SwarmSampler

/-! ## Which targets a cycle checks -/

/-- How many ids the eligible targets have. -/
def eligibleIds (targets : List MonitoringTarget) : Nat :=
  ((targets.filter (·.eligible)).map (·.id)).toFinset.card

/-- How many targets are checked of some number of them. -/
def Selection.cap : Selection → Nat → Nat
  | all, n => n
  | randomSubset size, n => min size.toNat n

theorem eligibleOnce_length (targets : List MonitoringTarget) :
    (eligibleOnce targets).length = eligibleIds targets := by
  have hset : ((eligibleOnce targets).map (·.id)).toFinset =
      ((targets.filter (·.eligible)).map (·.id)).toFinset := by
    ext i
    have hiff : ∀ ts : List MonitoringTarget, i ∈ ts.map (·.id) ↔ (ts.find? (·.id = i)).isSome = true := by
      intro ts
      simp [List.find?_isSome]
    rw [List.mem_toFinset, List.mem_toFinset, hiff, hiff, eligibleOnce, firstById_find?]
  have hnodup : ((eligibleOnce targets).map (·.id)).Nodup := firstById_nodup _
  rw [eligibleIds, ← hset, List.toFinset_card_of_nodup hnodup, List.length_map]

/-- The chosen targets have ids of their own, are the first eligible ones that have them, and are as
many as the selection asks for. -/
theorem Selection.choose_eligible (selection : Selection)
    {shuffle : List MonitoringTarget → List MonitoringTarget} (hs : ∀ ts, (shuffle ts).Perm ts)
    (targets : List MonitoringTarget) :
    let chosen := selection.choose shuffle (eligibleOnce targets)
    (chosen.map (·.id)).Nodup ∧ chosen.length = selection.cap (eligibleIds targets) ∧
      ∀ t ∈ chosen, (targets.filter (·.eligible)).find? (·.id = t.id) = some t := by
  have hnodup : ((eligibleOnce targets).map (·.id)).Nodup := firstById_nodup _
  have hfirst : ∀ t ∈ eligibleOnce targets, (targets.filter (·.eligible)).find? (·.id = t.id) = some t := by
    intro t ht
    rw [← firstById_find?]
    exact find?_of_nodup hnodup ht
  cases selection with
  | all => exact ⟨hnodup, eligibleOnce_length targets, hfirst⟩
  | randomSubset size =>
    have hp := hs (eligibleOnce targets)
    refine ⟨?_, ?_, fun t ht => hfirst t (hp.subset (List.take_subset _ _ ht))⟩
    · exact ((hp.map _).nodup_iff.2 hnodup).sublist ((List.take_sublist ..).map _)
    · rw [choose, List.length_take, hp.length_eq, eligibleOnce_length]
      rfl

/-! ## What has become of a check -/

/-- A report tells of a sample. -/
structure CheckReport.Tells (r : CheckReport) (target : MonitoringTarget) (x : HealthSample) : Prop where
  sampleId : r.sampleId = x.id
  targetId : r.targetId = target.id
  url : r.url = target.url
  outcome : r.outcome = x.outcome
  counts : r.counts = x.counts
  attempts : r.attempts = x.attempts
  reason : r.reason = x.reason
  timestamp : r.timestamp = x.timestamp

/-- What has become of a check that is over, by what the writer has answered and what has happened. -/
inductive Fate {σ ρ : Type} [SampleStore σ] (view : SampleView σ ρ) (e : Errand) :
    List AppendAnswer → List (CheckEvent ρ) → Prop
  /-- One row was stored, and then one report was published. Row and report tell of the same sample,
  the check's own but for its time. -/
  | reported {qs : List (Nat × String)} {f : Finding} {row : ρ} {report : CheckReport} {x : HealthSample}
      (own : f.Of e.target) (same : x = { f.sample with timestamp := x.timestamp })
      (stored : view.read row = some x) (tells : report.Tells e.target x) :
      Fate view e [.ok x] (.started e :: questions qs ++ [.settled f, .stored row, .published report,
        .ended e.run e.pass (.reported report)])
  /-- The writer answered with an error. -/
  | refused {qs : List (Nat × String)} {f : Finding} {why : Failure} (own : f.Of e.target) :
      Fate view e [.error why] (.started e :: questions qs ++ [.settled f, .ended e.run e.pass (.failed why)])
  /-- The client broke down. -/
  | crashed {qs : List (Nat × String)} :
      Fate view e [] (.started e :: questions qs ++ [.ended e.run e.pass .crashed])

theorem CheckReport.ofSample_tells (target : MonitoringTarget) (metrics : MetricsReading) (x : HealthSample) :
    (ofSample target metrics x).Tells target x := ⟨rfl, rfl, rfl, rfl, rfl, rfl, rfl, rfl⟩

section

variable {τ σ ρ : Type} [SampleStore σ] {view : SampleView σ ρ} {id : Nat}

/-- A check that was started and is not on its way any more has met its fate. -/
theorem Life.fate {st : Standing τ} {events : List (CheckEvent ρ)} (h : Life view.toRowView id st events)
    (gone : st.task = none) {e : Errand} (he : .started e ∈ events) : Fate view e st.answers events := by
  obtain ⟨rest, hrest⟩ := h.cons_of_started he
  cases h with
  | unborn => cases he
  | probing | waiting | stored | refused => cases gone
  | reported own taken =>
    cases hrest
    obtain ⟨store, store', htaken⟩ := taken
    exact .reported own (view.asked htaken) (view.read_row htaken) (CheckReport.ofSample_tells ..)
  | failed own =>
    cases hrest
    exact .refused own
  | crashed =>
    cases hrest
    exact .crashed

/-- A check ends with the writer's error. -/
theorem Life.refusal {st : Standing τ} {events : List (CheckEvent ρ)} (h : Life view.toRowView id st events)
    {run k : Nat} {why : Failure} (he : .ended run k (.failed why) ∈ events) : .error why ∈ st.answers := by
  cases h with
  | unborn => cases he
  | probing | waiting | stored | refused | reported | crashed => simp [questions] at he
  | failed =>
    obtain ⟨-, -, rfl⟩ : _ ∧ _ ∧ why = _ := by simpa [questions] using he
    exact List.mem_singleton_self _

theorem start?_questions (qs : List (Nat × String)) (run k : Nat) :
    (questions qs : List (CheckEvent ρ)).filterMap (CheckEvent.start? run k) = [] := by
  simp [questions, CheckEvent.start?]

theorem end?_questions (qs : List (Nat × String)) (run k : Nat) :
    (questions qs : List (CheckEvent ρ)).filterMap (CheckEvent.end? run k) = [] := by
  simp [questions, CheckEvent.end?]

/-- A check is started once. -/
theorem Life.start_once {st : Standing τ} {events : List (CheckEvent ρ)}
    (h : Life view.toRowView id st events) (run k : Nat) :
    events.filterMap (CheckEvent.start? run k) = [] ∨ ∃ target,
      CheckEvent.started ⟨run, k, target⟩ ∈ events ∧ events.filterMap (CheckEvent.start? run k) = [target] := by
  have first : ∀ (e : Errand) (qs : List (Nat × String)) (rest : List (CheckEvent ρ)),
      rest.filterMap (CheckEvent.start? run k) = [] →
      let events := .started e :: questions qs ++ rest
      events.filterMap (CheckEvent.start? run k) = [] ∨ ∃ target,
        CheckEvent.started ⟨run, k, target⟩ ∈ events ∧
          events.filterMap (CheckEvent.start? run k) = [target] := by
    intro e qs rest hr events
    by_cases he : e.run = run ∧ e.pass = k
    · obtain ⟨rfl, rfl⟩ := he
      exact .inr ⟨e.target, List.mem_cons_self, by simp [events, CheckEvent.start?, start?_questions, hr]⟩
    · exact .inl (by simp [-List.filterMap_eq_nil_iff, events, CheckEvent.start?, he, start?_questions, hr])
  cases h with
  | unborn => exact .inl rfl
  | @probing e qs p =>
    have h := first e qs [] rfl
    rwa [List.append_nil] at h
  | waiting | stored | refused | reported | failed | crashed => exact first _ _ _ rfl

/-- A check ends in the cycle it was started in. -/
theorem Life.end_started {st : Standing τ} {events : List (CheckEvent ρ)}
    (h : Life view.toRowView id st events) (run k : Nat)
    (none : events.filterMap (CheckEvent.start? run k) = []) :
    events.filterMap (CheckEvent.end? run k) = [] := by
  cases h with
  | unborn => rfl
  | probing | waiting | stored | refused =>
    simp [-List.filterMap_eq_nil_iff, List.filterMap_cons, CheckEvent.end?, end?_questions]
  | @reported e | @failed e | @crashed e =>
    by_cases he : e.run = run ∧ e.pass = k
    · simp [CheckEvent.start?, he] at none
    · simp [-List.filterMap_eq_nil_iff, List.filterMap_cons, CheckEvent.end?, end?_questions, he]

theorem Fate.end_once {target : MonitoringTarget} {run k : Nat} {answers : List AppendAnswer}
    {events : List (CheckEvent ρ)} (h : Fate view ⟨run, k, target⟩ answers events) :
    (events.filterMap (CheckEvent.end? run k)).length = 1 := by
  cases h <;> simp [List.filterMap_cons, CheckEvent.end?, end?_questions]

end

namespace Chronicle

open Sampler

variable {κ τ σ ρ : Type} {c : Chronicle κ τ σ ρ} {run k id : Nat}

/-- What is told of a check is what has happened to it. -/
theorem told_of_life {β : Type} (f : CheckEvent ρ → Option β) (journal : List (Entry ρ)) (id : Nat) :
    (journal.filterMap (Entry.told f)).filter (·.1 = id) =
      ((journal.filterMap (Entry.of? id)).filterMap f).map (Prod.mk id) := by
  induction journal with
  | nil => rfl
  | cons e es ih =>
    cases e with
    | listed | vain | foreign => exact ih
    | check i event =>
      rw [List.filterMap_cons, List.filterMap_cons]
      by_cases h : i = id
      · subst h
        cases hf : f event <;> simp [Entry.told, Entry.of?, hf, ih]
      · cases hf : f event <;> simp [Entry.told, Entry.of?, h, hf, ih]

theorem count_told {β : Type} (f : CheckEvent ρ → Option β) (c : Chronicle κ τ σ ρ) (id : Nat) :
    ((c.journal.filterMap (Entry.told f)).map (·.1)).count id = ((c.life id).filterMap f).length := by
  have h := congrArg List.length (told_of_life f c.journal id)
  rw [List.length_map] at h
  rw [List.count, List.countP_map, List.countP_eq_length_filter, life, ← h]
  exact congrArg List.length (List.filter_congr fun x _ => beq_eq_decide x.1 id)

section

variable [SampleStore σ] {view : SampleView σ ρ} {before : List ρ}

/-- The checks of a cycle that the run has been through are over. -/
theorem Right.over_of_past (h : Right view before c) (past : k < c.sampler.passNo run)
    {target : MonitoringTarget} (started : CheckEvent.started ⟨run, k, target⟩ ∈ c.life id) :
    (c.sampler.standing id).task = none := by
  cases htask : (c.sampler.standing id).task with
  | none => rfl
  | some t =>
    obtain ⟨-, rfl, -⟩ := h.task_of_started started htask
    exact absurd past (Nat.lt_irrefl _)

theorem Right.fate (h : Right view before c) (past : k < c.sampler.passNo run)
    {target : MonitoringTarget} (started : CheckEvent.started ⟨run, k, target⟩ ∈ c.life id) :
    Fate view ⟨run, k, target⟩ (c.sampler.standing id).answers (c.life id) :=
  (h.lives id).fate (h.over_of_past past started) started

/-- Every check of a cycle that the run has been through has ended, and none has ended twice. -/
theorem Right.ended_perm (h : Right view before c) (past : k < c.sampler.passNo run) :
    ((c.endedIn run k).map (·.1)).Perm ((c.startedIn run k).map (·.1)) ∧
      ((c.startedIn run k).map (·.1)).Nodup := by
  -- By its life, a check is in each list once or not at all.
  have hstart := fun id => (h.lives id).start_once run k
  refine ⟨List.perm_iff_count.2 fun id => ?_, List.nodup_iff_count_le_one.2 fun id => ?_⟩
  · rw [endedIn, startedIn, Entry.end?, Entry.start?, count_told, count_told]
    obtain hnone | ⟨target, hm, hone⟩ := hstart id
    · rw [hnone, (h.lives id).end_started run k hnone]
      rfl
    · rw [hone, (h.fate past hm).end_once]
      rfl
  · rw [startedIn, Entry.start?, count_told]
    obtain hnone | ⟨target, hm, hone⟩ := hstart id
    · rw [hnone]
      exact Nat.zero_le 1
    · rw [hone]
      exact Nat.le_refl 1

/-- What the books say of a cycle that has come to a summary. -/
structure Accounted (view : SampleView σ ρ) (c : Chronicle κ τ σ ρ) (run k : Nat)
    (targets chosen : List MonitoringTarget) (summary : CycleSummary) : Prop where
  /-- The targets that are passed over are counted. -/
  ineligible : summary.ineligible = (targets.filter (!·.eligible)).length
  /-- As many targets are chosen as there are eligible ids, unless the selection caps them. -/
  selected : summary.selected = c.sampler.plan.selection.cap (eligibleIds targets) ∧
    chosen.length = summary.selected
  /-- The chosen targets are the first eligible ones of their ids. -/
  eligible : ∀ t ∈ chosen, (targets.filter (·.eligible)).find? (·.id = t.id) = some t
  distinct : (chosen.map (·.id)).Nodup
  /-- Each chosen target is checked at most once, in order, and exactly once unless the run was
  cancelled. -/
  started : c.targetsIn run k <+: chosen
  whole : c.sampler.runHalted run = false → c.targetsIn run k = chosen
  numbered : ((c.startedIn run k).map (·.1)).Nodup
  /-- Every check that was started is counted, once and by what it came to. -/
  counted : summary.ok + summary.noPeers + summary.errors + summary.storeFailures =
    (c.startedIn run k).length
  results : summary = (c.resultsIn run k).foldl CycleSummary.count
    (.start summary.selected summary.ineligible)
  ended : ((c.endedIn run k).map (·.1)).Perm ((c.startedIn run k).map (·.1))
  fates : ∀ p ∈ c.startedIn run k,
    Fate view ⟨run, k, p.2⟩ (c.sampler.standing p.1).answers (c.life p.1)

theorem Right.accounted (h : Right view before c) (ht : c.Tallied) {pass : Pass}
    (hp : (c.sampler.passes run)[k]? = some pass) {summary : CycleSummary} (hr : pass.result = .ok summary) :
    ∃ draw targets, c.listingsOf run k = [(draw, targets)] ∧
      Accounted view c run k targets (c.sampler.chosenOf draw targets) summary := by
  have past : k < c.sampler.passNo run := (List.getElem?_eq_some_iff.1 hp).1
  have hclosed := ht.past hp
  rw [hr] at hclosed
  obtain ⟨cycle, ⟨draw, targets, hlisting, htally⟩, hleft, huncounted, rfl⟩ := hclosed.of_ok
  obtain ⟨hnodup, hlength, hfirst⟩ := c.sampler.plan.selection.choose_eligible
    (c.sampler.chance.shuffle_perm draw) targets
  obtain ⟨hperm, hids⟩ := h.ended_perm past
  have hsummary : cycle.summary = (c.resultsIn run k).foldl CycleSummary.count
      (.start (c.sampler.chosenOf draw targets).length (ineligibleCount targets)) := htally.summary
  have hkept := Cycle.kept_foldl (c.resultsIn run k)
    (.start (c.sampler.chosenOf draw targets).length (ineligibleCount targets))
  rw [← hsummary] at hkept
  obtain ⟨hselected, hineligible⟩ := hkept
  have hsplit : c.targetsIn run k = c.sampler.chosenOf draw targets ∨
      c.targetsIn run k <+: c.sampler.chosenOf draw targets ∧ c.sampler.runHalted run = true := by
    obtain hs | ⟨-, hs⟩ := htally.split
    · rw [hleft, List.append_nil] at hs
      exact .inl hs
    · exact .inr hs
  refine ⟨draw, targets, hlisting, {
    ineligible := hineligible.trans List.countP_eq_length_filter
    selected := ⟨hselected.trans hlength, hselected.symm⟩
    eligible := hfirst
    distinct := hnodup
    started := hsplit.elim (fun hs => hs ▸ List.prefix_rfl) (·.1)
    whole := fun hr => hsplit.resolve_right fun hs => Bool.false_ne_true (hr.symm.trans hs.2)
    numbered := hids
    counted := ?_
    results := by rw [hselected, hineligible]; exact hsummary
    ended := hperm
    fates := fun p hp => h.fate past (mem_startedIn.1 hp) }⟩
  have hcounted := Cycle.counted_foldl (c.resultsIn run k)
    (.start (c.sampler.chosenOf draw targets).length (ineligibleCount targets))
  rw [← hsummary] at hcounted
  have hall := htally.uncounted
  rw [huncounted, targetsIn, List.length_map] at hall
  exact hcounted.trans ((Nat.zero_add _).trans hall.symm)

/-- The books of a sampler: the rows that the store has gained and the reports are those of the
journal, and what is put down to a check is that of one check of one cycle. -/
structure Kept (view : SampleView σ ρ) (before : List ρ) (c : Chronicle κ τ σ ρ) : Prop where
  rows : view.rows c.sampler.store = before ++ c.journal.filterMap Entry.row?
  reports : c.sampler.reports = c.journal.filterMap Entry.report?
  owned : ∀ {id event}, .check id event ∈ c.journal → ∃ run k target, (id, target) ∈ c.startedIn run k
  one : ∀ {id run k target run' k' target'}, (id, target) ∈ c.startedIn run k →
    (id, target') ∈ c.startedIn run' k' → run = run' ∧ k = k' ∧ target = target'

theorem Right.kept (h : Right view before c) : Kept view before c where
  rows := h.rows
  reports := h.reports
  owned {id event} he := by
    obtain ⟨e, hs⟩ := (h.lives id).exists_started (List.ne_nil_of_mem (mem_life.2 he))
    exact ⟨e.run, e.pass, e.target, mem_startedIn.2 hs⟩
  one {id run k target run' k' target'} hs hs' := by
    obtain ⟨rest, hrest⟩ := (h.lives id).cons_of_started (mem_startedIn.1 hs)
    obtain ⟨rest', hrest'⟩ := (h.lives id).cons_of_started (mem_startedIn.1 hs')
    rw [hrest, List.cons.injEq, CheckEvent.started.injEq, Errand.mk.injEq] at hrest'
    exact hrest'.1

end

section

variable [SwarmClient κ τ] [SampleStore σ] {view : SampleView σ ρ} {before : List ρ}
  {s : Sampler (Observed κ) (Nat × τ) σ}

/-- A run that nobody cancels is not cancelled. -/
theorem Right.not_halted (ms : List (Move σ)) : ∀ {c : Chronicle κ τ σ ρ}, Right view before c →
    c.sampler.runHalted run = false → (∀ m ∈ ms, m ≠ .cancel ∧ m ≠ .cancelRun run) →
    (c.run view.toRowView ms).sampler.runHalted run = false := by
  induction ms with
  | nil => exact fun _ hh _ => hh
  | cons m ms ih =>
    intro c h hh hms
    obtain ⟨hm, hms⟩ := List.forall_mem_cons.1 hms
    refine ih (h.step m) (Bool.eq_false_iff.2 fun hhalt => ?_) hms
    rcases (h.runHalted m run).1 hhalt with hr | rfl | ⟨rfl, -⟩
    · exact Bool.false_ne_true (hh.symm.trans hr)
    · exact hm.1 rfl
    · exact hm.2 rfl

omit [SwarmClient κ τ] in
/-- Without a history there is no trend. -/
theorem trendWith_unread (depth : UInt64) {sample : HealthSample} {store : σ}
    (unread : ∀ n, ∃ e, SampleStore.lastOk sample.targetId n store = .error e) :
    trendWith depth sample store = .insufficient 0 := by
  simp only [trendWith]
  generalize (if depth < 2 then 2 else depth) = n
  obtain ⟨e, he⟩ := unread (n - 1)
  obtain ⟨e', he'⟩ := unread n
  by_cases ho : sample.outcome = .ok
  · rw [if_pos ho, he]
    rfl
  · rw [if_neg ho, he']

/-- A check that settles while the history cannot be read has no trend, and its sample goes to the
writer all the same. -/
theorem Right.settles_without_history (h : Right view before c) {t : CheckTask (Nat × τ)} {f : Finding}
    (task : c.sampler.check? id = some t) (settles : c.sampler.finding? t = some f)
    (unread : ∀ n, ∃ e, SampleStore.lastOk t.target.id n c.sampler.store = .error e) :
    f.metrics = .insufficient 0 ∧
      (c.sampler.move (.check id)).writer.line = c.sampler.writer.line ++ [f.request id] := by
  have turn := h.checkTurn id
  have hid := (mem_of_check? task).2
  rw [move]
  generalize c.sampler.resumeCheck id = s' at turn ⊢
  cases turn with
  | absent gone => cases task.symm.trans gone
  | @stands t' metrics task' stage =>
    obtain rfl := Option.some.inj (task'.symm.trans task)
    simp [finding?, stage] at settles
  | @waits t' p p' client' task' stage turn =>
    obtain rfl := Option.some.inj (task'.symm.trans task)
    simp [finding?, stage, turn] at settles
  | @settles t' p o client' task' stage turn =>
    obtain rfl := Option.some.inj (task'.symm.trans task)
    simp only [finding?, stage, turn, Option.some.injEq] at settles
    subst settles hid
    refine ⟨trendWith_unread _ unread, (List.append_assoc ..).symm⟩
  | @ends t' client' new result task' ending =>
    obtain rfl := Option.some.inj (task'.symm.trans task)
    cases ending with
    | crashes stage turn => simp [finding?, stage, turn] at settles
    | reports stage answer => simp [finding?, stage] at settles
    | fails stage answer => simp [finding?, stage] at settles

/-- **Nothing is lost in a cycle, and nothing counted twice.** Whatever a sampler's tasks, its writer
and others at its store do, in any order and with any failures, and whatever its client answers or
breaks down at: a cycle that has come to a summary has got its targets once, has checked the chosen
ones, all of them unless the run was cancelled, and has counted every check; every check has a row and
a report of it or neither, and the store has gained no row but those of checks and those of others.
Without a history a check has no trend, but its sample is stored like any other: a check has no row
only if the store refused one or the client broke down. -/
theorem cycle_accounted (view : SampleView σ ρ) {settings : Settings} {chance : Chance}
    {source : TargetSource σ} {client : κ} {store : σ} {s : Sampler (Observed κ) (Nat × τ) σ}
    (opens : ofSettings settings chance source (Observed.of client) store = .ok s) (ms : List (Move σ))
    {run k : Nat} {pass : Pass} {summary : CycleSummary}
    (passed : (((opened s).run view.toRowView ms).sampler.passes run)[k]? = some pass)
    (summed : pass.result = .ok summary) :
    let c := (opened s).run view.toRowView ms
    (∃ draw targets, c.listingsOf run k = [(draw, targets)] ∧
      Accounted view c run k targets (c.sampler.chosenOf draw targets) summary) ∧
    ((∀ m ∈ ms, m ≠ .cancel ∧ m ≠ .cancelRun run) → c.sampler.runHalted run = false) ∧
    Kept view (view.rows s.store) c ∧
    (c.Accepting → ∀ p ∈ c.startedIn run k, ∀ why, .ended run k (.failed why) ∉ c.life p.1) ∧
    ∀ id t f, c.sampler.check? id = some t → c.sampler.finding? t = some f →
      (∀ n, ∃ e, SampleStore.lastOk t.target.id n c.sampler.store = .error e) →
      f.metrics = .insufficient 0 ∧
        (c.sampler.move (.check id)).writer.line = c.sampler.writer.line ++ [f.request id] := by
  intro c
  have hnew := new_of_ofSettings opens
  have hright : Right view (view.rows s.store) c := (right_opened view hnew).run ms
  have htallied : c.Tallied := (tallied_opened hnew).steps ms (right_opened view hnew)
  refine ⟨hright.accounted htallied passed summed, ?_, hright.kept, fun accepting p hp why hm => ?_, ?_⟩
  · refine (right_opened view hnew).not_halted ms ?_
    rw [opened_sampler, runHalted, hnew.halted, hnew.runs]
    rfl
  · have hw := (right_opened view hnew).unrefused ms hnew.unrefused accepting
    obtain ⟨a, ha, heq⟩ := List.mem_map.1 ((hright.lives p.1).refusal hm)
    obtain ⟨stored, hok⟩ := hw.answers a (List.mem_filter.1 ha).1
    cases hok.symm.trans heq
  · exact fun id t f task settles unread => hright.settles_without_history task settles unread

end

/-! ## A cycle in which everything happens -/

/-- A target that is not eligible, one listed twice, one whose magnet breaks the client down, and one
whose sample the store refuses. -/
def mixedTargets : List MonitoringTarget :=
  [⟨"a", "", "", "m", true⟩, ⟨"b", "", "", "x", true⟩, ⟨"a", "", "", "m", true⟩, ⟨"d", "", "", "d", false⟩,
    ⟨"e", "", "", "n", true⟩]

def mixedSettings : Settings :=
  { Settings.standard with storeWriteAttempts := 1, concurrency := 2, maxAttempts := 1 }

def mixedClient : ScriptedClient := ⟨[], .ok ⟨3, 1⟩, 0, ["x"], []⟩

/-- A store that refuses the second sample and whose history cannot be read. -/
def mixedStore : FaultyStore := ⟨⟨[2], none, true, false⟩, 0, []⟩

def mixed : Sampler (Observed ScriptedClient) (Nat × Unit) FaultyStore where
  plan := ⟨⟨1, .ofMillis 60000, .ofMillis 10000, .ofMillis 16000⟩, .all, .ofMillis 300000, 10⟩
  chance := .still
  drawn := 0
  now := 0
  source := .ofList mixedTargets
  client := .of mixedClient
  store := mixedStore
  writer := .start mixedSettings.writer
  pool := .full 2
  checks := []
  started := 0
  runs := []
  reports := []
  halted := false

def mixedMoves : List (Move FaultyStore) :=
  [.addRun false, .run 0, .check 0, .check 1, .run 0, .check 0, .check 2, .check 2, .work, .work, .check 0,
    .check 2, .run 0]

/-- One check is reported, one is refused and one crashes: three are counted. -/
theorem cycle_accounted_mixed :
    let c := (opened mixed).run FaultyStore.sampleView.toRowView mixedMoves
    (∃ draw targets, c.listingsOf 0 0 = [(draw, targets)] ∧
      Accounted FaultyStore.sampleView c 0 0 targets (c.sampler.chosenOf draw targets) ⟨3, 1, 1, 0, 1, 1⟩) ∧
      Kept FaultyStore.sampleView [] c :=
  have opens : ofSettings mixedSettings .still (.ofList mixedTargets) (Observed.of mixedClient) mixedStore =
      .ok mixed := rfl
  have passed : (((opened mixed).run FaultyStore.sampleView.toRowView mixedMoves).sampler.passes 0)[0]? =
      some ⟨0, 0, .ok ⟨3, 1, 1, 0, 1, 1⟩⟩ := by cbv
  have h := cycle_accounted FaultyStore.sampleView opens mixedMoves passed rfl
  ⟨h.1, h.2.2.1⟩

end Chronicle

end SwarmSampler
