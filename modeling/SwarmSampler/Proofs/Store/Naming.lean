import SwarmSampler.Sampler.Open
import SwarmSampler.Proofs.Store.Rows

/-
Targets whose ids are those of their magnets, as all are that are made of
records. Two of them with one magnet have one id. A store has no other targets
unless others are registered, whatever else is called, and what lists the targets
of a sampler, records or the store itself, lists no others then.
-/

namespace SwarmSampler

namespace MonitoringTarget

/-- The id is that of the magnet. -/
def Named (t : MonitoringTarget) : Prop := t.id = targetId t.magnet

theorem named_ofRecord (r : TargetRecord) : (ofRecord r).Named := by
  simp only [Named, ofRecord]

/-- A magnet has one id. -/
theorem Named.id_eq {t u : MonitoringTarget} (ht : t.Named) (hu : u.Named) (same : t.magnet = u.magnet) :
    t.id = u.id := by
  rw [ht, hu, same]

end MonitoringTarget

namespace Store

variable {s s' : Store}

/-- The targets that can be read from a store are named. -/
def Named (s : Store) : Prop := ∀ r ∈ s.targets, ∀ t, readTarget r = .ok t → t.Named

theorem Named.empty : Named empty := fun _ hr => nomatch hr

theorem Named.register (h : Named s) (now : Stamp) (source : String) {targets : List MonitoringTarget}
    (named : ∀ t ∈ targets, t.Named) : Named (register now source targets s).2 := by
  obtain ⟨added, hsub, -, heq⟩ := register_eq now source targets s
  rw [heq]
  intro r hr t ht
  rcases List.mem_append.1 hr with hr | hr
  · exact h r hr t ht
  · obtain ⟨u, hu, rfl⟩ := List.mem_map.1 hr
    rw [readTarget_newRow] at ht
    cases ht
    exact named _ (hsub.subset hu)

/-- The marks of a check are not in the cells that make up a target. -/
theorem Named.append (h : Named s) (sample : HealthSample) (metrics : Option MetricsSnapshot) :
    Named (append sample metrics s).2 := by
  obtain ⟨stored, s', heq, ha⟩ | ⟨e, heq⟩ := append_cases sample metrics s
  · rw [heq]
    intro r hr t ht
    rw [ha.targets_eq] at hr
    obtain ⟨r', hr', rfl⟩ := List.mem_map.1 hr
    refine h r' hr' t ?_
    split at ht <;> exact ht
  · rw [heq]
    exact h

/-- A call that registers no others than named targets, if any. -/
def Call.Names : Call → Prop
  | .register _ _ targets => ∀ t ∈ targets, t.Named
  | _ => True

theorem Opened.perform_named {o : Opened} {c : Call} (h : Named o.store) (names : c.Names) :
    Named (o.perform c).store := by
  cases c with
  | register now source targets => exact h.register now source names
  | ingest now source records =>
    refine h.register now source fun t ht => ?_
    obtain ⟨r, -, rfl⟩ := List.mem_map.1 (List.mem_filter.1 ht).1
    exact MonitoringTarget.named_ofRecord r
  | append sample metrics => exact h.append sample metrics
  | reopen =>
    rw [perform, reopen]
    split
    · exact .empty
    · exact h

/-- **A store in use holds named targets only**, as long as no others are registered. -/
theorem Opened.performAll_named (calls : List Call) :
    ∀ {o : Opened}, Named o.store → (∀ c ∈ calls, c.Names) → Named (o.performAll calls).store := by
  induction calls with
  | nil => exact fun h _ => h
  | cons c cs ih =>
    exact fun h names => ih (perform_named h (names c List.mem_cons_self)) fun c hc =>
      names c (List.mem_cons_of_mem _ hc)

theorem Named.eligibleTargets (h : Named s) {limit : Option UInt64} {targets : List MonitoringTarget}
    (lists : s.eligibleTargets limit = .ok targets) : ∀ t ∈ targets, t.Named := by
  intro t ht
  obtain ⟨r, hr, hread⟩ := mem_of_mapM_eq_ok (report_eq_ok.1 lists) t ht
  have hdue : r ∈ s.dueRows := (limited_initial ..).subset hr
  exact h r (List.mem_filter.1 ((List.mergeSort_perm ..).mem_iff.1 hdue)).1 t hread

end Store

/-- All that a source lists on a store is named. -/
def TargetSource.Names (source : TargetSource Store) (store : Store) : Prop :=
  ∀ targets, source.targets store = .ok targets → ∀ t ∈ targets, t.Named

namespace Catalog

/-- Records make named targets, whatever a store holds. -/
theorem names_ofRecords (records : List TargetRecord) (store : Store) :
    ((ofRecords records).source id).Names store := by
  intro targets lists t ht
  cases lists
  obtain ⟨r, -, rfl⟩ := List.mem_map.1 ht
  exact MonitoringTarget.named_ofRecord r

theorem names_stored (batch : Option UInt64) {store : Store} (named : store.Named) :
    ((stored batch).source id).Names store :=
  fun _ lists => named.eligibleTargets lists

end Catalog

/-- **The catalog of settings lists named targets**, if it has records or the store's own targets are named. -/
theorem Settings.names_catalog (settings : Settings) {store : Store} (named : settings.targets = [] → store.Named) :
    (settings.catalog.source id).Names store := by
  unfold catalog
  split
  · next h => exact Catalog.names_stored none (named (List.isEmpty_iff.1 h))
  · exact Catalog.names_ofRecords _ store

end SwarmSampler
