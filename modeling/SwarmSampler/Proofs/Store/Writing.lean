import SwarmSampler.Store
import SwarmSampler.Proofs.Target.FirstById
import SwarmSampler.Proofs.Time.Millis

/-
What the two ways of writing to the store do, said once: an append that
succeeds adds one row after all others and marks one target's row, an append
that fails adds nothing, and registering adds rows of targets that were not
there. Whatever is said of a store that is written to follows from these.
-/

namespace SwarmSampler

theorem TargetRow.isOf_iff {r : TargetRow} {targetId : String} :
    r.isOf targetId = true ↔ r.id = .text targetId := by
  unfold TargetRow.isOf
  split
  · next id h => simp only [h, decide_eq_true_eq, Cell.text.injEq]
  · next h =>
    simp only [Bool.false_eq_true, false_iff]
    exact h targetId

/-- A row as it was registered, without the marks of checks. -/
def TargetRow.registered (r : TargetRow) : TargetRow :=
  { r with lastCheckedAt := .null, checkCount := .integer 0 }

namespace Store

variable {s s' : Store} {sample stored : HealthSample} {metrics : Option MetricsSnapshot}
  {targetId : String} {now : Stamp} {source : String}

/-- The rows of a target's samples, in the order they came. -/
def samplesOf (s : Store) (targetId : String) : List SampleRow :=
  s.samples.filter (·.targetId = targetId)

/-- There is a row of a target's id. -/
def Registered (s : Store) (targetId : String) : Prop := ∃ r ∈ s.targets, r.id = .text targetId

theorem any_isOf_iff : (s.targets.any fun r => r.isOf targetId) = true ↔ s.Registered targetId := by
  simp only [List.any_eq_true, TargetRow.isOf_iff, Registered]

theorem mem_samplesOf {x : SampleRow} :
    x ∈ s.samplesOf targetId ↔ x ∈ s.samples ∧ x.targetId = targetId := by
  simp only [samplesOf, List.mem_filter, decide_eq_true_eq]

/-! ## The time of a new sample -/

/-- All samples lie in the calendar's range. -/
def Dated (s : Store) : Prop :=
  ∀ x ∈ s.samples, Stamp.firstMillis ≤ x.millis ∧ x.millis ≤ Stamp.lastMillis

theorem wrap_eq_self {n : Int} (h : -9_223_372_036_854_775_808 ≤ n ∧ n ≤ 9_223_372_036_854_775_807) :
    wrap n = n := by
  unfold wrap
  omega

theorem latestMillis?_eq_none : s.latestMillis? targetId = none ↔ s.samplesOf targetId = [] := by
  simp only [latestMillis?, List.max?_eq_none_iff, List.map_eq_nil_iff, samplesOf]

theorem latestMillis?_eq_some {last : Int} (h : s.latestMillis? targetId = some last) :
    (∃ x ∈ s.samplesOf targetId, x.millis = last) ∧ ∀ x ∈ s.samplesOf targetId, x.millis ≤ last := by
  obtain ⟨hm, hb⟩ := List.max?_eq_some_iff.1 h
  exact ⟨List.mem_map.1 hm, fun x hx => hb _ (List.mem_map_of_mem hx)⟩

/-- Just after a latest time of the calendar no sum starts over. -/
theorem effectiveMillis_some (hd : s.Dated) {last : Int} (h : s.latestMillis? targetId = some last)
    (requested : Int) :
    effectiveMillis (some last) requested = if requested ≤ last then last + 1 else requested := by
  obtain ⟨⟨x, hx, rfl⟩, -⟩ := latestMillis?_eq_some h
  have hr := hd x (mem_samplesOf.1 hx).1
  simp only [Stamp.firstMillis, Stamp.lastMillis, firstSecond, lastSecond] at hr
  simp only [effectiveMillis]
  rw [wrap_eq_self (by omega)]

/-- **A new sample is later than all of its target.** -/
theorem lt_effectiveMillis (hd : s.Dated) (requested : Int) {x : SampleRow}
    (hx : x ∈ s.samplesOf targetId) :
    x.millis < effectiveMillis (s.latestMillis? targetId) requested := by
  cases hl : s.latestMillis? targetId with
  | none =>
    rw [latestMillis?_eq_none.1 hl] at hx
    cases hx
  | some last =>
    have hle := (latestMillis?_eq_some hl).2 x hx
    rw [effectiveMillis_some hd hl]
    split <;> omega

example : effectiveMillis (some 5) 3 = 6 := by decide

/-! ## Appending -/

/-- The row a sample is stored in. -/
def rowOf (stored : HealthSample) (metrics : Option MetricsSnapshot) : SampleRow :=
  sampleRow stored stored.timestamp.toMillis metrics

/-- An append that succeeds: the sample it answers, and the store after it. -/
structure Appended (sample : HealthSample) (metrics : Option MetricsSnapshot) (s : Store)
    (stored : HealthSample) (s' : Store) : Prop where
  dated : Stamp.ofMillis? (effectiveMillis (s.latestMillis? sample.targetId) sample.timestamp.toMillis) =
    some stored.timestamp
  asked : stored = { sample with timestamp := stored.timestamp }
  allowed : checkViolation? (rowOf stored metrics) = none
  fresh : s.keyViolation? (rowOf stored metrics) = none
  after : s' = { s.markChecked stored.targetId stored.timestamp with
    samples := s.samples ++ [rowOf stored metrics] }

theorem insertSample_eq_ok {r : SampleRow} (h : s.insertSample r true = .ok s') :
    checkViolation? r = none ∧ s.keyViolation? r = none ∧ s' = { s with samples := s.samples ++ [r] } := by
  unfold insertSample at h
  split at h
  · cases h
  · next hv =>
    simp only [↓reduceIte, Option.or_eq_none_iff] at hv
    cases h
    exact ⟨hv.1, hv.2, rfl⟩

theorem appendBody_eq_ok (h : appendBody sample metrics s = .ok (stored, s')) :
    Appended sample metrics s stored s' := by
  simp only [appendBody] at h
  split at h
  · cases h
  · next timestamp ht =>
    split at h
    · cases h
    · next s₁ hs₁ =>
      split at h
      · have hrow : sampleRow sample (effectiveMillis (s.latestMillis? sample.targetId)
            sample.timestamp.toMillis) metrics = rowOf { sample with timestamp := timestamp } metrics := by
          rw [← Stamp.toMillis_of_ofMillis? ht]
          rfl
        rw [hrow] at hs₁
        obtain ⟨hc, hk, rfl⟩ := insertSample_eq_ok hs₁
        cases h
        exact ⟨ht, rfl, hc, hk, rfl⟩
      · cases h

/-- **An append adds its row or changes nothing.** -/
theorem append_cases (sample : HealthSample) (metrics : Option MetricsSnapshot) (s : Store) :
    (∃ stored s', append sample metrics s = (.ok stored, s') ∧ Appended sample metrics s stored s') ∨
      ∃ e, append sample metrics s = (.error e, s) := by
  simp only [append, transaction]
  split
  · next stored s' h => exact .inl ⟨stored, s', rfl, appendBody_eq_ok h⟩
  · next e _ => exact .inr ⟨e, rfl⟩

namespace Appended

variable (h : Appended sample metrics s stored s')
include h

theorem targetId_eq : stored.targetId = sample.targetId := by rw [h.asked]

theorem samples_eq : s'.samples = s.samples ++ [rowOf stored metrics] := by rw [h.after]

theorem mem_samples {x : SampleRow} (hx : x ∈ s'.samples) : x ∈ s.samples ∨ x = rowOf stored metrics := by
  rw [h.samples_eq, List.mem_append, List.mem_singleton] at hx
  exact hx

theorem targets_eq : s'.targets = (s.markChecked stored.targetId stored.timestamp).targets := by
  rw [h.after]

theorem range : Stamp.firstMillis ≤ (rowOf stored metrics).millis ∧
    (rowOf stored metrics).millis ≤ Stamp.lastMillis := by
  have hr := Stamp.range_of_ofMillis? h.dated
  rwa [← Stamp.toMillis_of_ofMillis? h.dated] at hr

theorem ofMillis? : Stamp.ofMillis? (rowOf stored metrics).millis = some stored.timestamp := by
  rw [← h.dated, ← Stamp.toMillis_of_ofMillis? h.dated]
  rfl

theorem later (hd : s.Dated) {x : SampleRow} (hx : x ∈ s.samplesOf stored.targetId) :
    x.millis < (rowOf stored metrics).millis := by
  have hl := lt_effectiveMillis hd sample.timestamp.toMillis (h.targetId_eq ▸ hx)
  rwa [← Stamp.toMillis_of_ofMillis? h.dated] at hl

theorem total : (rowOf stored metrics).totalPeers =
    (rowOf stored metrics).seeders + (rowOf stored metrics).leechers := by
  have hc := h.allowed
  unfold checkViolation? at hc
  split at hc
  · cases hc
  · split at hc
    · cases hc
    · split at hc
      · cases hc
      · next heq => exact Classical.not_not.1 heq

theorem registered : s.Registered stored.targetId := by
  have hk := h.fresh
  unfold keyViolation? at hk
  split at hk
  · cases hk
  · split at hk
    · cases hk
    · split at hk
      · next hr => exact any_isOf_iff.1 hr
      · cases hk

end Appended

/-! ## Registering -/

/-- The store with rows of new targets at the end. -/
def enrol (now : Stamp) (source : String) (added : List MonitoringTarget) (s : Store) : Store :=
  { s with targets := s.targets ++ added.map (newRow now source) }

theorem registered_enrol {added : List MonitoringTarget} :
    (s.enrol now source added).Registered targetId ↔
      s.Registered targetId ∨ ∃ t ∈ added, t.id = targetId := by
  simp only [Registered, enrol, List.mem_append, List.mem_map, or_and_right, exists_or]
  refine or_congr_right ⟨?_, ?_⟩
  · rintro ⟨r, ⟨t, ht, rfl⟩, hid⟩
    exact ⟨t, ht, Cell.text.inj hid⟩
  · rintro ⟨t, ht, rfl⟩
    exact ⟨_, ⟨t, ht, rfl⟩, rfl⟩

/-- Targets that are new to a store and to each other. -/
structure Fresh (s : Store) (added : List MonitoringTarget) : Prop where
  distinct : (added.map (·.id)).Nodup
  absent : ∀ t ∈ added, ¬ s.Registered t.id

/-- The targets that a store does not have yet, of those with one id the first. -/
def newcomers (s : Store) (targets : List MonitoringTarget) : List MonitoringTarget :=
  (firstById targets).filter fun t => !s.targets.any fun r => r.isOf t.id

theorem not_any_isOf_iff : (!s.targets.any fun r => r.isOf targetId) = true ↔ ¬ s.Registered targetId := by
  rw [← any_isOf_iff, Bool.not_eq_true', Bool.not_eq_true]

theorem mem_newcomers {targets : List MonitoringTarget} {t : MonitoringTarget} :
    t ∈ s.newcomers targets ↔ targets.find? (·.id = t.id) = some t ∧ ¬ s.Registered t.id := by
  rw [newcomers, List.mem_filter, mem_firstById, not_any_isOf_iff]

theorem newcomers_sublist (s : Store) (targets : List MonitoringTarget) : (s.newcomers targets).Sublist targets :=
  List.filter_sublist.trans (firstById_sublist targets)

theorem newcomers_fresh (s : Store) (targets : List MonitoringTarget) : s.Fresh (s.newcomers targets) where
  distinct := (firstById_nodup targets).sublist (List.filter_sublist.map _)
  absent _ ht := (mem_newcomers.1 ht).2

/-- A target that is there already keeps no other from being new. -/
theorem newcomers_cons_of_registered {t : MonitoringTarget} (h : s.Registered t.id) (ts : List MonitoringTarget) :
    s.newcomers (t :: ts) = s.newcomers ts := by
  have hother : ∀ u ∈ firstById ts, (!s.targets.any fun r => r.isOf u.id) = true → u.id ≠ t.id :=
    fun u _ hu same => not_any_isOf_iff.1 hu (same ▸ h)
  rw [newcomers, firstById, List.filter_cons_of_neg (by rw [not_any_isOf_iff]; exact not_not_intro h),
    List.filter_filter, newcomers]
  refine List.filter_congr fun u hu => ?_
  rw [Bool.and_eq_left_iff_imp]
  exact fun hnew => decide_eq_true (hother u hu hnew)

/-- One that is not is new, and there for all after it. -/
theorem newcomers_cons_of_absent {t : MonitoringTarget} (h : ¬ s.Registered t.id) (now : Stamp) (source : String)
    (ts : List MonitoringTarget) : s.newcomers (t :: ts) = t :: (s.enrol now source [t]).newcomers ts := by
  rw [newcomers, firstById, List.filter_cons_of_pos (by rwa [not_any_isOf_iff]), List.filter_filter, newcomers]
  refine congrArg (t :: ·) (List.filter_congr fun u _ => ?_)
  rw [Bool.eq_iff_iff, Bool.and_eq_true, not_any_isOf_iff, not_any_isOf_iff, registered_enrol,
    decide_eq_true_eq]
  simp only [List.mem_singleton, exists_eq_left, not_or]
  exact and_congr_right fun _ => ne_comm

theorem enrol_enrol (now : Stamp) (source : String) (first more : List MonitoringTarget) (s : Store) :
    (s.enrol now source first).enrol now source more = s.enrol now source (first ++ more) := by
  simp only [enrol, List.map_append, List.append_assoc]

/-- Targets are registered one after another, those that are not there by then. -/
theorem foldl_registerOne (now : Stamp) (source : String) (targets : List MonitoringTarget) :
    ∀ (n : Nat) (s : Store), targets.foldl (registerOne now source) (n, s) =
      (n + (s.newcomers targets).length, s.enrol now source (s.newcomers targets)) := by
  induction targets with
  | nil =>
    intro n s
    simp only [List.foldl_nil, newcomers, firstById, List.filter_nil, List.length_nil, Nat.add_zero, enrol, List.map_nil,
      List.append_nil]
  | cons t ts ih =>
    intro n s
    rw [List.foldl_cons]
    by_cases hr : s.Registered t.id
    · have h₁ : registerOne now source (n, s) t = (n, s) := if_pos (any_isOf_iff.2 hr)
      rw [h₁, ih, newcomers_cons_of_registered hr]
    · have h₁ : registerOne now source (n, s) t = (n + 1, s.enrol now source [t]) :=
        if_neg (mt any_isOf_iff.1 hr)
      rw [h₁, ih, enrol_enrol, newcomers_cons_of_absent hr now source, List.length_cons, List.singleton_append,
        Nat.add_right_comm, Nat.add_assoc]

/-- **Registering adds the newcomers among its targets and nothing else.** -/
theorem register_newcomers (now : Stamp) (source : String) (targets : List MonitoringTarget) (s : Store) :
    register now source targets s =
      (.ok (s.newcomers targets).length, s.enrol now source (s.newcomers targets)) := by
  simp only [register, transaction, foldl_registerOne, Nat.zero_add]

/-- Registering adds those of its targets that are not there, each once, and nothing else. -/
theorem register_eq (now : Stamp) (source : String) (targets : List MonitoringTarget) (s : Store) :
    ∃ added, added.Sublist targets ∧ s.Fresh added ∧
      register now source targets s = (.ok added.length, s.enrol now source added) :=
  ⟨s.newcomers targets, s.newcomers_sublist targets, s.newcomers_fresh targets, register_newcomers ..⟩

theorem ingest_eq (now : Stamp) (source : String) (records : List TargetRecord) (s : Store) :
    ∃ added, s.Fresh added ∧ (ingest now source records s).2 = s.enrol now source added := by
  obtain ⟨added, -, hfresh, heq⟩ := register_eq now source
    ((records.map MonitoringTarget.ofRecord).filter (·.eligible)) s
  exact ⟨added, hfresh, by simp only [ingest, heq]⟩

end Store

end SwarmSampler
