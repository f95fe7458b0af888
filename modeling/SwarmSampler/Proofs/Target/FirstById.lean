import SwarmSampler.Cycle

/-
The first target of each id. It is found where the id is looked for, every id has
one, and none has two.
-/

namespace SwarmSampler

theorem firstById_nodup (targets : List MonitoringTarget) : ((firstById targets).map (·.id)).Nodup := by
  induction targets with
  | nil => exact .nil
  | cons t ts ih =>
    refine List.nodup_cons.2 ⟨fun h => ?_, ih.sublist (List.filter_sublist.map _)⟩
    obtain ⟨u, hu, hid⟩ := List.mem_map.1 h
    exact of_decide_eq_true (List.mem_filter.1 hu).2 hid

/-- Every id stays, and the first target that has it. -/
theorem firstById_find? (targets : List MonitoringTarget) (i : String) :
    (firstById targets).find? (·.id = i) = targets.find? (·.id = i) := by
  induction targets with
  | nil => rfl
  | cons t ts ih =>
    by_cases h : t.id = i
    · simp [firstById, h]
    · -- The targets of the first one's id that are left out are not asked for.
      have hsame :
          (fun u : MonitoringTarget => decide (decide (u.id ≠ t.id) = true ∧ decide (u.id = i) = true)) =
          fun u => decide (u.id = i) := by
        funext u
        by_cases hu : u.id = i
        · simp [hu, Ne.symm h]
        · simp [hu]
      rw [firstById, List.find?_cons_of_neg (by simpa using h), List.find?_cons_of_neg (by simpa using h),
        List.find?_filter, hsame, ih]

theorem find?_of_nodup {ts : List MonitoringTarget} (h : (ts.map (·.id)).Nodup) {t : MonitoringTarget}
    (ht : t ∈ ts) : ts.find? (·.id = t.id) = some t := by
  induction ts with
  | nil => cases ht
  | cons u us ih =>
    obtain ⟨hu, h⟩ := List.nodup_cons.1 h
    rcases List.mem_cons.1 ht with rfl | ht
    · simp
    · have hne : u.id ≠ t.id := fun he => hu (List.mem_map.2 ⟨t, ht, he.symm⟩)
      rw [List.find?_cons_of_neg (by simpa using hne), ih h ht]

theorem firstById_sublist (targets : List MonitoringTarget) : (firstById targets).Sublist targets := by
  induction targets with
  | nil => exact .slnil
  | cons t ts ih => exact (List.filter_sublist.trans ih).cons_cons t

/-- What is left of some targets are those that are found first by their ids. -/
theorem mem_firstById {targets : List MonitoringTarget} {t : MonitoringTarget} :
    t ∈ firstById targets ↔ targets.find? (·.id = t.id) = some t := by
  rw [← firstById_find?]
  exact ⟨find?_of_nodup (firstById_nodup targets), List.mem_of_find?_eq_some⟩

end SwarmSampler
