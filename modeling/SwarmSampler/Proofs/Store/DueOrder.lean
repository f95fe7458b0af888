import Mathlib.Data.List.Perm.Subperm
import SwarmSampler.Proofs.Store.Listing
import SwarmSampler.Proofs.Store.Rotation

/-
What a listing of due targets says to whoever asks for it: which targets, how
many, and in which order. A limit takes the front of the one order that all due
targets have, so that what it leaves out is no more due than what it takes.
-/

namespace SwarmSampler.Store

variable {s : Store} {t : MonitoringTarget} {targets : List MonitoringTarget}

/-! ## Which targets -/

/-- The mark of a target's row is the target's own. -/
theorem markedEligible_of_made {now : Stamp} {source : String} {r : TargetRow}
    (made : r.registered = newRow now source t) : markedEligible r = t.eligible := by
  have heligible : r.eligible = .integer (if t.eligible then 1 else 0) := congrArg TargetRow.eligible made
  rw [markedEligible, heligible]
  cases t.eligible <;> rfl

/-- The eligible targets are those that a look-up answers and that are marked so. -/
theorem isEligible_iff (h : Reachable s) :
    s.IsEligible t ↔ s.target? t.id = .ok (some t) ∧ t.eligible = true := by
  constructor
  · rintro ⟨r, hr, hmarked, hread⟩
    obtain ⟨now, source, u, made⟩ := h.written.targets r hr
    obtain rfl : u = t := Except.ok.inj ((readTarget_of_made made).symm.trans hread)
    exact ⟨h.sound.target?_eq hr made, (markedEligible_of_made made).symm.trans hmarked⟩
  · rintro ⟨hfound, heligible⟩
    obtain ⟨r, hr, -, hread⟩ := row_of_target? hfound
    obtain ⟨now, source, u, made⟩ := h.written.targets r hr
    obtain rfl : u = t := Except.ok.inj ((readTarget_of_made made).symm.trans hread)
    exact ⟨r, hr, (markedEligible_of_made made).trans heligible, hread⟩

/-! ## How many -/

/-- Different eligible targets have different ids. -/
theorem nodup_ids_of_isEligible (h : Reachable s) (nodup : targets.Nodup)
    (eligible : ∀ t ∈ targets, s.IsEligible t) : (targets.map (·.id)).Nodup :=
  nodup.map_on fun _ ht _ hu same => (eligible _ ht).eq_of_id h (eligible _ hu) same

/-- There are no more different eligible targets than rows. -/
theorem length_le_of_isEligible (h : Reachable s) (nodup : targets.Nodup)
    (eligible : ∀ t ∈ targets, s.IsEligible t) : targets.length ≤ s.targets.length := by
  have hids : (targets.map fun t => Cell.text t.id).Nodup := by
    have := (nodup_ids_of_isEligible h nodup eligible).map (fun _ _ => Cell.text.inj : Function.Injective Cell.text)
    rwa [List.map_map] at this
  have hsub : (targets.map fun t => Cell.text t.id) ⊆ s.targets.map (·.id) := by
    intro id hid
    obtain ⟨t, ht, rfl⟩ := List.mem_map.1 hid
    obtain ⟨r, hr, -, hread⟩ := eligible t ht
    exact List.mem_map.2 ⟨r, hr, h.written.id_eq hr hread⟩
  simpa using (List.subperm_of_subset hids hsub).length_le

/-! ## In which order -/

/-- A listing of what is due, up to a limit, of all that is eligible. -/
structure ListsDue (s : Store) (limit : Option UInt64) (all listed : List MonitoringTarget) : Prop where
  among : listed ⊆ all
  once : (listed.map (·.id)).Nodup
  many : listed.length = limit.elim all.length fun n => min n.toNat all.length
  /-- Nobody comes after another while staler: who was never checked is first, then who was checked earliest. -/
  ordered : listed.Pairwise fun t u => ¬ s.Staler u.id t.id
  /-- Nobody is left out who is staler than one that is listed. -/
  fair : ∀ t ∈ listed, ∀ u ∈ all, u ∉ listed → ¬ s.Staler u.id t.id

theorem length_limited_of_few {α : Type} {l : List α} (few : l.length ≤ 9_223_372_036_854_775_808)
    (limit : Option UInt64) : (limited limit l).length = limit.elim l.length fun n => min n.toNat l.length := by
  cases limit with
  | none => rfl
  | some n => rw [limited_eq_take few, List.length_take, Option.elim_some]

/-- **The order of what is due.** A listing has only eligible targets, each once, and as many as its limit allows.
Those that were never checked come first, then the others by the time of their newest samples, as long as these lie
in years of four digits; and none that is left out is staler than one that is listed. The limit may be any number
of 64 bits, for a table has no more rows than it can number with 63. -/
theorem due_order (reachable : Reachable s) (years : s.FourDigits)
    (numbered : s.targets.length < 9_223_372_036_854_775_808) :
    ∃ all : List MonitoringTarget, (all.map (·.id)).Nodup ∧
      (∀ t, t ∈ all ↔ s.target? t.id = .ok (some t) ∧ t.eligible = true) ∧
      ∀ limit, ∃ listed, s.eligibleTargets limit = .ok listed ∧ s.ListsDue limit all listed := by
  obtain ⟨all, hlists, hnodup, hmem, hsorted⟩ := due_spec reachable years
  have heligible : ∀ t ∈ all, s.IsEligible t := fun t => (hmem t).1
  have hids := nodup_ids_of_isEligible reachable hnodup heligible
  have hfew := length_le_of_isEligible reachable hnodup heligible
  refine ⟨all, hids, fun t => (hmem t).trans (isEligible_iff reachable), fun limit => ⟨_, hlists limit, ?_⟩⟩
  have hinitial := limited_initial limit all
  obtain ⟨hordered, hfair⟩ := pairwise_of_initial hinitial hsorted
  exact {
    among := hinitial.subset
    once := hids.sublist (hinitial.sublist.map _)
    many := length_limited_of_few (by omega) limit
    ordered := hordered
    fair := hfair }

/-- Two targets checked a millisecond apart, of which the earlier is written without a fraction, one that is not
eligible, and the largest limit there is. -/
theorem due_order_of_two :
    let target (id : String) (eligible : Bool) : MonitoringTarget := ⟨id, "", "", "", eligible⟩
    let later : HealthSample := ⟨"1", "a", ⟨1, 1_000_000, by decide, by decide⟩, 2, 1, 3, .ok, 1, none⟩
    let earlier : HealthSample := ⟨"2", "b", ⟨1, 0, by decide, by decide⟩, 2, 1, 3, .ok, 1, none⟩
    let calls := [.register .epoch "" [target "a" true, target "b" true, target "c" false]]
    let s₀ := ((⟨⟨"store", false⟩, empty⟩ : Opened).performAll calls).store
    let s₁ := (append later none s₀).2
    let s := (append earlier none s₁).2
    let limit := some 18_446_744_073_709_551_615
    s.eligibleTargets limit = .ok [target "b" true, target "a" true] ∧
      ∃ all, s.ListsDue limit all [target "b" true, target "a" true] := by
  intro target later earlier calls s₀ s₁ s limit
  have hlater : (append later none s₀).1 = .ok later := by decide +kernel
  have hearlier : (append earlier none s₁).1 = .ok earlier := by decide +kernel
  have h₁ : s₁ = { s₀.markChecked "a" later.timestamp with samples := s₀.samples ++ [rowOf later none] } :=
    congrArg Prod.snd (append_eq_of_kept hlater)
  have h₂ : s = { s₁.markChecked "b" earlier.timestamp with samples := s₁.samples ++ [rowOf earlier none] } :=
    congrArg Prod.snd (append_eq_of_kept hearlier)
  have hlisted : s.eligibleTargets limit = .ok [target "b" true, target "a" true] := by
    rw [h₂, h₁, eligibleTargets_pair rfl]
    decide +kernel
  have hregistered : Reachable s₀ := ⟨_, calls, rfl⟩
  have hreachable : Reachable s := (hregistered.append later none).append earlier none
  have hyears : s.FourDigits := by decide +kernel
  have hthree : s.targets.length = 3 := by decide +kernel
  obtain ⟨all, -, -, hlists⟩ := due_order hreachable hyears (by rw [hthree]; decide)
  obtain ⟨listed, heq, hdue⟩ := hlists limit
  obtain rfl := Except.ok.inj (hlisted.symm.trans heq)
  exact ⟨hlisted, all, hdue⟩

end SwarmSampler.Store
