import SwarmSampler.Catalog
import SwarmSampler.Proofs.Store.DueOrder
import SwarmSampler.Proofs.Store.Registering

/-
What becomes of records that are ingested. An id that is new is served from then
on. One that is not keeps the row it has, whatever the record says now; so if it
came first with a license that was not open, no record ever makes it served.
-/

namespace SwarmSampler.Store

variable {s : Store} {targets listed : List MonitoringTarget} {t : MonitoringTarget} {targetId : String}

theorem Reachable.ingest (h : Reachable s) (now : Stamp) (source : String) (records : List TargetRecord) :
    Reachable (ingest now source records s).2 := by
  rw [ingest_newcomers]
  exact h.register now source _

/-! ## Looking up -/

/-- A target is found under its own id. -/
theorem Written.id_of_target? (h : Written s) (found : s.target? targetId = .ok (some t)) : t.id = targetId := by
  obtain ⟨r, hr, hid, hread⟩ := row_of_target? found
  exact Cell.text.inj ((h.id_eq hr hread).symm.trans hid)

/-- What an id is looked up as after some targets were registered under it: what it was before, or the first of
them. -/
theorem target?_enrol_newcomers (h : Legible s) (now : Stamp) (source : String) (ht : t ∈ targets) :
    ∃ u, (s.enrol now source (s.newcomers targets)).target? t.id = .ok (some u) ∧
      (s.target? t.id = .ok (some u) ∨ s.target? t.id = .ok none ∧ u ∈ targets) := by
  by_cases hr : s.Registered t.id
  · obtain ⟨u, hu⟩ := h.target? hr
    exact ⟨u, (target?_enrol_of_registered hr).trans hu, .inl hu⟩
  · obtain ⟨u, hu, hid⟩ := List.mem_map.1 (mem_ids_newcomers.2 ⟨List.mem_map_of_mem ht, hr⟩)
    refine ⟨u, ?_, .inr ⟨target?_of_not_registered hr, (s.newcomers_sublist targets).subset hu⟩⟩
    have hid : u.id = t.id := hid
    rw [← hid]
    exact target?_enrol_of_mem (s.newcomers_fresh targets) hu

/-! ## Who is served -/

/-- All eligible targets are served when no limit is set. -/
theorem eligibleTargets_none (h : Reachable s) : ∃ listed, s.eligibleTargets none = .ok listed ∧
    ∀ t, t ∈ listed ↔ s.target? t.id = .ok (some t) ∧ t.eligible = true := by
  obtain ⟨due, hdue, hmem⟩ := mapM_dueRows h
  exact ⟨due, report_eq_ok.2 hdue, fun t => (hmem t).trans (isEligible_iff h)⟩

/-- An id is served just when what it is looked up as is eligible. -/
theorem mem_ids_served (h : Reachable s)
    (served : ∀ t, t ∈ listed ↔ s.target? t.id = .ok (some t) ∧ t.eligible = true)
    (found : s.target? targetId = .ok (some t)) : targetId ∈ listed.map (·.id) ↔ t.eligible = true := by
  have hown : t.id = targetId := h.written.id_of_target? found
  constructor
  · intro hmem
    obtain ⟨u, hu, hid⟩ := List.mem_map.1 hmem
    obtain ⟨hfound, heligible⟩ := (served u).1 hu
    rw [hid, found] at hfound
    cases hfound
    exact heligible
  · exact fun heligible => List.mem_map.2 ⟨t, (served t).2 ⟨hown ▸ found, heligible⟩, hown⟩

/-- **What ingestion serves.** Ingesting succeeds, and passes over the records that are not eligible. The id of one
that is eligible is served from then on, by a listing without limit and so by the catalog of the store, just when it
was not in the store before as a target that is not eligible; an id that was in the store is looked up as before. -/
theorem ingested_served_iff (reachable : Reachable s) (now : Stamp) (source : String) (records : List TargetRecord) :
    let after := (ingest now source records s).2
    ∃ accepted listed, (ingest now source records s).1 = .ok ⟨accepted, records.countP (!·.eligible)⟩ ∧
      after.eligibleTargets none = .ok listed ∧ (Catalog.stored none).targets after = .ok listed ∧
      ∀ record ∈ records, record.eligible = true →
        let id := (MonitoringTarget.ofRecord record).id
        (id ∈ listed.map (·.id) ↔ ∀ t, s.target? id = .ok (some t) → t.eligible = true) ∧
          ∀ t, s.target? id = .ok (some t) → after.target? id = .ok (some t) := by
  intro after
  have hreachable : Reachable after := reachable.ingest now source records
  obtain ⟨listed, hlisted, hserved⟩ := eligibleTargets_none hreachable
  let eligible := (records.filter (·.eligible)).map MonitoringTarget.ofRecord
  have hingest : ingest now source records s = (.ok ⟨(s.newcomers eligible).length, records.countP (!·.eligible)⟩,
      s.enrol now source (s.newcomers eligible)) := by
    rw [ingest_newcomers, register_newcomers]
    rfl
  have hafter : after = s.enrol now source (s.newcomers eligible) := congrArg Prod.snd hingest
  refine ⟨_, listed, congrArg Prod.fst hingest, hlisted, hlisted, fun record hrecord hopen => ?_⟩
  intro id
  have hmem : MonitoringTarget.ofRecord record ∈ eligible :=
    List.mem_map_of_mem (List.mem_filter.2 ⟨hrecord, hopen⟩)
  obtain ⟨u, hfound, hbefore⟩ := target?_enrol_newcomers reachable.legible now source hmem
  rw [← hafter] at hfound
  rw [mem_ids_served hreachable hserved hfound]
  rcases hbefore with hbefore | ⟨hnone, hu⟩
  · -- The id was there, and is what it was.
    have hsame : ∀ t, s.target? id = .ok (some t) → t = u := fun t ht => by
      cases hbefore.symm.trans ht
      rfl
    exact ⟨⟨fun h t ht => hsame t ht ▸ h, fun h => h u hbefore⟩, fun t ht => hsame t ht ▸ hfound⟩
  · -- The id is new, and the first record that brought it was eligible.
    have hnever : ∀ t, s.target? id ≠ .ok (some t) := fun t ht => nomatch hnone.symm.trans ht
    have heligible : u.eligible = true := by
      obtain ⟨r, hr, rfl⟩ := List.mem_map.1 hu
      exact (List.mem_filter.1 hr).2
    exact ⟨⟨fun _ t ht => absurd ht (hnever t), fun _ => heligible⟩, fun t ht => absurd ht (hnever t)⟩

/-- Three links: one was there with an open license, one with a license that was not open, and one is new. -/
theorem ingested_served_iff_of_three :
    let id (digit : String) := "000000000000000000000000000000000000000" ++ digit
    let record (license digit : String) : TargetRecord := ⟨"", license, "magnet:?xt=urn:btih:" ++ id digit⟩
    let target (digit : String) (eligible : Bool) : MonitoringTarget := ⟨id digit, "", "", "", eligible⟩
    let calls := [.register .epoch "" [target "1" true, target "2" false]]
    let s := ((⟨⟨"store", false⟩, empty⟩ : Opened).performAll calls).store
    let records := record "Open" "4" :: ["1", "2", "3"].map (record "Creative Commons")
    ∃ accepted listed, (ingest .epoch "" records s).1 = .ok ⟨accepted, 1⟩ ∧
      (ingest .epoch "" records s).2.eligibleTargets none = .ok listed ∧
      id "1" ∈ listed.map (·.id) ∧ id "2" ∉ listed.map (·.id) ∧ id "3" ∈ listed.map (·.id) := by
  intro id record target calls s records
  obtain ⟨accepted, listed, hsummary, hlisted, -, hserved⟩ :=
    ingested_served_iff ⟨_, calls, rfl⟩ .epoch "" records
  have hskipped : records.countP (!·.eligible) = 1 := by decide +kernel
  have hids : ∀ digit ∈ ["1", "2", "3"], (record "Creative Commons" digit).eligible = true ∧
      (MonitoringTarget.ofRecord (record "Creative Commons" digit)).id = id digit := by decide +kernel
  have hiff : ∀ digit ∈ ["1", "2", "3"], id digit ∈ listed.map (·.id) ↔
      ∀ t, s.target? (id digit) = .ok (some t) → t.eligible = true := by
    intro digit hdigit
    obtain ⟨hopen, hid⟩ := hids digit hdigit
    have hboth := hserved _ (List.mem_cons_of_mem _ (List.mem_map_of_mem hdigit)) hopen
    rw [hid] at hboth
    exact hboth.1
  have h₁ : s.target? (id "1") = .ok (some (target "1" true)) := by decide +kernel
  have h₂ : s.target? (id "2") = .ok (some (target "2" false)) := by decide +kernel
  have h₃ : s.target? (id "3") = .ok none := by decide +kernel
  refine ⟨accepted, listed, hskipped ▸ hsummary, hlisted, (hiff "1" (by decide)).2 fun t ht => ?_, fun hmem => ?_,
    (hiff "3" (by decide)).2 fun t ht => ?_⟩
  · cases h₁.symm.trans ht
    rfl
  · exact absurd ((hiff "2" (by decide)).1 hmem _ h₂) (by decide)
  · cases h₃.symm.trans ht

/-- A link that is registered under a license that is not open, and then ingested under one that is: ingesting
succeeds, and nothing is served. -/
theorem unserved_after_closed_license :
    let link := "magnet:?xt=urn:btih:0000000000000000000000000000000000000001"
    let closed : TargetRecord := ⟨"https://example.org/0", "All rights reserved", link⟩
    let opened : TargetRecord := ⟨"https://example.org/0", "Creative Commons BY 4.0", link⟩
    let s := ((⟨⟨"store", false⟩, empty⟩ : Opened).performAll [.register .epoch "test" [.ofRecord closed]]).store
    let r := ingest .epoch "test" [opened] s
    Reachable s ∧ opened.eligible = true ∧ r.1 = .ok ⟨0, 0⟩ ∧ r.2.eligibleTargets none = .ok [] := by
  intro link closed opened s r
  have hnone : r.2.targets.filter markedEligible = [] := by
    rw [List.filter_eq_nil_iff]
    decide +kernel
  have hlisted : r.2.eligibleTargets none = .ok [] := by
    rw [eligibleTargets, dueRows, hnone, List.mergeSort_nil]
    rfl
  exact ⟨⟨_, _, rfl⟩, by decide +kernel, by decide +kernel, hlisted⟩

end SwarmSampler.Store
