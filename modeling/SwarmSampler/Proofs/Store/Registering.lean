import Mathlib.Data.Set.Card
import SwarmSampler.Proofs.Store.Rows

/-
The algebra of registering. The first target of an id is kept just as it came, and
whatever comes later under its id changes nothing, whether it comes in the same
call or in another, under the same source or another. So calls can be split and
repeated at will, and ingesting is registering what is eligible.
-/

namespace SwarmSampler

/-- The row but for the time its target was registered at. -/
def TargetRow.undated (r : TargetRow) : TargetRow := { r with firstSeenAt := .null }

namespace Store

variable {s : Store} {now now' : Stamp} {source : String} {targets added : List MonitoringTarget}
  {t : MonitoringTarget} {targetId : String}

/-! ## Who is new -/

theorem mem_ids_newcomers :
    targetId ∈ (s.newcomers targets).map (·.id) ↔ targetId ∈ targets.map (·.id) ∧ ¬ s.Registered targetId := by
  constructor
  · intro h
    obtain ⟨t, ht, rfl⟩ := List.mem_map.1 h
    exact ⟨List.mem_map_of_mem ((s.newcomers_sublist targets).subset ht), (mem_newcomers.1 ht).2⟩
  · rintro ⟨h, habsent⟩
    obtain ⟨t, ht, rfl⟩ := List.mem_map.1 h
    have hsome : (targets.find? (·.id = t.id)).isSome = true := List.find?_isSome.2 ⟨t, ht, by simp⟩
    obtain ⟨u, hu⟩ := Option.isSome_iff_exists.1 hsome
    have hid : u.id = t.id := by simpa using List.find?_some hu
    exact List.mem_map.2 ⟨u, mem_newcomers.2 ⟨by rwa [hid], by rwa [hid]⟩, hid⟩

/-- There are as many newcomers as new ids. -/
theorem length_newcomers (s : Store) (targets : List MonitoringTarget) :
    (s.newcomers targets).length = {id | id ∈ targets.map (·.id) ∧ ¬ s.Registered id}.ncard := by
  have hset : {id | id ∈ targets.map (·.id) ∧ ¬ s.Registered id} = ((s.newcomers targets).map (·.id)).toFinset := by
    ext id
    rw [Set.mem_ofPred_eq, List.coe_toFinset, Set.mem_ofPred_eq, mem_ids_newcomers]
  rw [hset, Set.ncard_coe_finset, List.toFinset_card_of_nodup (s.newcomers_fresh targets).distinct, List.length_map]

/-- Nobody is new twice. -/
theorem newcomers_again (s : Store) (now : Stamp) (source : String) (targets : List MonitoringTarget) :
    (s.enrol now source (s.newcomers targets)).newcomers targets = [] := by
  refine List.eq_nil_iff_forall_not_mem.2 fun t ht => ?_
  obtain ⟨hfound, habsent⟩ := mem_newcomers.1 ht
  rw [registered_enrol, not_or] at habsent
  exact habsent.2 ⟨t, mem_newcomers.2 ⟨hfound, habsent.1⟩, rfl⟩

/-! ## Looking up who was registered -/

theorem target?_enrol_of_mem (fresh : s.Fresh added) (ht : t ∈ added) :
    (s.enrol now source added).target? t.id = .ok (some t) := by
  obtain ⟨r, hr, hid, hread⟩ := target?_of_registered (registered_enrol.2 (.inr ⟨t, ht, rfl⟩) :
    (s.enrol now source added).Registered t.id)
  refine hread t ?_
  rcases List.mem_append.1 hr with hr | hr
  · exact absurd ⟨r, hr, hid⟩ (fresh.absent t ht)
  · obtain ⟨u, hu, rfl⟩ := List.mem_map.1 hr
    obtain rfl := List.inj_on_of_nodup_map fresh.distinct hu ht (Cell.text.inj hid)
    exact readTarget_newRow now source u

/-- Who was there before is looked up as before. -/
theorem target?_enrol_of_registered (h : s.Registered targetId) :
    (s.enrol now source added).target? targetId = s.target? targetId := by
  have hsome : (s.targets.find? (·.isOf targetId)).isSome = true := by
    rw [List.find?_isSome, ← List.any_eq_true]
    exact any_isOf_iff.2 h
  rw [target?, target?, enrol, List.find?_append, Option.or_of_isSome hsome]

/-! ## Registering once -/

/-- What comes of registering some targets. -/
structure Registers (now : Stamp) (source : String) (targets : List MonitoringTarget) (s : Store) (count : Nat)
    (s' : Store) : Prop where
  /-- Counted are the ids that the store did not have. -/
  counted : count = {id | id ∈ targets.map (·.id) ∧ ¬ s.Registered id}.ncard
  /-- Rows that were there stay as they are, and no more come than are counted. -/
  kept : s.targets <+: s'.targets
  many : s'.targets.length = s.targets.length + count
  samples : s'.samples = s.samples
  /-- A new id has the row of the first target that came with it, just as that came. -/
  first : ∀ t, targets.find? (·.id = t.id) = some t → ¬ s.Registered t.id →
    newRow now source t ∈ s'.targets ∧ s'.target? t.id = .ok (some t)

theorem registers_newcomers (now : Stamp) (source : String) (targets : List MonitoringTarget) (s : Store) :
    s.Registers now source targets (s.newcomers targets).length (s.enrol now source (s.newcomers targets)) where
  counted := length_newcomers s targets
  kept := List.prefix_append ..
  many := by rw [enrol, List.length_append, List.length_map]
  samples := rfl
  first t hfound habsent := by
    have ht : t ∈ s.newcomers targets := mem_newcomers.2 ⟨hfound, habsent⟩
    exact ⟨List.mem_append_right _ (List.mem_map_of_mem ht), target?_enrol_of_mem (s.newcomers_fresh targets) ht⟩

/-! ## Registering more than once -/

/-- In one call those that come later are new if they are after the others are there. -/
theorem register_append (now : Stamp) (source : String) (xs ys : List MonitoringTarget) (s : Store) :
    let between := s.enrol now source (s.newcomers xs)
    register now source (xs ++ ys) s = (.ok ((s.newcomers xs).length + (between.newcomers ys).length),
      between.enrol now source (between.newcomers ys)) := by
  intro between
  have hfold : (xs ++ ys).foldl (registerOne now source) (0, s) =
      ((s.newcomers xs).length + (between.newcomers ys).length, between.enrol now source (between.newcomers ys)) := by
    rw [List.foldl_append, foldl_registerOne, foldl_registerOne, Nat.zero_add]
  rw [register, transaction, hfold]

theorem register_again (now now' : Stamp) (source source' : String) (targets : List MonitoringTarget) (s : Store) :
    let after := s.enrol now source (s.newcomers targets)
    register now' source' targets after = (.ok 0, after) := by
  intro after
  rw [register_newcomers, newcomers_again]
  simp only [enrol, List.map_nil, List.append_nil, List.length_nil]

/-- Rows of one source are the same but for the time. -/
theorem undated_enrol (now now' : Stamp) (source : String) (added : List MonitoringTarget) (s : Store) :
    (s.enrol now source added).targets.map TargetRow.undated =
      (s.enrol now' source added).targets.map TargetRow.undated := by
  have hrow : TargetRow.undated ∘ newRow now source = TargetRow.undated ∘ newRow now' source := by
    funext t
    simp only [Function.comp_apply, TargetRow.undated, newRow]
  simp only [enrol, List.map_append, List.map_map, hrow]

/-! ## Ingesting -/

/-- Ingesting registers the targets of the eligible records, and passes over the others. -/
theorem ingest_newcomers (now : Stamp) (source : String) (records : List TargetRecord) (s : Store) :
    let eligible := (records.filter (·.eligible)).map MonitoringTarget.ofRecord
    ingest now source records s =
      ((register now source eligible s).1.map fun accepted => ⟨accepted, records.countP (!·.eligible)⟩,
        (register now source eligible s).2) := by
  intro eligible
  have heligible : (records.map MonitoringTarget.ofRecord).filter (·.eligible) = eligible := List.filter_map
  have hskipped : records.length - eligible.length = records.countP (!·.eligible) := by
    have hall := List.length_eq_countP_add_countP (fun r : TargetRecord => r.eligible) (l := records)
    simp only [Bool.not_eq_true, Bool.decide_eq_false] at hall
    rw [List.length_map, ← List.countP_eq_length_filter]
    omega
  simp only [ingest, heligible, hskipped]

/-! ## All of it -/

/-- **The algebra of registering.** Registering counts the ids that are new and keeps the first target of each, as it
came and under its source; nothing that was there changes. Registering some targets and then others leaves the rows
that registering all of them at once does, but for the times, and the two counts add up. Registering again adds
nobody and changes nothing, whatever the time and the source. Ingesting records is registering the targets of the
eligible ones in their order, and what it passes over is the others. -/
theorem registration_algebra (s : Store) (now now' : Stamp) (source source' : String) (xs ys : List MonitoringTarget)
    (records : List TargetRecord) :
    let one := register now source xs s
    let two := register now' source ys one.2
    let both := register now source (xs ++ ys) s
    let eligible := (records.filter (·.eligible)).map MonitoringTarget.ofRecord
    let whole := register now source eligible s
    (∃ n m, one.1 = .ok n ∧ s.Registers now source xs n one.2 ∧ two.1 = .ok m ∧ both.1 = .ok (n + m)) ∧
      two.2.targets.map TargetRow.undated = both.2.targets.map TargetRow.undated ∧ two.2.samples = both.2.samples ∧
      register now' source' xs one.2 = (.ok 0, one.2) ∧
      ingest now source records s =
        (whole.1.map fun accepted => ⟨accepted, records.countP (!·.eligible)⟩, whole.2) := by
  intro one two both eligible whole
  have hone : one = (.ok (s.newcomers xs).length, s.enrol now source (s.newcomers xs)) := register_newcomers ..
  have htwo : two = _ := register_newcomers now' source ys one.2
  have hboth : both = _ := register_append now source xs ys s
  rw [hone] at htwo
  refine ⟨⟨_, _, congrArg Prod.fst hone, ?_, congrArg Prod.fst htwo, congrArg Prod.fst hboth⟩, ?_, ?_, ?_,
    ingest_newcomers now source records s⟩
  · rw [hone]
    exact registers_newcomers now source xs s
  · rw [htwo, hboth]
    exact undated_enrol ..
  · rw [htwo, hboth]
    rfl
  · rw [hone]
    exact register_again ..

/-- Two targets of one id and one that is there already under another source: the first of the two is kept, and the
other changes nothing, then or later. Of two records the one that is not eligible is passed over. -/
theorem registration_algebra_repeated :
    let target (id url : String) : MonitoringTarget := ⟨id, url, "", "", true⟩
    let s := (register .epoch "early" [target "b" "old"] empty).2
    let xs := [target "a" "first", target "b" "new", target "a" "second"]
    let one := register .epoch "late" xs s
    let records : List TargetRecord := [⟨"", "Creative Commons BY", "magnet:"⟩, ⟨"", "All rights reserved", "magnet:"⟩]
    one.1 = .ok 1 ∧ one.2.target? "a" = .ok (some (target "a" "first")) ∧
      one.2.target? "b" = .ok (some (target "b" "old")) ∧ register .epoch "later" xs one.2 = (.ok 0, one.2) ∧
      (ingest .epoch "late" records s).1 = .ok ⟨1, 1⟩ := by
  intro target s xs one records
  obtain ⟨⟨n, m, hn, hregisters, -, -⟩, -, -, again, ingests⟩ :=
    registration_algebra s .epoch .epoch "late" "later" xs xs records
  have habsent : ¬ s.Registered "a" := fun h => absurd (any_isOf_iff.2 h) (by decide)
  have hone : one.1 = .ok 1 := by decide
  have hbefore : one.2.target? "b" = .ok (some (target "b" "old")) := by decide
  refine ⟨hone, (hregisters.first (target "a" "first") (by decide) habsent).2, hbefore, again, ?_⟩
  rw [ingests]
  decide +kernel

end Store

end SwarmSampler
