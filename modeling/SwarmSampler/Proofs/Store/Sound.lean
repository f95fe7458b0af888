import SwarmSampler.Proofs.Store.Calls

/-
What is true of a store whatever calls have been made on it: the times of a
target's samples rise in the order they were stored, the marks in its row tell
how many there are and when the newest was taken, every sample adds up and
belongs to a target that is there, and nothing that was stored or registered
is ever changed.
-/

namespace SwarmSampler.Store

variable {s s' : Store} {sample stored : HealthSample} {metrics : Option MetricsSnapshot}
  {targetId : String} {now : Stamp} {source : String}

/-- A target's row tells of its samples: how many there are, and when the newest was taken. -/
structure Tells (rows : List SampleRow) (r : TargetRow) : Prop where
  count : r.checkCount = .integer rows.length
  never : r.lastCheckedAt = .null ↔ rows = []
  last : ∀ x ∈ rows, (∀ y ∈ rows, y.millis ≤ x.millis) →
    ∃ t, Stamp.ofMillis? x.millis = some t ∧ r.lastCheckedAt = .text t.storedText

/-- What is true of a store at all times. -/
structure Sound (s : Store) : Prop where
  /-- Targets have ids, all of them different. -/
  named : ∃ ids : List String, s.targets.map (·.id) = ids.map .text ∧ ids.Nodup
  /-- The times of a target's samples rise. -/
  rising : ∀ targetId, (s.samplesOf targetId).Pairwise fun x y => x.millis < y.millis
  /-- The row of a target tells of its samples. -/
  told : ∀ r ∈ s.targets, ∀ targetId, r.id = .text targetId → Tells (s.samplesOf targetId) r
  summed : ∀ x ∈ s.samples, x.totalPeers = x.seeders + x.leechers
  owned : ∀ x ∈ s.samples, s.Registered x.targetId
  dated : s.Dated

/-- What was in a store stays in it as it was, marks of checks aside. -/
structure Extends (s s' : Store) : Prop where
  samples : s.samples <+: s'.samples
  targets : s.targets.map TargetRow.registered <+: s'.targets.map TargetRow.registered

theorem Extends.refl (s : Store) : Extends s s := ⟨List.prefix_rfl, List.prefix_rfl⟩

theorem Extends.trans {s₁ s₂ s₃ : Store} (h : Extends s₁ s₂) (h' : Extends s₂ s₃) : Extends s₁ s₃ :=
  ⟨h.samples.trans h'.samples, h.targets.trans h'.targets⟩

theorem Sound.empty : Sound empty where
  named := ⟨[], rfl, .nil⟩
  rising _ := .nil
  told _ hr := nomatch hr
  summed _ hx := nomatch hx
  owned _ hx := nomatch hx
  dated _ hx := nomatch hx

/-! ## Registering -/

theorem Sound.samplesOf_eq_nil (h : Sound s) (hr : ¬ s.Registered targetId) :
    s.samplesOf targetId = [] := by
  refine List.eq_nil_iff_forall_not_mem.2 fun x hx => hr ?_
  obtain ⟨hm, rfl⟩ := mem_samplesOf.1 hx
  exact h.owned x hm

theorem Tells.newRow (t : MonitoringTarget) : Tells [] (newRow now source t) where
  count := rfl
  never := ⟨fun _ => rfl, fun _ => rfl⟩
  last _ hx := nomatch hx

theorem Sound.enrol {added : List MonitoringTarget} (h : Sound s) (hf : s.Fresh added) :
    Sound (s.enrol now source added) where
  named := by
    obtain ⟨ids, hids, hnd⟩ := h.named
    refine ⟨ids ++ added.map (·.id), ?_, ?_⟩
    · simp only [Store.enrol, List.map_append, hids, List.map_map, Function.comp_def, Store.newRow]
    · refine List.nodup_append.2 ⟨hnd, hf.distinct, ?_⟩
      rintro id hid _ hm rfl
      obtain ⟨t, ht, rfl⟩ := List.mem_map.1 hm
      have hc : Cell.text t.id ∈ s.targets.map (·.id) := hids ▸ List.mem_map_of_mem hid
      exact hf.absent t ht (List.mem_map.1 hc)
  rising := h.rising
  told r hr targetId hid := by
    rcases List.mem_append.1 hr with hr | hr
    · exact h.told r hr targetId hid
    · obtain ⟨t, ht, rfl⟩ := List.mem_map.1 hr
      obtain rfl := Cell.text.inj hid
      have hnone : (s.enrol now source added).samplesOf t.id = [] :=
        h.samplesOf_eq_nil (hf.absent t ht)
      rw [hnone]
      exact Tells.newRow t
  summed := h.summed
  owned x hx := registered_enrol.2 (.inl (h.owned x hx))
  dated := h.dated

theorem Extends.enrol (added : List MonitoringTarget) (s : Store) :
    Extends s (s.enrol now source added) where
  samples := List.prefix_rfl
  targets := by
    rw [Store.enrol, List.map_append]
    exact List.prefix_append ..

/-! ## Appending -/

/-- Numbers of a range that rise are no more than the range holds. -/
theorem length_le_of_pairwise_lt (hi : Int) : ∀ (lo : Int) {l : List Int}, l.Pairwise (· < ·) →
    (∀ n ∈ l, lo ≤ n ∧ n ≤ hi) → (l.length : Int) ≤ max 0 (hi + 1 - lo)
  | _, [], _, _ => by simp only [List.length_nil]; omega
  | _, n :: l, hp, hr => by
    obtain ⟨hn, hp⟩ := List.pairwise_cons.1 hp
    have hl := length_le_of_pairwise_lt hi (n + 1) hp fun m hm =>
      ⟨hn m hm, (hr m (.tail _ hm)).2⟩
    have := hr n (.head _)
    rw [List.length_cons]
    omega

/-- A target has fewer samples than a cell can count. -/
theorem Sound.fits_succ_length (h : Sound s) (targetId : String) :
    Cell.fits ((s.samplesOf targetId).length + 1 : Nat) = true := by
  have hl := length_le_of_pairwise_lt Stamp.lastMillis Stamp.firstMillis
    (List.pairwise_map.2 (h.rising targetId)) fun n hn => by
      obtain ⟨x, hx, rfl⟩ := List.mem_map.1 hn
      exact h.dated x (mem_samplesOf.1 hx).1
  rw [List.length_map] at hl
  simp only [Stamp.firstMillis, Stamp.lastMillis, firstSecond, lastSecond] at hl
  simp only [Cell.fits, Bool.and_eq_true, decide_eq_true_eq]
  simp only [Cell.leastInteger, Cell.greatestInteger]
  omega

theorem Tells.append {rows : List SampleRow} {r : TargetRow} {x : SampleRow} {t : Stamp}
    (h : Tells rows r) (hfits : Cell.fits (rows.length + 1 : Nat) = true)
    (hlater : ∀ y ∈ rows, y.millis < x.millis) (ht : Stamp.ofMillis? x.millis = some t) :
    Tells (rows ++ [x]) (r.marked t) where
  count := by
    simp only [TargetRow.marked, h.count, Cell.increment, Cell.asNumber, List.length_append,
      List.length_singleton]
    rw [← Int.natCast_succ, if_pos hfits]
  never := by simp [TargetRow.marked]
  last y hy hmax := by
    rcases List.mem_append.1 hy with hy | hy
    · -- An earlier sample is not the newest.
      have := hmax x (List.mem_append_right _ (.head _))
      have := hlater y hy
      omega
    · obtain rfl := List.mem_singleton.1 hy
      exact ⟨t, ht, rfl⟩

theorem markChecked_ids (s : Store) (t : Stamp) :
    (s.markChecked targetId t).targets.map (·.id) = s.targets.map (·.id) := by
  simp only [markChecked, List.map_map]
  refine List.map_congr_left fun r _ => ?_
  simp only [Function.comp_apply]
  split <;> rfl

theorem markChecked_registered (s : Store) (t : Stamp) :
    (s.markChecked targetId t).targets.map TargetRow.registered =
      s.targets.map TargetRow.registered := by
  simp only [markChecked, List.map_map]
  refine List.map_congr_left fun r _ => ?_
  simp only [Function.comp_apply]
  split <;> rfl

theorem registered_iff_mem_ids : s.Registered targetId ↔ .text targetId ∈ s.targets.map (·.id) := by
  simp only [Registered, List.mem_map]

section Append

variable (h : Appended sample metrics s stored s')
include h

theorem Appended.samplesOf_eq (targetId : String) :
    s'.samplesOf targetId =
      s.samplesOf targetId ++ if stored.targetId = targetId then [rowOf stored metrics] else [] := by
  simp only [samplesOf, h.samples_eq, List.filter_append, List.filter_cons, List.filter_nil,
    decide_eq_true_eq]
  rfl

theorem Appended.registered_iff : s'.Registered targetId ↔ s.Registered targetId := by
  rw [registered_iff_mem_ids, h.targets_eq, markChecked_ids, ← registered_iff_mem_ids]

theorem Sound.append (hs : Sound s) : Sound s' where
  named := by
    rw [h.targets_eq, markChecked_ids]
    exact hs.named
  rising targetId := by
    rw [h.samplesOf_eq]
    split
    · next hid =>
      refine List.pairwise_append.2 ⟨hs.rising targetId, List.pairwise_singleton .., ?_⟩
      intro x hx y hy
      rw [List.mem_singleton.1 hy]
      exact h.later hs.dated (hid ▸ hx)
    · simpa only [List.append_nil] using hs.rising targetId
  told r' hr' targetId hid := by
    rw [h.targets_eq] at hr'
    obtain ⟨r, hr, rfl⟩ := List.mem_map.1 hr'
    rw [h.samplesOf_eq]
    by_cases hof : r.isOf stored.targetId = true
    · have htext := TargetRow.isOf_iff.1 hof
      rw [if_pos hof] at hid ⊢
      obtain rfl : stored.targetId = targetId := Cell.text.inj (htext.symm.trans hid)
      rw [if_pos rfl]
      exact (hs.told r hr _ htext).append (hs.fits_succ_length _) (fun y => h.later hs.dated) h.ofMillis?
    · rw [if_neg hof] at hid ⊢
      have hne : stored.targetId ≠ targetId := by
        rintro rfl
        exact hof (TargetRow.isOf_iff.2 hid)
      rw [if_neg hne, List.append_nil]
      exact hs.told r hr targetId hid
  summed x hx := by
    rcases h.mem_samples hx with hx | rfl
    · exact hs.summed x hx
    · exact h.total
  owned x hx := by
    rw [h.registered_iff]
    rcases h.mem_samples hx with hx | rfl
    · exact hs.owned x hx
    · exact h.registered
  dated x hx := by
    rcases h.mem_samples hx with hx | rfl
    · exact hs.dated x hx
    · exact h.range

theorem Extends.append : Extends s s' where
  samples := by
    rw [h.samples_eq]
    exact List.prefix_append ..
  targets := by
    have hsame : s'.targets.map TargetRow.registered = s.targets.map TargetRow.registered := by
      rw [h.targets_eq, markChecked_registered]
    exact hsame ▸ List.prefix_rfl

end Append

/-! ## Runs -/

namespace Opened

variable {o : Opened} {c : Call} {cs : List Call}

/-- A call keeps a sound store sound. -/
theorem perform_sound (h : Sound o.store) (c : Call) : Sound (o.perform c).store := by
  by_cases hc : o.Lasting [c]
  · obtain ⟨now, source, added, hf, -, heq⟩ | ⟨sample, metrics, stored, -, ha⟩ | ⟨-, heq⟩ :=
      perform_cases hc
    · rw [heq]
      exact h.enrol hf
    · exact h.append ha
    · rw [heq]
      exact h
  · rw [perform_of_not_lasting hc]
    exact .empty

/-- A call that lasts leaves what was there as it was, and stores what it keeps after it. -/
theorem perform_extends (hc : o.Lasting [c]) :
    Extends o.store (o.perform c).store ∧
      (o.perform c).store.samples = o.store.samples ++ (o.kept? c).toList.map Kept.row := by
  obtain ⟨now, source, added, -, hk, heq⟩ | ⟨sample, metrics, stored, hk, ha⟩ | ⟨hk, heq⟩ :=
    perform_cases hc
  · rw [heq, hk]
    exact ⟨.enrol added o.store, by simp [Store.enrol]⟩
  · rw [hk]
    exact ⟨.append ha, ha.samples_eq⟩
  · rw [heq, hk]
    exact ⟨.refl o.store, by simp⟩

theorem performAll_sound (cs : List Call) :
    ∀ {o : Opened}, Sound o.store → Sound (o.performAll cs).store := by
  induction cs with
  | nil => exact id
  | cons c cs ih => exact fun h => ih (perform_sound h c)

theorem performAll_extends (cs : List Call) : ∀ {o : Opened}, o.Lasting cs →
    Extends o.store (o.performAll cs).store ∧
      (o.performAll cs).store.samples = o.store.samples ++ (o.keptBy cs).map Kept.row := by
  induction cs with
  | nil => exact fun _ => ⟨.refl _, by simp [performAll, keptBy]⟩
  | cons c cs ih =>
    intro o h
    obtain ⟨he, hs⟩ := perform_extends h.head
    obtain ⟨he', hs'⟩ := ih h.tail
    refine ⟨he.trans he', ?_⟩
    simp only [performAll, List.foldl_cons, keptBy, List.map_append] at hs' ⊢
    rw [hs', hs, List.append_assoc]

/-- **A store is sound whatever is done to it.** Its samples are those its appends answered, in the
order they did, and whatever is done later leaves its samples and what was registered as they are. -/
theorem performAll_new_sound (home : Home) (calls later : List Call) :
    let new : Opened := ⟨home, empty⟩
    let o := new.performAll calls
    Sound o.store ∧
      (new.Lasting calls → o.store.samples = (new.keptBy calls).map Kept.row) ∧
      (o.Lasting later → Extends o.store (o.performAll later).store) := by
  intro new o
  refine ⟨performAll_sound calls .empty, fun h => ?_, fun h => (performAll_extends later h).1⟩
  rw [(performAll_extends calls h).2]
  rfl

/-- A sample whose id is taken is not stored; one that comes at the same instant is stored just
after it. -/
example :
    let target : MonitoringTarget := ⟨"t", "", "", "", true⟩
    let sample (id : String) : HealthSample := ⟨id, "t", .epoch, 2, 1, 3, .ok, 1, none⟩
    let calls := [.register .epoch "" [target], .append (sample "a") none, .reopen,
      .append (sample "a") none, .append (sample "b") none]
    ((⟨⟨"store", false⟩, empty⟩ : Opened).performAll calls).store.samples.map (fun r => (r.id, r.millis)) =
      [("a", 0), ("b", 1)] := by decide

end Opened

end SwarmSampler.Store
