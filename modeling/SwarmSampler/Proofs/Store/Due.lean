import SwarmSampler.Proofs.Store.Rows
import SwarmSampler.Proofs.Time.Order

/-
Which targets are due first. A target that was never checked comes before all
that were, and of two that were, the one whose newest sample is older: the text
in a target's row is in the order of the times, as long as these lie in years of
four digits.
-/

namespace SwarmSampler

namespace Cell

/-! ## The order of cells -/

theorem listBefore_iff {a b : List Char} :
    listBefore (a.map (·.toNat)) (b.map (·.toNat)) = true ↔ a < b := by
  induction a generalizing b with
  | nil => cases b <;> simp [listBefore]
  | cons c a ih =>
    cases b with
    | nil => simp [listBefore]
    | cons d b =>
      have hlt : ∀ {c d : Char}, c < d ↔ c.toNat < d.toNat := by
        intro c d
        rw [Char.lt_def, UInt32.lt_iff_toNat_lt]
        rfl
      rw [List.cons_lt_cons_iff, ← ih, hlt, ← Char.toNat_inj, List.map_cons, List.map_cons, listBefore]
      split
      · next h => simp only [h, true_or]
      · next h =>
        split
        · simp only [h, Bool.false_eq_true, false_or, false_iff, not_and]
          omega
        · simp only [h, false_or]
          have heq : c.toNat = d.toNat := by omega
          simp only [heq, true_and]

/-- A cell of a time as the store writes it: a text, or nothing. -/
def IsPlain (c : Cell) : Prop := c = .null ∨ ∃ s, c = .text s

/-- Where a plain cell stands: nothing comes first, then texts in their order. -/
def key : Cell → List Char
  | text s => ' ' :: s.toList
  | _ => []

theorem before_iff {a b : Cell} (ha : a.IsPlain) (hb : b.IsPlain) : a.before b = true ↔ a.key < b.key := by
  obtain rfl | ⟨s, rfl⟩ := ha <;> obtain rfl | ⟨t, rfl⟩ := hb
  · simp [before, rank, key]
  · simp [before, rank, key]
  · simp [before, rank, key]
  · rw [key, key, List.cons_lt_cons_iff]
    simp only [lt_self_iff_false, false_or, true_and]
    exact listBefore_iff

end Cell

namespace Store

variable {s : Store} {r r' : TargetRow} {id id' : String}

/-! ## Sorting by what is due -/

/-- Whether a pair of keys comes no later than another. -/
def dueLe (p q : List Char × List Char) : Bool := decide (p.1 < q.1 ∨ p.1 ≤ q.1 ∧ q.2 ≤ p.2)

theorem dueLe_iff {p q : List Char × List Char} : dueLe p q = true ↔ p.1 < q.1 ∨ p.1 ≤ q.1 ∧ q.2 ≤ p.2 :=
  decide_eq_true_iff

theorem dueLe_trans (p q w : List Char × List Char) (hpq : dueLe p q = true) (hqw : dueLe q w = true) :
    dueLe p w = true := by
  rw [dueLe_iff] at *
  rcases hpq with hpq | ⟨hpq, hpq'⟩
  · rcases hqw with hqw | ⟨hqw, -⟩
    · exact .inl (lt_trans hpq hqw)
    · exact .inl (lt_of_lt_of_le hpq hqw)
  · rcases hqw with hqw | ⟨hqw, hqw'⟩
    · exact .inl (lt_of_le_of_lt hpq hqw)
    · exact .inr ⟨le_trans hpq hqw, le_trans hqw' hpq'⟩

theorem dueLe_total (p q : List Char × List Char) : (dueLe p q || dueLe q p) = true := by
  rw [Bool.or_eq_true, dueLe_iff, dueLe_iff]
  rcases lt_trichotomy p.1 q.1 with h | h | h
  · exact .inl (.inl h)
  · rcases le_total q.2 p.2 with h' | h'
    · exact .inl (.inr ⟨le_of_eq h, h'⟩)
    · exact .inr (.inr ⟨le_of_eq h.symm, h'⟩)
  · exact .inr (.inl h)

/-- Both times of a row are as the store writes them. -/
def Timed (r : TargetRow) : Prop := r.lastCheckedAt.IsPlain ∧ r.firstSeenAt.IsPlain

def dueKey (r : TargetRow) : List Char × List Char := (r.lastCheckedAt.key, r.firstSeenAt.key)

theorem dueBefore_eq (h : Timed r) (h' : Timed r') : dueBefore r r' = dueLe (dueKey r) (dueKey r') := by
  rw [Bool.eq_iff_iff, dueLe_iff]
  simp only [dueBefore, Bool.or_eq_true, Bool.and_eq_true, Bool.not_eq_true', ← Bool.not_eq_true,
    Cell.before_iff h.1 h'.1, Cell.before_iff h'.1 h.1, Cell.before_iff h.2 h'.2, not_lt, dueKey]

/-- No due row has a row after it that is to come before. -/
theorem dueRows_sorted (timed : ∀ r ∈ s.targets, Timed r) :
    s.dueRows.Pairwise fun r r' => r.lastCheckedAt.key ≤ r'.lastCheckedAt.key := by
  have hkeys : s.dueRows.map dueKey = ((s.targets.filter markedEligible).map dueKey).mergeSort dueLe :=
    List.map_mergeSort fun r hr r' hr' =>
      dueBefore_eq (timed r (List.mem_filter.1 hr).1) (timed r' (List.mem_filter.1 hr').1)
  have hsorted := List.pairwise_mergeSort dueLe_trans dueLe_total ((s.targets.filter markedEligible).map dueKey)
  rw [← hkeys, List.pairwise_map] at hsorted
  exact hsorted.imp fun h => (dueLe_iff.1 h).elim le_of_lt And.left

theorem mem_dueRows : r ∈ s.dueRows ↔ r ∈ s.targets ∧ markedEligible r = true := by
  rw [dueRows, (List.mergeSort_perm ..).mem_iff, List.mem_filter]

/-! ## Times of rows -/

/-- All samples lie in years of four digits. -/
def FourDigits (s : Store) : Prop := ∀ x ∈ s.samples, ∀ t ∈ Stamp.ofMillis? x.millis, t.FourDigit

instance (s : Store) : Decidable s.FourDigits := inferInstanceAs (Decidable (∀ x ∈ s.samples, _))

/-- The cell of a target's row that says when it was last checked. -/
theorem Sound.lastCheckedAt_eq (h : Sound s) (hr : r ∈ s.targets) (hid : r.id = .text id) :
    (s.latestMillis? id = none ∧ r.lastCheckedAt = .null) ∨
      ∃ x ∈ s.samples, ∃ t, s.latestMillis? id = some x.millis ∧ Stamp.ofMillis? x.millis = some t ∧
        r.lastCheckedAt = .text t.storedText := by
  have htold := h.told r hr id hid
  cases hlast : s.latestMillis? id with
  | none => exact .inl ⟨rfl, htold.never.2 (latestMillis?_eq_none.1 hlast)⟩
  | some last =>
    obtain ⟨⟨x, hx, rfl⟩, hmax⟩ := latestMillis?_eq_some hlast
    obtain ⟨t, ht, hcell⟩ := htold.last x hx hmax
    exact .inr ⟨x, (mem_samplesOf.1 hx).1, t, rfl, ht, hcell⟩

/-- A target was last checked before another was, or never, and the other was checked. -/
def Staler (s : Store) (y x : String) : Prop :=
  ∃ last, s.latestMillis? x = some last ∧ ∀ before, s.latestMillis? y = some before → before < last

/-- **The row of a staler target comes first.** -/
theorem key_lt_of_staler (h : Sound s) (years : s.FourDigits) (hr : r ∈ s.targets) (hr' : r' ∈ s.targets)
    (hid : r.id = .text id) (hid' : r'.id = .text id') (staler : s.Staler id id') :
    r.lastCheckedAt.key < r'.lastCheckedAt.key := by
  obtain ⟨last, hlast, hbefore⟩ := staler
  rcases h.lastCheckedAt_eq hr' hid' with ⟨hnone, -⟩ | ⟨x', hx', t', hlast', ht', hcell'⟩
  · rw [hnone] at hlast
    cases hlast
  · rw [hlast', Option.some.injEq] at hlast
    rcases h.lastCheckedAt_eq hr hid with ⟨-, hcell⟩ | ⟨x, hx, t, hlast, ht, hcell⟩
    · rw [hcell, hcell']
      exact List.nil_lt_cons ..
    · have hlt := hbefore _ hlast
      rw [hcell, hcell']
      exact Stamp.cons_lt (Stamp.storedText_lt ht ht' (years x hx t ht) (years x' hx' t' ht') (by omega))

/-! ## Eligible targets -/

/-- A target that is registered and eligible. -/
def IsEligible (s : Store) (t : MonitoringTarget) : Prop :=
  ∃ r ∈ s.targets, markedEligible r = true ∧ readTarget r = .ok t

theorem Written.id_eq {t : MonitoringTarget} (h : Written s) (hr : r ∈ s.targets) (hread : readTarget r = .ok t) :
    r.id = .text t.id := by
  obtain ⟨now, source, u, made⟩ := h.targets r hr
  cases hread.symm.trans (readTarget_of_made made)
  exact congrArg TargetRow.id made

/-- An id is the id of one eligible target at most. -/
theorem IsEligible.eq_of_id {t u : MonitoringTarget} (h : Reachable s) (ht : s.IsEligible t) (hu : s.IsEligible u)
    (same : t.id = u.id) : t = u := by
  obtain ⟨r, hr, -, hread⟩ := ht
  obtain ⟨r', hr', -, hread'⟩ := hu
  have hid := h.written.id_eq hr hread
  have hid' := h.written.id_eq hr' hread'
  obtain rfl := h.sound.row_eq hr hr' (by rw [hid, hid', same])
  exact Except.ok.inj (hread.symm.trans hread')

theorem Written.timed (h : Written s) (hs : Sound s) (hr : r ∈ s.targets) : Timed r := by
  obtain ⟨now, source, t, made⟩ := h.targets r hr
  refine ⟨?_, .inr ⟨_, congrArg TargetRow.firstSeenAt made⟩⟩
  rcases hs.lastCheckedAt_eq hr (congrArg TargetRow.id made) with ⟨-, hcell⟩ | ⟨x, -, t, -, -, hcell⟩
  · exact .inl hcell
  · exact .inr ⟨_, hcell⟩

/-- The due rows can be read, and what is read of them are the eligible targets. -/
theorem mapM_dueRows (h : Reachable s) : ∃ due : List MonitoringTarget, s.dueRows.mapM readTarget = .ok due ∧
    ∀ t, t ∈ due ↔ s.IsEligible t := by
  obtain ⟨due, hdue⟩ := mapM_eq_ok (f := readTarget) (l := s.dueRows) fun r hr =>
    h.legible.targets r (mem_dueRows.1 hr).1
  refine ⟨due, hdue, fun t => ⟨fun ht => ?_, ?_⟩⟩
  · obtain ⟨r, hr, hread⟩ := mem_of_mapM_eq_ok hdue t ht
    exact ⟨r, (mem_dueRows.1 hr).1, (mem_dueRows.1 hr).2, hread⟩
  · rintro ⟨r, hr, heligible, hread⟩
    obtain ⟨u, hu, hread'⟩ := exists_of_mapM_eq_ok hdue r (mem_dueRows.2 ⟨hr, heligible⟩)
    cases hread.symm.trans hread'
    exact hu

/-- **The eligible targets, each once, none after one that is less stale**; a listing answers the
first of them up to its limit. -/
theorem due_spec (h : Reachable s) (years : s.FourDigits) : ∃ due : List MonitoringTarget,
    (∀ limit, s.eligibleTargets limit = .ok (limited limit due)) ∧ due.Nodup ∧
      (∀ t, t ∈ due ↔ s.IsEligible t) ∧ due.Pairwise fun t u => ¬ s.Staler u.id t.id := by
  have hrows : ∀ {r}, r ∈ s.dueRows → r ∈ s.targets := fun hr => (mem_dueRows.1 hr).1
  obtain ⟨due, hdue, hmem⟩ := mapM_dueRows h
  have hids : due.map (fun t => Cell.text t.id) = s.dueRows.map (·.id) :=
    map_eq_of_mapM_eq_ok hdue fun r hr t ht => (h.written.id_eq (hrows hr) ht).symm
  refine ⟨due, fun limit => report_eq_ok.2 (mapM_limited hdue limit), ?_, hmem, ?_⟩
  · have hnodup : (s.dueRows.map (·.id)).Nodup :=
      ((List.mergeSort_perm ..).map _).nodup_iff.2 (h.sound.nodup_ids.sublist (List.filter_sublist.map _))
    exact (hids ▸ hnodup).of_map
  · -- The rows are sorted, and the targets stand as their rows do.
    let behind (c c' : Cell) : Prop := ∀ id id', c = .text id → c' = .text id' → ¬ s.Staler id' id
    have hsorted : (s.dueRows.map (·.id)).Pairwise behind := by
      rw [List.pairwise_map]
      refine List.Pairwise.imp_of_mem (fun hr hr' hle id id' hid hid' hstaler => ?_)
        (dueRows_sorted fun r hr => h.written.timed h.sound hr)
      exact absurd hle (not_le_of_gt (key_lt_of_staler h.sound years (hrows hr') (hrows hr) hid' hid hstaler))
    rw [← hids, List.pairwise_map] at hsorted
    exact hsorted.imp fun hbehind => hbehind _ _ rfl rfl

end Store

end SwarmSampler
