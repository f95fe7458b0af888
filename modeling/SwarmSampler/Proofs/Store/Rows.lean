import Mathlib.Data.List.Forall2
import Mathlib.Data.List.Nodup
import Mathlib.Order.Lattice
import SwarmSampler.Proofs.Store.Reading
import SwarmSampler.Proofs.Store.Sound

/-
What the rows of a store hold that was only written to by its calls: the row of
a target is what registering it made it, marks of checks aside, and the row of a
sample is that of a sample an append has answered. So every row can be read.
-/

namespace SwarmSampler.Store

variable {s s' : Store} {sample stored : HealthSample} {metrics : Option MetricsSnapshot}
  {targetId : String}

/-! ## Answers -/

section Answers

variable {α β ε : Type} {f : α → Except ε β}

theorem bind_eq_ok {x : Except ε α} {b : β} : (x >>= f) = .ok b ↔ ∃ a, x = .ok a ∧ f a = .ok b := by
  cases x with
  | error e => exact ⟨nofun, nofun⟩
  | ok a => exact ⟨fun h => ⟨a, rfl, h⟩, fun ⟨_, rfl, h⟩ => h⟩

theorem map_eq_ok {x : Except ε α} {g : α → β} {b : β} : x.map g = .ok b ↔ ∃ a, x = .ok a ∧ g a = b := by
  cases x with
  | error e => exact ⟨nofun, nofun⟩
  | ok a => exact ⟨fun h => ⟨a, rfl, Except.ok.inj h⟩, fun ⟨_, rfl, h⟩ => congrArg Except.ok h⟩

theorem report_eq_ok {x : Read α} {a : α} : report x = .ok a ↔ x = .ok a := by
  cases x with
  | error e => exact ⟨nofun, nofun⟩
  | ok a => exact ⟨fun h => congrArg Except.ok (Except.ok.inj h), fun h => congrArg Except.ok (Except.ok.inj h)⟩

end Answers

/-! ## Stores that calls lead to -/

/-- A store that calls have led to from an empty one. -/
def Reachable (s : Store) : Prop := ∃ home calls, s = ((⟨home, empty⟩ : Opened).performAll calls).store

theorem Reachable.sound (h : Reachable s) : Sound s := by
  obtain ⟨home, calls, rfl⟩ := h
  exact Opened.performAll_sound calls .empty

theorem Reachable.register (h : Reachable s) (now : Stamp) (source : String)
    (targets : List MonitoringTarget) : Reachable (register now source targets s).2 := by
  obtain ⟨home, calls, rfl⟩ := h
  refine ⟨home, calls ++ [.register now source targets], ?_⟩
  rw [Opened.performAll, Opened.performAll, List.foldl_append]
  rfl

theorem Reachable.append (h : Reachable s) (sample : HealthSample) (metrics : Option MetricsSnapshot) :
    Reachable (append sample metrics s).2 := by
  obtain ⟨home, calls, rfl⟩ := h
  refine ⟨home, calls ++ [.append sample metrics], ?_⟩
  rw [Opened.performAll, Opened.performAll, List.foldl_append]
  rfl

section Holds

/-- What an empty store has and both ways of writing keep. -/
structure Invariant (P : Store → Prop) : Prop where
  empty : P empty
  enrol : ∀ {s} now source added, P s → P (s.enrol now source added)
  append : ∀ {s sample metrics stored s'}, P s → Appended sample metrics s stored s' → P s'

variable {P : Store → Prop}

theorem Opened.perform_invariant (inv : Invariant P) {o : Opened} (h : P o.store) (c : Call) :
    P (o.perform c).store := by
  by_cases hc : o.Lasting [c]
  · obtain ⟨now, source, added, -, -, heq⟩ | ⟨sample, metrics, stored, -, ha⟩ | ⟨-, heq⟩ := perform_cases hc
    · exact heq ▸ inv.enrol now source added h
    · exact inv.append h ha
    · exact heq ▸ h
  · exact perform_of_not_lasting hc ▸ inv.empty

/-- **What both ways of writing keep is true of every store that calls lead to.** -/
theorem Reachable.invariant (inv : Invariant P) (h : Reachable s) : P s := by
  obtain ⟨home, calls, rfl⟩ := h
  suffices hall : ∀ {o : Opened}, P o.store → P (o.performAll calls).store from hall inv.empty
  induction calls with
  | nil => exact id
  | cons c cs ih => exact fun h => ih (Opened.perform_invariant inv h c)

end Holds

/-! ## What rows hold -/

/-- What is read from the row of a new target is the target. -/
theorem readTarget_newRow (now : Stamp) (source : String) (t : MonitoringTarget) :
    readTarget (newRow now source t) = .ok t := by
  obtain ⟨id, url, license, magnet, eligible⟩ := t
  cases eligible <;> rfl

/-- The marks of a check are not in the cells that make up a target. -/
theorem readTarget_registered (r : TargetRow) : readTarget r.registered = readTarget r := rfl

theorem readTarget_of_made {now : Stamp} {source : String} {r : TargetRow} {t : MonitoringTarget}
    (made : r.registered = newRow now source t) : readTarget r = .ok t := by
  rw [← readTarget_registered, made, readTarget_newRow]

/-- The marks of a check are all that an append changes in the rows of targets. -/
theorem Appended.registered_eq (h : Appended sample metrics s stored s') :
    s'.targets.map TargetRow.registered = s.targets.map TargetRow.registered := by
  rw [h.targets_eq, markChecked_registered]

/-- Every row is as the store's own calls write it. -/
structure Written (s : Store) : Prop where
  targets : ∀ r ∈ s.targets, ∃ now source t, r.registered = newRow now source t
  samples : ∀ x ∈ s.samples, ∃ stored metrics, x = rowOf stored metrics ∧
    Stamp.ofMillis? x.millis = some stored.timestamp

theorem Written.empty : Written empty where
  targets _ hr := nomatch hr
  samples _ hx := nomatch hx

theorem Written.enrol (h : Written s) (now : Stamp) (source : String) (added : List MonitoringTarget) :
    Written (s.enrol now source added) where
  targets r hr := by
    rcases List.mem_append.1 hr with hr | hr
    · exact h.targets r hr
    · obtain ⟨t, -, rfl⟩ := List.mem_map.1 hr
      exact ⟨now, source, t, rfl⟩
  samples := h.samples

theorem Written.append (h : Written s) (ha : Appended sample metrics s stored s') : Written s' where
  targets r hr := by
    have hmem : r.registered ∈ s.targets.map TargetRow.registered :=
      ha.registered_eq ▸ List.mem_map_of_mem hr
    obtain ⟨r', hr', heq⟩ := List.mem_map.1 hmem
    rw [← heq]
    exact h.targets r' hr'
  samples x hx := by
    rcases ha.mem_samples hx with hx | rfl
    · exact h.samples x hx
    · exact ⟨stored, metrics, rfl, ha.ofMillis?⟩

theorem Reachable.written (h : Reachable s) : Written s :=
  h.invariant ⟨.empty, fun now source added h => h.enrol now source added, Written.append⟩

/-! ## Reading rows -/

theorem Sound.nodup_ids (h : Sound s) : (s.targets.map (·.id)).Nodup := by
  obtain ⟨ids, hids, hnodup⟩ := h.named
  rw [hids]
  exact List.Pairwise.map _ (fun _ _ hne heq => hne (Cell.text.inj heq)) hnodup

/-- No two rows have one id. -/
theorem Sound.row_eq (h : Sound s) {r r' : TargetRow} (hr : r ∈ s.targets) (hr' : r' ∈ s.targets)
    (same : r.id = r'.id) : r = r' := List.inj_on_of_nodup_map h.nodup_ids hr hr' same

/-- Every row can be read. -/
structure Legible (s : Store) : Prop where
  samples : ∀ r ∈ s.samples, ∃ x, readSample 0 r = .ok x
  targets : ∀ r ∈ s.targets, ∃ t, readTarget r = .ok t

theorem Written.legible (h : Written s) : Legible s where
  samples x hx := by
    obtain ⟨stored, metrics, rfl, hdated⟩ := h.samples x hx
    exact ⟨stored, readSample_rowOf hdated 0⟩
  targets r hr := by
    obtain ⟨now, source, t, made⟩ := h.targets r hr
    exact ⟨t, readTarget_of_made made⟩

theorem Reachable.legible (h : Reachable s) : Legible s := h.written.legible

/-- A registered target is read from a row of its id. -/
theorem target?_of_registered (h : s.Registered targetId) : ∃ r ∈ s.targets, r.id = .text targetId ∧
    ∀ t, readTarget r = .ok t → s.target? targetId = .ok (some t) := by
  obtain ⟨r, hr, hid⟩ := h
  have hsome : (s.targets.find? (·.isOf targetId)).isSome = true :=
    List.find?_isSome.2 ⟨r, hr, TargetRow.isOf_iff.2 hid⟩
  obtain ⟨r', hr'⟩ := Option.isSome_iff_exists.1 hsome
  have hof := List.find?_some hr'
  refine ⟨r', List.mem_of_find?_eq_some hr', TargetRow.isOf_iff.1 hof, fun t ht => ?_⟩
  simp only [Store.target?, hr', report, ht, Except.mapError, Except.map]

theorem target?_of_not_registered (h : ¬ s.Registered targetId) : s.target? targetId = .ok none := by
  have hnone : s.targets.find? (·.isOf targetId) = none :=
    List.find?_eq_none.2 fun r hr hof => h ⟨r, hr, TargetRow.isOf_iff.1 hof⟩
  rw [target?, hnone]

/-- A target that is found is read from a row of the id it was looked up under. -/
theorem row_of_target? {t : MonitoringTarget} (found : s.target? targetId = .ok (some t)) :
    ∃ r ∈ s.targets, r.id = .text targetId ∧ readTarget r = .ok t := by
  unfold Store.target? at found
  split at found
  · next r hr =>
    have hof := List.find?_some hr
    obtain ⟨u, hread, heq⟩ := map_eq_ok.1 found
    cases heq
    exact ⟨r, List.mem_of_find?_eq_some hr, TargetRow.isOf_iff.1 hof, report_eq_ok.1 hread⟩
  · cases found

theorem Legible.target? (h : Legible s) (hr : s.Registered targetId) :
    ∃ t, s.target? targetId = .ok (some t) := by
  obtain ⟨r, hr, -, hread⟩ := target?_of_registered hr
  obtain ⟨t, ht⟩ := h.targets r hr
  exact ⟨t, hread t ht⟩

/-! ## Reading lists of rows -/

section Lists

variable {α β γ ε : Type} {f : α → Except ε β} {l : List α} {bs : List β}

/-- A list is read member by member. -/
theorem mapM_eq_ok_iff : l.mapM f = .ok bs ↔ List.Forall₂ (fun a b => f a = .ok b) l bs := by
  induction l generalizing bs with
  | nil =>
    rw [List.forall₂_nil_left_iff]
    exact ⟨fun h => (Except.ok.inj h).symm, fun h => congrArg Except.ok h.symm⟩
  | cons a l ih =>
    rw [List.forall₂_cons_left_iff]
    simp only [List.mapM_cons, bind_eq_ok, pure, Except.pure, Except.ok.injEq, ih]
    constructor
    · rintro ⟨b, hb, rest, hrest, rfl⟩
      exact ⟨b, rest, hb, hrest, rfl⟩
    · rintro ⟨b, rest, hb, hrest, rfl⟩
      exact ⟨b, hb, rest, hrest, rfl⟩

/-- A list is read where all of its members are. -/
theorem mapM_eq_ok (h : ∀ a ∈ l, ∃ b, f a = .ok b) : ∃ bs, l.mapM f = .ok bs := by
  simp only [mapM_eq_ok_iff]
  induction l with
  | nil => exact ⟨[], .nil⟩
  | cons a l ih =>
    obtain ⟨b, hb⟩ := h a List.mem_cons_self
    obtain ⟨bs, hbs⟩ := ih fun a ha => h a (List.mem_cons_of_mem _ ha)
    exact ⟨b :: bs, .cons hb hbs⟩

section Read

variable (h : l.mapM f = .ok bs)
include h

/-- What is read of a list was read from its members. -/
theorem mem_of_mapM_eq_ok : ∀ b ∈ bs, ∃ a ∈ l, f a = .ok b := by
  have hall := mapM_eq_ok_iff.1 h
  intro b hb
  obtain ⟨i, hi, rfl⟩ := List.mem_iff_getElem.1 hb
  exact ⟨_, List.getElem_mem (hall.length_eq.symm ▸ hi), hall.get _ hi⟩

/-- All members of a list that is read are read. -/
theorem exists_of_mapM_eq_ok : ∀ a ∈ l, ∃ b ∈ bs, f a = .ok b := by
  have hall := mapM_eq_ok_iff.1 h
  intro a ha
  obtain ⟨i, hi, rfl⟩ := List.mem_iff_getElem.1 ha
  exact ⟨_, List.getElem_mem (hall.length_eq ▸ hi), hall.get hi _⟩

/-- What each reading keeps of its member, the reading of the list keeps of the list. -/
theorem map_eq_of_mapM_eq_ok {g : α → γ} {k : β → γ} (same : ∀ a ∈ l, ∀ b, f a = .ok b → k b = g a) :
    bs.map k = l.map g := by
  have hall := (List.forall₂_and_left l bs).2 ⟨same, mapM_eq_ok_iff.1 h⟩
  have hkept : List.Forall₂ Eq (l.map g) (bs.map k) := by
    rw [List.forall₂_map_left_iff, List.forall₂_map_right_iff]
    exact hall.imp fun a b ⟨hsame, hread⟩ => (hsame b hread).symm
  rw [List.forall₂_eq_eq_eq] at hkept
  exact hkept.symm

/-- The front of a list is read as the front of what the list is read as. -/
theorem mapM_take (n : Nat) : (l.take n).mapM f = .ok (bs.take n) :=
  mapM_eq_ok_iff.2 (List.forall₂_take n (mapM_eq_ok_iff.1 h))

theorem mapM_limited (limit : Option UInt64) : (limited limit l).mapM f = .ok (limited limit bs) := by
  cases limit with
  | none => exact h
  | some n =>
    simp only [limited]
    split
    · exact mapM_take h _
    · exact h

end Read

/-- A limit leaves the front of a list. -/
theorem limited_initial {α : Type} (limit : Option UInt64) (l : List α) : limited limit l <+: l := by
  unfold limited
  split
  · split
    · exact List.take_prefix ..
    · exact List.prefix_rfl
  · exact List.prefix_rfl

/-- A limit that has no place among the numbers of a cell is none, which makes no difference to a list that is
no longer than that. -/
theorem limited_eq_take {α : Type} {l : List α} (few : l.length ≤ 9_223_372_036_854_775_808) (n : UInt64) :
    limited (some n) l = l.take n.toNat := by
  rw [limited]
  split
  · rfl
  · rw [List.take_of_length_le (by omega)]

/-- The front of a list that is in order is in order, and so is what it leaves out behind it. -/
theorem pairwise_of_initial {α : Type} {R : α → α → Prop} {front l : List α} (h : front <+: l) (hl : l.Pairwise R) :
    front.Pairwise R ∧ ∀ a ∈ front, ∀ b ∈ l, b ∉ front → R a b := by
  obtain ⟨rest, rfl⟩ := h
  obtain ⟨hfront, -, hacross⟩ := List.pairwise_append.1 hl
  refine ⟨hfront, fun a ha b hb hout => hacross a ha b ?_⟩
  exact (List.mem_append.1 hb).resolve_left hout

/-- What is sorted as its keys are ordered has its keys in order. -/
theorem pairwise_mergeSort_key {κ : Type} [LinearOrder κ] {key : α → κ} {le : α → α → Bool}
    (ordered : ∀ a ∈ l, ∀ b ∈ l, le a b = decide (key a ≤ key b)) :
    (l.mergeSort le).Pairwise fun a b => key a ≤ key b := by
  have hkeys : (l.mergeSort le).map key = (l.map key).mergeSort fun p q => decide (p ≤ q) :=
    List.map_mergeSort ordered
  have hsorted : ((l.map key).mergeSort fun p q => decide (p ≤ q)).Pairwise fun p q => decide (p ≤ q) = true :=
    List.pairwise_mergeSort
      (fun p q w hpq hqw => by simpa using le_trans (of_decide_eq_true hpq) (of_decide_eq_true hqw))
      (fun p q => by simpa using le_total p q) (l.map key)
  rw [← hkeys, List.pairwise_map] at hsorted
  exact hsorted.imp of_decide_eq_true

end Lists

end SwarmSampler.Store
