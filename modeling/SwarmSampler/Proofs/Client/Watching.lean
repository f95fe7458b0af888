import SwarmSampler.Client.Engine

/-
What comes of watching a session. It is over when the last poll is, or at an
earlier poll that decides. Where no poll decides, the last table with metadata
is the answer, so a swarm whose tables stay empty has an empty answer.
-/

namespace SwarmSampler.EngineClient

open PeerEngine (tableAt)

variable {rows : List TableRow} {hash : InfoHash} {r : Rhythm} {limit : Span}

theorem turn_le {ages : List Nat} {age : Nat} : r.turn ages age ≤ r.last := by
  unfold Rhythm.turn
  split <;> omega

/-- A session is watched until its last poll and no longer. -/
theorem watch_le {before : Option PeerTable} {age : Nat} (h : age ≤ r.last) :
    age ≤ (watch rows hash r limit before age).1 ∧ (watch rows hash r limit before age).1 ≤ r.last := by
  fun_induction watch rows hash r limit before age with
  | case1 before age table result hv => exact ⟨Nat.le_refl _, h⟩
  | case2 before age table hv hl => exact ⟨Nat.le_refl _, h⟩
  | case3 before age table hv hl ih =>
    have hturn := r.lt_turn (PeerEngine.changes rows) (Nat.lt_of_not_le hl)
    obtain ⟨hfrom, hto⟩ := ih turn_le
    exact ⟨by omega, hto⟩

/-- A table that does not decide: it is there, and has no metadata or lists no peers. -/
def Undecided (table : Option PeerTable) : Prop :=
  ∃ t, table = some t ∧ ¬ (t.hasMetadata = true ∧ 0 < t.listPeers)

theorem verdict?_eq_none_iff {table : Option PeerTable} : verdict? hash table = none ↔ Undecided table := by
  unfold verdict? Undecided
  cases table with
  | none => simp
  | some t => simp [Bool.and_eq_true]

/-- Where no table decides and the last has metadata, the last is the answer. -/
theorem watch_of_undecided {before : Option PeerTable} {age : Nat} {t : PeerTable} (h : age ≤ r.last)
    (undecided : ∀ a, age ≤ a → a ≤ r.last → Undecided (tableAt rows a))
    (last : tableAt rows r.last = some t) (metadata : t.hasMetadata = true) :
    watch rows hash r limit before age = (r.last, .ok t.counts) := by
  fun_induction watch rows hash r limit before age with
  | case1 before age table result hv =>
    rw [verdict?_eq_none_iff.2 (undecided age (Nat.le_refl _) h)] at hv
    cases hv
  | case2 before age table hv hl =>
    obtain rfl : age = r.last := Nat.le_antisymm h hl
    have htable : table = some t := last
    simp only [htable, known, metadata, if_true, overdue]
  | case3 before age table hv hl ih =>
    have hturn := r.lt_turn (PeerEngine.changes rows) (Nat.lt_of_not_le hl)
    refine ih turn_le fun a ha => undecided a (by omega)

end SwarmSampler.EngineClient
