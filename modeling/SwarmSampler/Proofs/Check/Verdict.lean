import SwarmSampler.Check.Run

/-
What a check comes to with its latest attempt. It goes on only after a result
that does not decide, and only while it may try again (`outcomeWith_eq_none_iff`);
a check that ends undecided goes by the latest error of its whole log
(`outcomeWith_of_undecided`).
-/

namespace SwarmSampler

theorem PeerCounts.total_pos (c : PeerCounts) : 0 < c.total ↔ 0 < c.seeders ∨ 0 < c.leechers := by
  simp only [UInt32.lt_iff_toNat_lt, UInt32.toNat_zero, c.toNat_total]
  omega

/-- Whether a result ends a check at once: there are peers, or the magnet is none. -/
def QueryResult.Decisive : QueryResult → Prop
  | .ok c => 0 < c.seeders ∨ 0 < c.leechers
  | .error (.invalidMagnet _) => True
  | .error _ => False

/-- Whether a result says that there are no peers. -/
def QueryResult.Deserted : QueryResult → Prop
  | .ok c => c.seeders = 0 ∧ c.leechers = 0
  | .error _ => False

/-! ## The latest error -/

theorem lastError_append (log : List Attempt) (a : Attempt) :
    lastError (log ++ [a]) =
      match a.result with
      | .ok _ => lastError log
      | .error e => some e := by
  unfold lastError
  rw [List.reverse_append, List.reverse_singleton, List.singleton_append, List.findSome?_cons]
  cases a.result <;> rfl

theorem lastError_eq_none {log : List Attempt} (h : ∀ a ∈ log, ∃ c, a.result = .ok c) :
    lastError log = none := by
  unfold lastError
  rw [List.findSome?_eq_none_iff]
  intro a ha
  obtain ⟨c, hc⟩ := h a (List.mem_reverse.mp ha)
  rw [hc]

theorem lastError_eq_some {before after : List Attempt} {a : Attempt} {e : QueryError}
    (he : a.result = .error e) (h : ∀ x ∈ after, ∃ c, x.result = .ok c) :
    lastError (before ++ a :: after) = some e := by
  have hn := lastError_eq_none h
  unfold lastError at hn ⊢
  rw [List.reverse_append, List.reverse_cons, List.findSome?_append, List.findSome?_append, hn]
  simp [he]

/-! ## Where an attempt leads -/

namespace CheckState

theorem outcome?_afterEmpty {log : List Attempt} {n : UInt32} {e : Option QueryError}
    {policy : RetryPolicy} :
    (afterEmpty n e policy).outcome? log =
      if n < policy.maxAttempts then none
      else
        match e with
        | none =>
          some ⟨.noPeers, .none, n, some ("no peers after " ++ toString n.toNat ++ " attempts"), log⟩
        | some e => some ⟨.error, .none, n, some e.message, log⟩ := by
  unfold afterEmpty
  split
  · rfl
  · cases e <;> rfl

end CheckState

namespace Probe

variable {τ : Type}

/-- What a check comes to that ends without a decision. -/
def undecided (log : List Attempt) (attempts : UInt32) : CheckOutcome :=
  match lastError log with
  | none =>
    ⟨.noPeers, .none, attempts, some ("no peers after " ++ toString attempts.toNat ++ " attempts"), log⟩
  | some e => ⟨.error, .none, attempts, some e.message, log⟩

theorem outcomeWith_of_peers {p : Probe τ} {a : Attempt} {c : PeerCounts} (hr : a.result = .ok c)
    (hc : 0 < c.seeders ∨ 0 < c.leechers) :
    p.outcomeWith a = some ⟨.ok, c, a.number, none, p.log ++ [a]⟩ := by
  have ht : 0 < c.total := c.total_pos.mpr hc
  have hs : CheckState.afterAttempt a.number a.result = .success a.number c := by
    rw [hr]
    exact if_pos ht
  unfold outcomeWith CheckState.afterResult
  rw [hs]
  rfl

theorem outcomeWith_of_malformed {p : Probe τ} {a : Attempt} {detail : String}
    (hr : a.result = .error (.invalidMagnet detail)) :
    p.outcomeWith a =
      some ⟨.error, .none, a.number, some ("invalid magnet: " ++ detail), p.log ++ [a]⟩ := by
  unfold outcomeWith CheckState.afterResult
  rw [hr]
  rfl

/-- A result that does not decide leads to another attempt as long as there may be one. -/
theorem outcomeWith_of_undecided {p : Probe τ} {a : Attempt}
    (hr : ¬ QueryResult.Decisive a.result) :
    p.outcomeWith a =
      if a.number < p.policy.maxAttempts then none else some (undecided (p.log ++ [a]) a.number) := by
  have hl := lastError_append p.log a
  unfold outcomeWith CheckState.afterResult CheckState.afterAttempt undecided
  cases h : a.result with
  | ok c =>
    rw [h] at hr hl
    have ht : ¬ 0 < c.total := fun ht => hr (c.total_pos.mp ht)
    simp only [ht, if_false, CheckState.outcome?_afterEmpty, hl]
    cases lastError p.log <;> rfl
  | error e =>
    rw [h] at hr hl
    cases e with
    | invalidMagnet detail => exact absurd trivial hr
    | unreachable detail => simp only [CheckState.outcome?_afterEmpty, hl]
    | timeout after => simp only [CheckState.outcome?_afterEmpty, hl]

/-- A check goes on exactly after a result that does not decide and before its last attempt. -/
theorem outcomeWith_eq_none_iff {p : Probe τ} {a : Attempt} :
    p.outcomeWith a = none ↔ ¬ QueryResult.Decisive a.result ∧ a.number < p.policy.maxAttempts := by
  by_cases hd : QueryResult.Decisive a.result
  · suffices p.outcomeWith a ≠ none by simp [hd, this]
    cases hr : a.result with
    | ok c =>
      rw [hr] at hd
      simp [outcomeWith_of_peers hr hd]
    | error e =>
      rw [hr] at hd
      cases e with
      | invalidMagnet detail => simp [outcomeWith_of_malformed hr]
      | unreachable detail => exact hd.elim
      | timeout after => exact hd.elim
  · simp [outcomeWith_of_undecided hd, hd]

end Probe

end SwarmSampler
