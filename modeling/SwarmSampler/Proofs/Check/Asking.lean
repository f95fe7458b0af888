import SwarmSampler.Proofs.Check.Observed

/-
What a single turn of a check asks of its client. What was asked before stays
as it is; a cancelled check asks nothing more and ends at once, with an error
and without peers.
-/

namespace SwarmSampler

/-- When and about which magnet a client was asked. -/
def Visit.query (v : Visit) : Nat × String := (v.askedAt, v.magnet)

namespace Observed

variable {κ τ : Type}

def queries (o : Observed κ) : List (Nat × String) := o.visits.map Visit.query

theorem map_modify {α β : Type} {f : α → β} {g : α → α} (h : ∀ a, f (g a) = f a) (l : List α) (i : Nat) :
    (l.modify i g).map f = l.map f := by
  refine List.ext_getElem? fun j => ?_
  rw [List.getElem?_map, List.getElem?_map, List.getElem?_modify]
  cases l[j]? with
  | none => rfl
  | some a =>
    by_cases hj : i = j
    · simp [hj, h]
    · simp [hj]

variable [SwarmClient κ τ]

theorem queries_leave (session : Nat × τ) (age : Nat) (o : Observed κ) :
    (SwarmClient.leave session age o).queries = o.queries :=
  map_modify (fun v => by rfl : ∀ v : Visit, Visit.query (v.leave age) = v.query) o.visits session.1

theorem queries_ask (now : Nat) (magnet : String) (timeout : Span) (o : Observed κ) :
    (SwarmClient.ask now magnet timeout o).2.queries = o.queries ++ [(now, magnet)] := List.map_append

end Observed

namespace Probe

variable {κ τ : Type} [SwarmClient κ τ]

/-- An attempt, and those that follow it in the same turn, only add to what was asked. -/
theorem queries_begin (now : Nat) (attempt : UInt32) (p : Probe (Nat × τ)) (o : Observed κ) :
    o.queries <+: (p.begin now attempt o).2.queries := by
  have hask : ∀ {p : Probe (Nat × τ)} {o : Observed κ} {asked : Asked (Nat × τ)} {o' : Observed κ},
      SwarmClient.ask now p.magnet p.policy.queryTimeout o = (asked, o') → o.queries <+: o'.queries := by
    intro p o asked o' h
    have hq := Observed.queries_ask now p.magnet p.policy.queryTimeout o
    rw [h] at hq
    exact hq ▸ List.prefix_append ..
  fun_induction begin now attempt p o with
  | case1 attempt p o o' h => exact hask h
  | case2 attempt p o query o' h => exact hask h
  | case3 attempt p o query o' h age result hw _ left =>
    rw [show left.queries = o'.queries from Observed.queries_leave ..]
    exact hask h
  | case4 attempt p o query o' h age result hw _ left a ho hb ih =>
    refine List.IsPrefix.trans ?_ ih
    rw [show left.queries = o'.queries from Observed.queries_leave ..]
    exact hask h
  | case5 attempt p o query o' h age result hw _ left =>
    rw [show left.queries = o'.queries from Observed.queries_leave ..]
    exact hask h

/-- A cancelled check asks nothing more. It ends at once, with an error and without peers. -/
theorem resume_cancelled (now : Nat) (p : Probe (Nat × τ)) (o : Observed κ) :
    ∃ outcome, (p.resume now true o).1 = .settled outcome ∧ outcome.outcome = .error ∧
      outcome.counts = .none ∧ outcome.reason = some "cancelled" ∧
      (p.resume now true o).2.queries = o.queries := by
  unfold resume abort
  cases p.phase with
  | idle | resting => exact ⟨_, rfl, rfl, rfl, rfl, rfl⟩
  | asking attempt startedAt query => exact ⟨_, rfl, rfl, rfl, rfl, Observed.queries_leave ..⟩

theorem queries_conclude (now : Nat) (a : Attempt) (p : Probe (Nat × τ)) (o : Observed κ) :
    o.queries <+: (p.conclude now a o).2.queries := by
  unfold conclude
  split
  · exact List.prefix_rfl
  · split
    · exact queries_begin ..
    · exact List.prefix_rfl

/-- A turn of a check only adds to what was asked. -/
theorem queries_resume (now : Nat) (cancelled : Bool) (p : Probe (Nat × τ)) (o : Observed κ) :
    o.queries <+: (p.resume now cancelled o).2.queries := by
  cases cancelled with
  | true =>
    obtain ⟨_, _, _, _, _, h⟩ := resume_cancelled now p o
    exact h ▸ List.prefix_rfl
  | false =>
    simp only [resume, Bool.false_eq_true, ↓reduceIte]
    split
    · unfold proceed
      split
      · exact queries_begin ..
      · next attempt startedAt query _ =>
        have h := Observed.queries_leave query.session (query.within p.policy.attemptDeadline).1 o
        exact h ▸ queries_conclude ..
      · exact queries_begin ..
    · exact List.prefix_rfl

end Probe

end SwarmSampler
