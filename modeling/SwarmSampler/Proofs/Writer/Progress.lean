import SwarmSampler.Proofs.Writer.Steps

/-
A writer that is let go on comes to rest with no request left. What carries
this is the number of store calls that may still be made: it falls with every
piece of work, so twice that number of turns and pauses is enough.
-/

namespace SwarmSampler

namespace Writer

variable {σ : Type} [SampleStore σ] {now : Nat} {w : Writer} {store : σ}

/-- The calls that may still be made for the request in hand. -/
def callsInHand (w : Writer) : Nat :=
  match w.writing with
  | .idle => 0
  | .retrying _ attempt _ => w.tries - attempt + 1

/-- The calls that may still be made for all requests. -/
def callsLeft (w : Writer) : Nat := w.pending.length * w.tries + w.callsInHand

/-- A writer that has stopped has no request left. -/
def Tidy (w : Writer) : Prop := w.stopped = true → w.line = []

theorem tries_pos (w : Writer) : 0 < w.tries := by
  unfold tries
  omega

theorem line_eq_nil_iff : w.line = [] ↔ w.writing = .idle ∧ w.pending = [] := by
  cases hw : w.writing <;> simp [line, current, hw]

theorem stop_line (w : Writer) : w.stop.line = [] := rfl

theorem awake_eq (now : Nat) (w : Writer) : w.awake now = (!w.stopped && (w.killed || w.busy now)) := rfl

/-! ## What a piece of work leaves -/

/-- Work does not change the settings, nor whether the writer is killed or has stopped. -/
structure SameStanding (w w' : Writer) : Prop where
  settings : w'.settings = w.settings
  killed : w'.killed = w.killed
  stopped : w'.stopped = w.stopped

theorem tryOnce_standing (now : Nat) (request : AppendRequest) (attempt : Nat) (w : Writer) (store : σ) :
    SameStanding w (tryOnce now request attempt w store).1 := by
  unfold tryOnce
  split
  · exact ⟨rfl, rfl, rfl⟩
  · dsimp only
    split
    · exact ⟨rfl, rfl, rfl⟩
    · rw [fail_eq]
      exact ⟨rfl, rfl, rfl⟩

theorem work_standing (now : Nat) (w : Writer) (store : σ) : SameStanding w (w.work now store).1 := by
  unfold work
  split
  · exact ⟨rfl, rfl, rfl⟩
  · next request rest hw hp =>
    dsimp only
    split
    · exact ⟨rfl, rfl, rfl⟩
    · have h := tryOnce_standing now request 1 { w with pending := rest } store
      exact ⟨h.settings, h.killed, h.stopped⟩
  · split
    · exact tryOnce_standing now _ _ w store
    · exact ⟨rfl, rfl, rfl⟩

theorem tryOnce_callsLeft (now : Nat) (request : AppendRequest) (attempt : Nat) (w : Writer) (store : σ) :
    (tryOnce now request attempt w store).1.callsLeft ≤ w.pending.length * w.tries + (w.tries - attempt) := by
  unfold tryOnce
  split
  · exact Nat.le_add_right _ _
  · dsimp only
    split
    · next h =>
      have h : attempt < w.tries := h
      show w.pending.length * w.tries + (w.tries - (attempt + 1) + 1) ≤ _
      omega
    · rw [fail_eq]
      exact Nat.le_add_right _ _

/-- **Every piece of work leaves fewer calls to be made.** -/
theorem work_callsLeft (h : w.busy now) : (w.work now store).1.callsLeft < w.callsLeft := by
  have hpos := w.tries_pos
  unfold busy at h
  split at h
  · next hw =>
    cases hp : w.pending with
    | nil => simp only [hp, List.isEmpty_nil, Bool.not_true, Bool.false_eq_true] at h
    | cons request rest =>
      have hleft : w.callsLeft = rest.length * w.tries + w.tries := by
        simp only [callsLeft, callsInHand, hw, hp, List.length_cons, Nat.add_mul, Nat.one_mul, Nat.add_zero]
      simp only [work, hw, hp, hleft]
      split
      · show rest.length * w.tries + 0 < _
        omega
      · have := tryOnce_callsLeft now request 1 { w with writing := .idle, pending := rest } store
        refine Nat.lt_of_le_of_lt this ?_
        show rest.length * w.tries + (w.tries - 1) < _
        omega
  · next request attempt wakeAt hw =>
    have hleft : w.callsLeft = w.pending.length * w.tries + (w.tries - attempt + 1) := by
      simp only [callsLeft, callsInHand, hw]
    have := tryOnce_callsLeft now request attempt w store
    rw [work_of_retrying hw (of_decide_eq_true h), hleft]
    omega

theorem work_of_not_busy (h : w.busy now = false) : w.work now store = (w, store) := by
  unfold busy at h
  unfold work
  split
  · rfl
  · next request rest hw hp =>
    simp only [hw, hp, List.isEmpty_cons, Bool.not_false, Bool.true_eq_false] at h
  · next request attempt wakeAt hw =>
    simp only [hw] at h
    exact if_neg (of_decide_eq_false h)

theorem Works.callsLeft_le {x y : Writer × σ} (h : Works now x y) : y.1.callsLeft ≤ x.1.callsLeft := by
  induction h with
  | done => exact Nat.le_refl _
  | @next x y _ ih =>
    refine Nat.le_trans ih ?_
    cases hb : x.1.busy now with
    | true => exact Nat.le_of_lt (work_callsLeft hb)
    | false => exact Nat.le_of_eq (by rw [work_of_not_busy hb])

theorem Works.standing {x y : Writer × σ} (h : Works now x y) : SameStanding x.1 y.1 := by
  induction h with
  | done => exact ⟨rfl, rfl, rfl⟩
  | @next x y _ ih =>
    have hx := work_standing now x.1 x.2
    exact ⟨ih.settings.trans hx.settings, ih.killed.trans hx.killed, ih.stopped.trans hx.stopped⟩

theorem goOn_callsLeft (h : w.busy now) : (w.goOn now store).1.callsLeft < w.callsLeft :=
  Nat.lt_of_le_of_lt (goOn_works h).callsLeft_le (work_callsLeft h)

theorem goOn_standing (h : w.busy now) (store : σ) : SameStanding w (w.goOn now store).1 :=
  (Works.next (x := (w, store)) (goOn_works h)).standing

/-- There are never more calls to be made than for the queue and one request more. -/
theorem callsLeft_le (w : Writer) : w.callsLeft ≤ w.pending.length * w.tries + (w.tries + 1) := by
  unfold callsLeft callsInHand
  split <;> omega

end Writer

namespace WriterRun

variable {σ : Type} [SampleStore σ] {r : WriterRun σ}

open Writer

theorem turn_of_killed (hs : r.writer.stopped = false) (hk : r.writer.killed = true) :
    r.turn = { r with writer := r.writer.stop } := by
  simp only [turn, resume, hs, hk, Bool.false_eq_true, ↓reduceIte]

theorem turn_of_alive (hs : r.writer.stopped = false) (hk : r.writer.killed = false) :
    r.turn = ⟨r.now, (r.writer.goOn r.now r.store).1, (r.writer.goOn r.now r.store).2⟩ := by
  simp only [turn, resume, hs, hk, Bool.false_eq_true, ↓reduceIte]

theorem advance_of_awake (h : r.writer.awake r.now = true) (fuel : Nat) :
    r.advance none (fuel + 1) = r.turn.advance none fuel := by
  simp only [advance, h, Option.any_none, Bool.false_eq_true, ↓reduceIte]

theorem advance_of_resting (h : r.writer.awake r.now = false) (hd : r.writer.due? = none) (fuel : Nat) :
    r.advance none (fuel + 1) = r := by
  simp only [advance, h, hd, Option.any_none, Bool.false_eq_true, ↓reduceIte]

theorem advance_of_pausing (h : r.writer.awake r.now = false) {instant : Nat}
    (hd : r.writer.due? = some instant) (fuel : Nat) :
    r.advance none (fuel + 1) = WriterRun.advance none fuel { r with now := instant } := by
  simp only [advance, h, hd, Option.any_none, Bool.false_eq_true, ↓reduceIte]

theorem advance_of_stopped (ht : r.writer.Tidy) (hs : r.writer.stopped = true) :
    ∀ fuel, r.advance none fuel = r
  | 0 => rfl
  | fuel + 1 => by
    have hawake : r.writer.awake r.now = false := by
      simp only [awake_eq, hs, Bool.not_true, Bool.false_and]
    have hdue : r.writer.due? = none := by
      simp only [due?, (line_eq_nil_iff.1 (ht hs)).1]
    exact advance_of_resting hawake hdue fuel

/-- With enough steps the writer comes to rest: a pause and a turn for each call to be made. -/
theorem advance_line (fuel : Nat) : ∀ {r : WriterRun σ}, r.writer.Tidy →
    2 * r.writer.callsLeft + (if r.writer.busy r.now then 0 else 1) < fuel →
      (r.advance none fuel).writer.line = [] := by
  induction fuel with
  | zero => exact fun _ h => absurd h (Nat.not_lt_zero _)
  | succ fuel ih =>
    intro r ht hfuel
    by_cases hs : r.writer.stopped = true
    · rw [advance_of_stopped ht hs]
      exact ht hs
    rw [Bool.not_eq_true] at hs
    by_cases hk : r.writer.killed = true
    · have hawake : r.writer.awake r.now = true := by
        simp only [awake_eq, hs, hk, Bool.not_false, Bool.true_or, Bool.and_self]
      rw [advance_of_awake hawake, turn_of_killed hs hk, advance_of_stopped (fun _ => stop_line _) rfl]
      exact stop_line _
    rw [Bool.not_eq_true] at hk
    cases hb : r.writer.busy r.now with
    | true =>
      have hawake : r.writer.awake r.now = true := by
        simp only [awake_eq, hs, hb, Bool.not_false, Bool.or_true, Bool.and_self]
      rw [advance_of_awake hawake, turn_of_alive hs hk]
      have hlt : (r.writer.goOn r.now r.store).1.callsLeft < r.writer.callsLeft := goOn_callsLeft hb
      refine ih (fun h => ?_) ?_
      · rw [(goOn_standing hb r.store).stopped, hs] at h
        cases h
      · rw [hb, if_pos rfl] at hfuel
        show 2 * (r.writer.goOn r.now r.store).1.callsLeft + _ < fuel
        split <;> omega
    | false =>
      have hawake : r.writer.awake r.now = false := by
        simp only [awake_eq, hs, hk, hb, Bool.not_false, Bool.or_self, Bool.and_false]
      cases hw : r.writer.writing with
      | idle =>
        have hdue : r.writer.due? = none := by simp only [due?, hw]
        rw [advance_of_resting hawake hdue, line_eq_nil_iff]
        simp only [busy, hw, Bool.not_eq_eq_eq_not, Bool.not_false, List.isEmpty_iff] at hb
        exact ⟨hw, hb⟩
      | retrying request attempt wakeAt =>
        -- The writer is paused; at the instant it waits for it has something to do.
        have hdue : r.writer.due? = some wakeAt := by simp only [due?, hw]
        have hbusy : r.writer.busy wakeAt = true := by
          simp only [busy, hw, Nat.le_refl, decide_true]
        rw [advance_of_pausing hawake hdue]
        refine ih ht ?_
        simp only [hbusy, hb, Bool.false_eq_true, ↓reduceIte] at hfuel ⊢
        omega

/-- **A writer that is let go on comes to rest with no request left.** -/
theorem settle_line (ht : r.writer.Tidy) : r.settle.writer.line = [] := by
  refine advance_line _ ht ?_
  have h := r.writer.callsLeft_le
  have hsteps : steps r.writer =
      2 * (r.writer.pending.length * r.writer.tries) + 2 * r.writer.pending.length +
        4 * r.writer.tries + 4 := by
    simp only [steps, Nat.mul_add, Nat.add_mul, Nat.mul_assoc]
    omega
  split <;> omega

end WriterRun

end SwarmSampler
