import SwarmSampler.Proofs.Check.Observed

/-
A check among others that ask the same client. What a check will come to, its
verdict, is settled by its client as it is now, and a turn of the check leaves the
verdict as it was, at whatever instant it is given (`verdict_resume`). If some part
of the client foretells all it answers about the check's magnet, nothing but that
part matters (`verdict_of_view`), so other checks may do with the rest as they like.
-/

namespace SwarmSampler

/-- What a check comes to, apart from its log. -/
structure Verdict where
  outcome : Outcome
  counts : PeerCounts
  attempts : UInt32
  reason : Option String
  deriving DecidableEq

def CheckOutcome.verdict (o : CheckOutcome) : Verdict := ⟨o.outcome, o.counts, o.attempts, o.reason⟩

/-- The verdict of a check that was run to its end, none if the client broke down. -/
def verdictOf {κ : Type} (ran : Option CheckRun × κ) : Option Verdict := ran.1.map (·.outcome.verdict)

theorem Query.within_congr {τ τ' : Type} {q : Query τ} {q' : Query τ'} (takes : q'.takes = q.takes)
    (result : q'.result = q.result) (limit : Span) : q'.within limit = q.within limit := by
  simp only [within, takes, result]

/-! ## What foretells a client's answers -/

variable {κ τ V : Type} [SwarmClient κ τ] {magnet : String} {view : κ → V}

/-- What comes of asking two clients that are seen alike: both break down, or both answer the same after the
same time, and are seen alike again. -/
inductive Reacts (view : κ → V) : Asked τ × κ → Asked τ × κ → Prop
  | crash {c c' : κ} : Reacts view (.crashed, c) (.crashed, c')
  | answer {q q' : Query τ} {c c' : κ} (takes : q'.takes = q.takes) (result : q'.result = q.result)
      (after : view c' = view c) : Reacts view (.underway q, c) (.underway q', c')

/-- What is seen of a client foretells what it answers about a magnet, whenever it is asked. -/
structure Foretells (magnet : String) (view : κ → V) : Prop where
  ask : ∀ now now' timeout {c c' : κ}, view c' = view c →
    Reacts view (SwarmClient.ask now magnet timeout c) (SwarmClient.ask now' magnet timeout c')
  leave : ∀ session age (c : κ), view (SwarmClient.leave session age c) = view c

section

variable {p p' : Probe τ} {now now' : Nat} {c c' : κ}

theorem Foretells.crashed (h : Foretells magnet view) (about : p.magnet = magnet) (about' : p'.magnet = magnet)
    (policy : p'.policy = p.policy) (now' : Nat) (seen : view c' = view c) {broken : κ}
    (hask : SwarmClient.ask now p.magnet p.policy.queryTimeout c = (.crashed, broken)) :
    ∃ broken', SwarmClient.ask now' p'.magnet p'.policy.queryTimeout c' = (.crashed, broken') := by
  have hr := h.ask now now' p.policy.queryTimeout seen
  rw [← about, hask] at hr
  rw [about', ← about, policy]
  generalize SwarmClient.ask now' p.magnet p.policy.queryTimeout c' = asked at hr ⊢
  cases hr with
  | crash => exact ⟨_, rfl⟩

/-- An attempt of another check of the same magnet ends alike. -/
theorem Foretells.answered (h : Foretells magnet view) (about : p.magnet = magnet) (about' : p'.magnet = magnet)
    (policy : p'.policy = p.policy) (now' : Nat) (seen : view c' = view c) {query : Query τ} {client : κ}
    (hask : SwarmClient.ask now p.magnet p.policy.queryTimeout c = (.underway query, client)) :
    ∃ query' client', SwarmClient.ask now' p'.magnet p'.policy.queryTimeout c' = (.underway query', client') ∧
      query'.within p'.policy.attemptDeadline = query.within p.policy.attemptDeadline ∧
      ∀ age age', view (SwarmClient.leave query'.session age' client') =
        view (SwarmClient.leave query.session age client) := by
  have hr := h.ask now now' p.policy.queryTimeout seen
  rw [← about, hask] at hr
  rw [about', ← about, policy]
  generalize SwarmClient.ask now' p.magnet p.policy.queryTimeout c' = asked at hr ⊢
  cases hr with
  | @answer _ query' _ client' takes result after =>
    refine ⟨query', client', rfl, Query.within_congr takes result _, fun age age' => ?_⟩
    rw [h.leave, h.leave, after]

end

namespace Probe

theorem verdict_outcome? (s : CheckState) (log log' : List Attempt) :
    (s.outcome? log').map (·.verdict) = (s.outcome? log).map (·.verdict) := by
  cases s <;> rfl

omit [SwarmClient κ τ] in
/-- Of the attempts before, only the latest error matters for what an attempt leads to. -/
theorem verdict_outcomeWith {p p' : Probe τ} {a a' : Attempt} (policy : p'.policy = p.policy)
    (errors : lastError p'.log = lastError p.log) (number : a'.number = a.number)
    (result : a'.result = a.result) :
    (p'.outcomeWith a').map (·.verdict) = (p.outcomeWith a).map (·.verdict) := by
  have after : CheckState.afterResult p'.policy p'.log a'.number a'.result =
      CheckState.afterResult p.policy p.log a.number a.result := by
    simp only [CheckState.afterResult, policy, errors, number, result]
  rw [outcomeWith, outcomeWith, after]
  exact verdict_outcome? ..

omit [SwarmClient κ τ] in
theorem lastError_record {p p' : Probe τ} {a a' : Attempt} (errors : lastError p'.log = lastError p.log)
    (result : a'.result = a.result) : lastError (p'.record a').log = lastError (p.record a).log := by
  rw [record, record, lastError_append, lastError_append, errors, result]

/-- A check that is not cancelled, from the beginning of an attempt on. -/
theorem pursue_uncut {now : Nat} {n : UInt32} {p : Probe τ} {client client' : κ} {query : Query τ}
    (h : SwarmClient.ask now p.magnet p.policy.queryTimeout client = (.underway query, client')) :
    let answer := query.within p.policy.attemptDeadline
    let left := SwarmClient.leave query.session answer.1 client'
    p.pursue none now n client =
      match p.outcomeWith ⟨n, now, answer.2⟩ with
      | some o => (some ⟨o, now + answer.1⟩, left)
      | none => (p.record ⟨n, now, answer.2⟩).pursue none (now + answer.1 + p.policy.backoff.wait) (n + 1) left :=
  pursue_of_goes (Trial.goes_within h) rfl

/-- **What is seen of a client foretells the verdict**, whenever the check goes on. -/
theorem verdict_pursue (foretells : Foretells magnet view) (now : Nat) (n : UInt32) (p : Probe τ) (c : κ)
    (about : p.magnet = magnet) : ∀ (now' : Nat) (p' : Probe τ) (c' : κ), p'.magnet = magnet →
      p'.policy = p.policy → lastError p'.log = lastError p.log → view c' = view c →
      verdictOf (p'.pursue none now' n c') = verdictOf (p.pursue none now n c) := by
  fun_induction pursue none now n p c with
  | case1 now n p c broken hask =>
    intro now' p' c' about' policy errors seen
    obtain ⟨broken', hask'⟩ := foretells.crashed about about' policy now' seen hask
    rw [pursue_of_crashed hask']
    rfl
  | case2 now n p c query client hask answer instant hcut => simp at hcut
  | case4 now n p c query client hask answer hcut left a ho next instant hrest => simp at hrest
  | case3 now n p c query client hask answer hcut left a o ho =>
    intro now' p' c' about' policy errors seen
    obtain ⟨query', client', hask', hwithin, -⟩ := foretells.answered about about' policy now' seen hask
    have hverdict : (p'.outcomeWith ⟨n, now', answer.2⟩).map (·.verdict) = (p.outcomeWith a).map (·.verdict) :=
      verdict_outcomeWith policy errors rfl rfl
    rw [ho] at hverdict
    obtain ⟨o', ho', hsame⟩ := Option.map_eq_some_iff.1 hverdict
    rw [pursue_uncut hask', hwithin, ho']
    exact congrArg some hsame
  | case5 now n p c query client hask answer hcut left a ho next hrest ih =>
    intro now' p' c' about' policy errors seen
    obtain ⟨query', client', hask', hwithin, hleft⟩ := foretells.answered about about' policy now' seen hask
    have hverdict : (p'.outcomeWith ⟨n, now', answer.2⟩).map (·.verdict) = (p.outcomeWith a).map (·.verdict) :=
      verdict_outcomeWith policy errors rfl rfl
    rw [ho] at hverdict
    have hnone : p'.outcomeWith ⟨n, now', answer.2⟩ = none := Option.map_eq_none_iff.1 hverdict
    rw [pursue_uncut hask', hwithin, hnone]
    exact ih about _ _ _ about' policy (lastError_record errors rfl) (hleft ..)

/-- The verdict that a check will come to if it is not cancelled and nobody else asks its client. -/
def verdict (p : Probe τ) (client : κ) : Option Verdict := verdictOf (p.run none client)

/-- The verdict that a turn leaves a check with. -/
def Progress.verdict (x : Progress τ) (client : κ) : Option Verdict :=
  match x with
  | .waiting p => p.verdict client
  | .settled o => some o.verdict
  | .crashed => none

theorem verdictOf_finish (now : Nat) (x : Progress τ) (client : κ) :
    verdictOf (finish none now (x, client)) = x.verdict client := by
  cases x <;> rfl

theorem verdictOf_finish_conclude (now : Nat) (a : Attempt) (p : Probe τ) (client : κ) :
    verdictOf (finish none now (conclude now a p client)) =
      match p.outcomeWith a with
      | some o => some o.verdict
      | none => verdictOf ((p.record a).pursue none (now + p.policy.backoff.wait) (a.number + 1) client) := by
  -- A check is one in the phase it is in.
  show verdictOf (finish none now (conclude now a (p.inPhase p.phase) client)) = _
  cases ho : p.outcomeWith a with
  | some o =>
    rw [finish_conclude_of_some ho]
    rfl
  | none =>
    obtain ⟨phase', h⟩ := @finish_conclude_of_none _ _ _ none now a p p.phase client ho rfl
    exact congrArg verdictOf (h.trans (finish_begin none _ _ _ client phase' rfl))

/-- A turn of a check whose time has come leads to one verdict, whenever it is given and whatever else its
client has been asked. -/
theorem verdict_proceed (foretells : Foretells magnet view) {p : Probe τ} (about : p.magnet = magnet) {c c' : κ}
    (seen : view c' = view c) (now now' : Nat) :
    verdictOf (finish none now' (p.proceed now' c')) = verdictOf (finish none now (p.proceed now c)) := by
  have hbegin : ∀ n, verdictOf (finish none now' (p.begin now' n c')) = verdictOf (finish none now (p.begin now n c)) := by
    intro n
    have hpursue := fun now (c : κ) => congrArg verdictOf (finish_begin none now n p c p.phase rfl)
    exact (hpursue now' c').trans ((verdict_pursue foretells now n p c about now' p c' about rfl rfl seen).trans
      (hpursue now c).symm)
  unfold proceed
  cases hp : p.phase with
  | idle => exact hbegin 1
  | resting next wakeAt => exact hbegin next
  | asking attempt startedAt query =>
    dsimp only
    rw [verdictOf_finish_conclude, verdictOf_finish_conclude]
    cases p.outcomeWith ⟨attempt, startedAt, (query.within p.policy.attemptDeadline).2⟩ with
    | some o => rfl
    | none =>
      refine verdict_pursue foretells _ _ (p.record _) _ about _ (p.record _) _ about rfl rfl ?_
      rw [foretells.leave, foretells.leave, seen]

theorem verdict_eq (p : Probe τ) (client : κ) :
    p.verdict client = verdictOf (finish none p.due (p.proceed p.due client)) :=
  congrArg verdictOf (run_eq none p client)

/-- **Only what is seen of the client matters.** -/
theorem verdict_of_view (foretells : Foretells magnet view) {p : Probe τ} (about : p.magnet = magnet) {c c' : κ}
    (seen : view c' = view c) : p.verdict c' = p.verdict c := by
  rw [verdict_eq, verdict_eq]
  exact verdict_proceed foretells about seen _ _

/-- **A turn leaves the verdict as it is**, at whatever instant it is given. -/
theorem verdict_resume (foretells : Foretells magnet view) {p : Probe τ} (about : p.magnet = magnet) (now : Nat)
    (client : κ) :
    (p.resume now false client).1.verdict (p.resume now false client).2 = p.verdict client := by
  simp only [resume, Bool.false_eq_true, if_false]
  split
  · rw [← verdictOf_finish now, verdict_eq]
    exact verdict_proceed foretells about rfl _ _
  · rfl

/-- **A check whose client never breaks down comes to a verdict.** -/
theorem verdict_isSome {P : κ → Prop} {p : Probe τ} {client : κ} (h : P client)
    (ask : ∀ now c, P c → ∃ q c', SwarmClient.ask now p.magnet p.policy.queryTimeout c = (.underway q, c') ∧ P c')
    (leave : ∀ session age c, P c → P (SwarmClient.leave session age c))
    (fresh : p.phase = .idle) : (p.verdict client).isSome = true := by
  have pursued : ∀ now n, (verdictOf (p.pursue none now n client)).isSome = true := by
    intro now n
    fun_induction pursue none now n p client with
    | case1 now n p c broken hask =>
      obtain ⟨q, c', hq, -⟩ := ask now c h
      cases hq.symm.trans hask
    | case2 now n p c query client hask answer instant hcut => simp at hcut
    | case3 => rfl
    | case4 now n p c query client hask answer hcut left a ho next instant hrest => simp at hrest
    | case5 now n p c query client hask answer hcut left a ho next hrest ih =>
      obtain ⟨q, c', hq, hc'⟩ := ask now c h
      cases hq.symm.trans hask
      exact ih (leave _ _ _ hc') ask fresh
  rw [verdict_eq, proceed, fresh]
  exact (congrArg (Option.isSome ∘ verdictOf) (finish_begin none _ 1 p client p.phase rfl)).trans (pursued _ 1)

/-- A client that breaks down when it is first asked leaves no verdict. -/
theorem verdict_eq_none {p : Probe τ} {client broken : κ} (fresh : p.phase = .idle)
    (h : SwarmClient.ask p.due p.magnet p.policy.queryTimeout client = (.crashed, broken)) :
    p.verdict client = none := by
  rw [verdict_eq, proceed, fresh]
  refine (congrArg verdictOf (finish_begin none _ 1 p client p.phase rfl)).trans ?_
  rw [pursue_of_crashed h]
  rfl

/-! ## What a turn leaves alone -/

/-- A check that goes on is still about its magnet, by its policy. -/
theorem begin_same {now : Nat} {n : UInt32} {p p' : Probe τ} {client client' : κ}
    (h : p.begin now n client = (.waiting p', client')) : p'.magnet = p.magnet ∧ p'.policy = p.policy := by
  fun_induction begin now n p client with
  | case1 | case3 => simp at h
  | case2 =>
    simp only [Prod.mk.injEq, Progress.waiting.injEq] at h
    rw [← h.1]
    exact ⟨rfl, rfl⟩
  | case4 n p _ _ _ _ _ _ _ _ _ a ho _ ih => exact ih h
  | case5 =>
    simp only [Prod.mk.injEq, Progress.waiting.injEq] at h
    rw [← h.1]
    exact ⟨rfl, rfl⟩

theorem conclude_same {now : Nat} {a : Attempt} {p p' : Probe τ} {client client' : κ}
    (h : p.conclude now a client = (.waiting p', client')) : p'.magnet = p.magnet ∧ p'.policy = p.policy := by
  unfold conclude at h
  split at h
  · simp at h
  · split at h
    · exact begin_same (p := p.record a) h
    · simp only [Prod.mk.injEq, Progress.waiting.injEq] at h
      rw [← h.1]
      exact ⟨rfl, rfl⟩

theorem resume_same {now : Nat} {cancelled : Bool} {p p' : Probe τ} {client client' : κ}
    (h : p.resume now cancelled client = (.waiting p', client')) :
    p'.magnet = p.magnet ∧ p'.policy = p.policy := by
  unfold resume at h
  split at h
  · simp at h
  · split at h
    · unfold proceed at h
      split at h
      · exact begin_same h
      · exact conclude_same h
      · exact begin_same h
    · cases h
      exact ⟨rfl, rfl⟩

section

variable {P : κ → Prop} (leave : ∀ session age c, P c → P (SwarmClient.leave session age c))

include leave

/-- What asking about a check's magnet and leaving queries keep, an attempt and those that follow it keep. -/
theorem begin_keeps (now : Nat) (n : UInt32) (p : Probe τ) (client : κ)
    (ask : ∀ now timeout c, P c → P (SwarmClient.ask now p.magnet timeout c).2) (h : P client) :
    P (p.begin now n client).2 := by
  have asked : ∀ {p : Probe τ} {c c' : κ} {x : Asked τ},
      (∀ now timeout c, P c → P (SwarmClient.ask now p.magnet timeout c).2) → P c →
      SwarmClient.ask now p.magnet p.policy.queryTimeout c = (x, c') → P c' := by
    intro p c c' x ask h hask
    have := ask now p.policy.queryTimeout c h
    rwa [hask] at this
  fun_induction begin now n p client with
  | case1 n p client client' hask => exact asked ask h hask
  | case2 n p client query client' hask => exact asked ask h hask
  | case3 n p client query client' hask => exact leave _ _ _ (asked ask h hask)
  | case4 n p client query client' hask _ _ _ _ left a ho _ ih => exact ih ask (leave _ _ _ (asked ask h hask))
  | case5 n p client query client' hask => exact leave _ _ _ (asked ask h hask)

theorem conclude_keeps (now : Nat) (a : Attempt) (p : Probe τ) (client : κ)
    (ask : ∀ now timeout c, P c → P (SwarmClient.ask now p.magnet timeout c).2) (h : P client) :
    P (p.conclude now a client).2 := by
  unfold conclude
  split
  · exact h
  · split
    · exact begin_keeps leave now _ (p.record a) client ask h
    · exact h

/-- What asking about a check's magnet and leaving queries keep, a turn of the check keeps. -/
theorem resume_keeps (now : Nat) (cancelled : Bool) (p : Probe τ) (client : κ)
    (ask : ∀ now timeout c, P c → P (SwarmClient.ask now p.magnet timeout c).2) (h : P client) :
    P (p.resume now cancelled client).2 := by
  unfold resume
  split
  · unfold abort
    cases p.phase with
    | idle | resting => exact h
    | asking attempt startedAt query => exact leave _ _ _ h
  · split
    · unfold proceed
      split
      · exact begin_keeps leave _ _ _ _ ask h
      · exact conclude_keeps leave _ _ _ _ ask (leave _ _ _ h)
      · exact begin_keeps leave _ _ _ _ ask h
    · exact h

end

end Probe

end SwarmSampler
