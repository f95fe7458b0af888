import Mathlib.Data.List.Chain
import SwarmSampler.Client.Scripted
import SwarmSampler.Proofs.Check.Cancelling
import SwarmSampler.Proofs.Check.Releasing
import SwarmSampler.Proofs.Check.Settling

/-
When the attempts of a check take place that is not cancelled. Each lasts until
its query answers or its deadline cuts it, the next begins a pause after that, and
the check ends with the last. So it ends within as many deadlines as it may make
attempts, and the pauses between them.
-/

namespace SwarmSampler

variable {κ τ : Type}

/-- How long an attempt lasts whose query may take no longer than a limit. -/
def Query.lasts (q : Query τ) (limit : Span) : Nat := q.takes.elim limit.timer (min · limit.timer)

theorem Query.lasts_le (q : Query τ) (limit : Span) : q.lasts limit ≤ limit.timer := by
  unfold lasts
  cases q.takes with
  | none => exact Nat.le_refl _
  | some age => exact Nat.min_le_right _ _

theorem Query.within_fst_eq_lasts (q : Query τ) (limit : Span) : (q.within limit).1 = q.lasts limit := by
  cases h : q.takes with
  | none => simp only [within, lasts, h, Option.elim_none]
  | some age => rw [within_fst h, lasts, h, Option.elim_some]

theorem Query.within_snd_of_le {q : Query τ} {limit : Span} {age : Nat} (h : q.takes = some age)
    (inTime : age ≤ limit.timer) : (q.within limit).2 = q.result := by
  simp only [within, h, inTime, if_true]

theorem Query.within_snd_of_lt {q : Query τ} {limit : Span} (late : ∀ age ∈ q.takes, limit.timer < age) :
    (q.within limit).2 = .error (.timeout limit) := by
  cases h : q.takes with
  | none => simp only [within, h]
  | some age => simp only [within, h, Nat.not_le.2 (late age h), if_false]

/-- Attempts in a row with their queries: each query is put to the client that the attempts before left behind,
at the instant at which its attempt starts, and is left when the attempt is over. -/
inductive Course [SwarmClient κ τ] (magnet : String) (policy : RetryPolicy) :
    κ → List (Query τ × Attempt) → κ → Prop
  | nil {client : κ} : Course magnet policy client [] client
  | cons {client asked after : κ} {q : Query τ} {a : Attempt} {course : List (Query τ × Attempt)}
      (ask : SwarmClient.ask a.startedAt magnet policy.queryTimeout client = (.underway q, asked))
      (rest : Course magnet policy (SwarmClient.leave q.session (q.lasts policy.attemptDeadline) asked) course after) :
      Course magnet policy client ((q, a) :: course) after

/-- When an attempt is over. -/
def overAt (policy : RetryPolicy) (x : Query τ × Attempt) : Nat := x.2.startedAt + x.1.lasts policy.attemptDeadline

/-- How attempts go on from an instant. -/
structure Paced (policy : RetryPolicy) (now : Nat) (course : List (Query τ × Attempt)) : Prop where
  first : ∀ x ∈ course.head?, x.2.startedAt = now
  /-- The next attempt starts a pause after the one before is over. -/
  spaced : course.IsChain fun x y => y.2.startedAt = overAt policy x + policy.backoff.wait
  /-- A query that answers by the deadline is logged with its answer, at the very deadline too. -/
  answered : ∀ x ∈ course, ∀ age ∈ x.1.takes, age ≤ policy.attemptDeadline.timer → x.2.result = x.1.result
  /-- A query that would answer later, or never, is logged as cut by the deadline. -/
  cut : ∀ x ∈ course, (∀ age ∈ x.1.takes, policy.attemptDeadline.timer < age) →
    x.2.result = .error (.timeout policy.attemptDeadline)

theorem Paced.nil (policy : RetryPolicy) (now : Nat) : Paced (τ := τ) policy now [] where
  first _ h := nomatch h
  spaced := .nil
  answered _ h := nomatch h
  cut _ h := nomatch h

/-- An attempt in front of others that start a pause after it. -/
theorem Paced.cons {policy : RetryPolicy} {now : Nat} {q : Query τ} {n : UInt32} {course : List (Query τ × Attempt)}
    (h : Paced policy (now + q.lasts policy.attemptDeadline + policy.backoff.wait) course) :
    Paced policy now ((q, ⟨n, now, (q.within policy.attemptDeadline).2⟩) :: course) where
  first x hx := by
    cases hx
    rfl
  spaced := List.isChain_cons.2 ⟨h.first, h.spaced⟩
  answered x hx age hage inTime := by
    rcases List.mem_cons.1 hx with rfl | hx
    · exact Query.within_snd_of_le hage inTime
    · exact h.answered x hx age hage inTime
  cut x hx late := by
    rcases List.mem_cons.1 hx with rfl | hx
    · exact Query.within_snd_of_lt late
    · exact h.cut x hx late

/-- The attempts behind the first. -/
theorem Paced.tail {policy : RetryPolicy} {now : Nat} {y : Query τ × Attempt} {course : List (Query τ × Attempt)}
    (h : Paced policy now (y :: course)) : Paced policy (overAt policy y + policy.backoff.wait) course where
  first := (List.isChain_cons.1 h.spaced).1
  spaced := (List.isChain_cons.1 h.spaced).2
  answered x hx := h.answered x (List.mem_cons_of_mem y hx)
  cut x hx := h.cut x (List.mem_cons_of_mem y hx)

theorem Paced.overAt_first_le {policy : RetryPolicy} {now : Nat} {y : Query τ × Attempt}
    {course : List (Query τ × Attempt)} (h : Paced policy now (y :: course)) :
    overAt policy y ≤ now + policy.attemptDeadline.timer := by
  have hstart := h.first y rfl
  have hle := y.1.lasts_le policy.attemptDeadline
  rw [overAt]
  omega

/-- **Attempts are over within their deadlines and the pauses between them.** -/
theorem Paced.overAt_last_le {policy : RetryPolicy} {now : Nat} {course : List (Query τ × Attempt)}
    {last : Query τ × Attempt} (h : Paced policy now (course ++ [last])) : overAt policy last ≤
      now + (course.length + 1) * policy.attemptDeadline.timer + course.length * policy.backoff.wait := by
  -- From the front on: each attempt but the last adds a deadline at most, and a pause.
  induction course generalizing now with
  | nil => simpa using h.overAt_first_le
  | cons y course ih =>
    have hfirst := h.overAt_first_le
    have hrest := ih h.tail
    simp only [List.length_cons, Nat.succ_mul] at hrest ⊢
    omega

/-- Attempts of a budget are over within so many deadlines and the pauses between them. -/
theorem Paced.overAt_last_le_budget {policy : RetryPolicy} {course : List (Query τ × Attempt)}
    {last : Query τ × Attempt} (h : Paced policy 0 (course ++ [last])) (few : course.length < policy.budget) :
    overAt policy last ≤
      policy.budget * policy.attemptDeadline.timer + (policy.budget - 1) * policy.backoff.wait := by
  have hpauses : course.length ≤ policy.budget - 1 := by omega
  calc overAt policy last
      ≤ (course.length + 1) * policy.attemptDeadline.timer + course.length * policy.backoff.wait := by
        simpa using h.overAt_last_le
    _ ≤ policy.budget * policy.attemptDeadline.timer + (policy.budget - 1) * policy.backoff.wait :=
        Nat.add_le_add (Nat.mul_le_mul_right _ few) (Nat.mul_le_mul_right _ hpauses)

section

variable [SwarmClient κ τ] {magnet : String} {policy : RetryPolicy} {now next : Nat} {client after : κ}
  {ts : List Trial}

/-- Attempts in a row have queries that last until the attempts end. -/
theorem Trials.exists_course (h : Trials magnet policy now client ts next after) (n : UInt32) :
    ∃ course : List (Query τ × Attempt), Course magnet policy client course after ∧
      course.map (·.2) = numbered n ts ∧ Paced policy now course ∧
      course.map (overAt policy) = ts.map (·.endedAt) := by
  induction h generalizing n with
  | nil => exact ⟨[], .nil, rfl, .nil policy _, rfl⟩
  | @cons now next client client' after t ts first rest ih =>
    obtain ⟨q, asked, hask, rfl, rfl⟩ := first.within
    rw [q.within_fst_eq_lasts] at ih
    obtain ⟨course, hcourse, hlog, hpaced, hover⟩ := ih (n + 1)
    refine ⟨(q, ⟨n, now, (q.within policy.attemptDeadline).2⟩) :: course, .cons hask hcourse, ?_, hpaced.cons, ?_⟩
    · rw [List.map_cons, hlog]
      rfl
    · rw [List.map_cons, hover, List.map_cons, q.within_fst_eq_lasts]
      rfl

theorem numbered_concat (n : UInt32) (ts : List Trial) (t : Trial) :
    numbered n (ts ++ [t]) = numbered n ts ++ [t.attempt (n + UInt32.ofNat ts.length)] := by
  induction ts generalizing n with
  | nil => simp [numbered]
  | cons u ts ih =>
    rw [List.cons_append, numbered, ih, add_one_add_ofNat]
    rfl

/-- After attempts that did not decide, one that decides or is the last of the budget settles the check. -/
theorem exists_outcome_of_last {t : Trial} (hb : ts.length < policy.budget)
    (hend : QueryResult.Decisive t.result ∨ ts.length + 1 = policy.budget) :
    ∃ o, (Probe.afterTrials (τ := τ) magnet policy ts).outcomeWith (t.attempt (1 + UInt32.ofNat ts.length)) = some o ∧
      o.log = numbered 1 (ts ++ [t]) := by
  have hsettled : (Probe.afterTrials (τ := τ) magnet policy ts).outcomeWith
      (t.attempt (1 + UInt32.ofNat ts.length)) ≠ none := by
    intro hnone
    obtain ⟨hquiet, hmore⟩ := Probe.outcomeWith_eq_none_iff.1 hnone
    have hlast := hend.resolve_left hquiet
    have hnumber : (1 + UInt32.ofNat ts.length).toNat = ts.length + 1 :=
      (toNat_add_length (RetryPolicy.le_of_lt_budget hb)).trans (Nat.add_comm 1 _)
    have hlt : ts.length + 1 < policy.maxAttempts.toNat := hnumber ▸ UInt32.lt_iff_toNat_lt.1 hmore
    have hmax : policy.maxAttempts.toNat ≤ policy.budget := Nat.le_max_right _ _
    omega
  obtain ⟨o, ho⟩ := Option.ne_none_iff_exists'.1 hsettled
  refine ⟨o, ho, ?_⟩
  rw [numbered_concat]
  exact Probe.log_of_outcomeWith ho

end

/-- **When the attempts of a check take place.** The first starts at once and every other one a pause after the one
before is over, where a pause is rounded up to whole milliseconds and no longer than a wait can be. Each lasts as
long as its query would take, but no longer than to the deadline, which is rounded up as well, and is logged with the
query's own answer or as cut by the deadline. The check ends with its last attempt, and so within as many deadlines
as it may make attempts and the pauses between them. Only a client that breaks down keeps it from ending. -/
theorem runCheck_timing [SwarmClient κ τ] (client : κ) (magnet : String) (policy : RetryPolicy) :
    (∃ (course : List (Query τ × Attempt)) (last : Query τ × Attempt) (run : CheckRun) (after : κ),
      runCheck client magnet policy none = (some run, after) ∧
      Course magnet policy client (course ++ [last]) after ∧ Paced policy 0 (course ++ [last]) ∧
      run.outcome.log = (course ++ [last]).map (·.2) ∧ run.endedAt = overAt policy last ∧
      course.length < policy.budget ∧ run.endedAt ≤
        policy.budget * policy.attemptDeadline.timer + (policy.budget - 1) * policy.backoff.wait) ∨
    ∃ (course : List (Query τ × Attempt)) (now : Nat) (asked broken : κ),
      runCheck client magnet policy none = (none, broken) ∧
      Course magnet policy client course asked ∧ Paced policy 0 course ∧
      SwarmClient.ask now magnet policy.queryTimeout asked = (.crashed, broken) := by
  have hpos : 0 < policy.budget := Nat.lt_of_lt_of_le Nat.zero_lt_one (Nat.le_max_left _ _)
  rcases exists_trials magnet policy policy.budget hpos 0 client with
    ⟨ts, t, next, after, hts, hq, hb, hend⟩ | ⟨ts, next, asked, broken, hts, hq, hb, hbroken⟩
  · obtain ⟨course, hcourse, hlog, hpaced, hover⟩ := hts.exists_course 1
    -- The last of the attempts has the last of the queries.
    rw [List.map_append, List.map_singleton] at hover
    obtain ⟨front, back, rfl, hfront, hback⟩ := List.map_eq_append_iff.1 hover
    obtain ⟨last, rfl, hlast⟩ := List.map_eq_singleton_iff.1 hback
    obtain ⟨mid, client', hmid, ht⟩ := hts.concat
    obtain ⟨o, ho, holog⟩ : ∃ o, (Probe.afterTrials (τ := τ) magnet policy ts).outcomeWith
        (t.attempt (1 + UInt32.ofNat ts.length)) = some o ∧ o.log = numbered 1 (ts ++ [t]) :=
      exists_outcome_of_last hb hend
    have hlength : front.length = ts.length := by simpa using congrArg List.length hfront
    have hfew : front.length < policy.budget := hlength ▸ hb
    refine .inl ⟨front, last, _, after, runCheck_of_last hmid ht hq hb ho, hcourse, hpaced, holog.trans hlog.symm,
      hlast.symm, hfew, ?_⟩
    rw [← hlast]
    exact hpaced.overAt_last_le_budget hfew
  · obtain ⟨course, hcourse, -, hpaced, -⟩ := hts.exists_course 1
    refine .inr ⟨course, next, asked, broken, ?_, hcourse, hpaced, hbroken⟩
    rw [runCheck_of_trials hts hq hb]
    exact Probe.pursue_of_crashed (p := .afterTrials magnet policy ts) hbroken

/-- A pause of sixty years of 365 days is over after thirty, one of a nanosecond only after a millisecond, and a
deadline of a nanosecond lets a query answer that takes a millisecond. -/
theorem second_attempt_after_thirty_years :
    let client (latency : Nat) : ScriptedClient := ⟨[], .ok .none, latency, [], []⟩
    let log (policy : RetryPolicy) (latency : Nat) : Option (List (Nat × QueryResult)) :=
      (runCheck (client latency) "magnet:?" policy none).1.map fun run =>
        run.outcome.log.map fun a => (a.startedAt, a.result)
    let nanosecond : Span := ⟨1, by decide⟩
    let long : RetryPolicy := ⟨2, .ofMillis 1892160000000, .ofMillis 10000, .ofMillis 16000⟩
    let short : RetryPolicy := ⟨2, nanosecond, .ofMillis 10000, .ofMillis 16000⟩
    let hasty : RetryPolicy := ⟨1, .zero, .zero, nanosecond⟩
    (log long 0 = some [(0, .ok .none), (946080000000000000, .ok .none)] ∧
      ¬ 946080000000000000 = 0 + min 0 long.attemptDeadline.nanos + long.backoff.nanos) ∧
    (log short 0 = some [(0, .ok .none), (1000000, .ok .none)] ∧
      ¬ 1000000 = 0 + min 0 short.attemptDeadline.nanos + short.backoff.nanos) ∧
    log hasty 1000000 = some [(0, .ok .none)] ∧ hasty.attemptDeadline.nanos < 1000000 := by
  decide +kernel

end SwarmSampler
