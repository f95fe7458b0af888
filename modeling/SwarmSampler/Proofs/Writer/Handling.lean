import Mathlib.Data.List.Induction
import SwarmSampler.Proofs.Writer.Progress

/-
A writer that nobody kills, request by request. Requests may come in at any
time; time passes only while the writer has nothing to do, and not beyond the
instant it waits for. At every moment an account can be given of the requests
begun so far (`Account`): when each was taken up, what the store answered to
each call for it, and how it was settled, given how many requests in a row had
failed before it.
-/

namespace SwarmSampler

/-- A request as it is handled: when it came, when it was taken up, and what the store has answered to
the calls for it, one after another. -/
structure Handling where
  request : AppendRequest
  arrived : Nat
  began : Nat
  results : List AppendAnswer

namespace Handling

/-- The instants of the calls, with a pause between each two. -/
def instants (pause : Nat) (h : Handling) : List Nat :=
  (List.range h.results.length).map fun i => h.began + i * pause

/-- The instant of the last call, or of the beginning if there is no call. -/
def ended (pause : Nat) (h : Handling) : Nat := h.began + (h.results.length - 1) * pause

/-- The calls of the store with what they brought. -/
def calls (h : Handling) : List (AppendRequest × AppendAnswer) := h.results.map fun a => (h.request, a)

/-- The handling after another call. -/
def record (h : Handling) (a : AppendAnswer) : Handling := { h with results := h.results ++ [a] }

/-- A request that is just taken up. -/
def start (request : AppendRequest) (arrived now : Nat) : Handling := ⟨request, arrived, now, []⟩

theorem instants_record (pause : Nat) (h : Handling) (a : AppendAnswer) :
    (h.record a).instants pause = h.instants pause ++ [h.began + h.results.length * pause] := by
  simp only [instants, record, List.length_append, List.length_singleton, List.range_succ, List.map_append,
    List.map_singleton]

theorem ended_record (pause : Nat) (h : Handling) (a : AppendAnswer) :
    (h.record a).ended pause = h.began + h.results.length * pause := by
  simp only [ended, record, List.length_append, List.length_singleton, Nat.add_sub_cancel]

theorem ended_start (pause : Nat) (request : AppendRequest) (arrived now : Nat) :
    (start request arrived now).ended pause = now := by
  simp only [ended, start, List.length_nil, Nat.zero_sub, Nat.zero_mul, Nat.add_zero]

theorem calls_record (h : Handling) (a : AppendAnswer) : (h.record a).calls = h.calls ++ [(h.request, a)] := by
  simp only [calls, record, List.map_append, List.map_singleton]

end Handling

/-- When the writer is free again after some requests. -/
def freeAt (pause : Nat) (begun : List Handling) : Nat := begun.getLast?.elim 0 (Handling.ended pause)

/-- A request done with, and its answer. -/
abbrev Handled := Handling × AppendAnswer

/-- The failed requests in a row after one more. One that is refused without a call does not count. -/
def failuresAfter (n : Nat) (d : Handled) : Nat :=
  match d.2 with
  | .ok _ => 0
  | .error _ => if d.1.results = [] then n else n + 1

/-- How many of some requests have failed in a row at the end. -/
def streak (done : List Handled) : Nat := done.foldl failuresAfter 0

theorem streak_concat (done : List Handled) (d : Handled) :
    streak (done ++ [d]) = failuresAfter (streak done) d := by
  simp only [streak, List.foldl_append, List.foldl_cons, List.foldl_nil]

/-- How a request is settled, so many requests having failed in a row before it: what the store answers to
the calls for it, and what it is answered in the end. -/
inductive Settled (settings : WriterSettings) (failed : Nat) (request : AppendRequest) :
    List AppendAnswer → AppendAnswer → Prop
  /-- The store has been given up and is not called. -/
  | refused (latched : settings.failureThreshold.toNat ≤ failed) :
      Settled settings failed request [] (.error ⟨.storeUnavailable, toString failed ++ " consecutive writes failed"⟩)
  /-- A call succeeds; there is none after it. -/
  | stored {failures : List Failure} {stored : HealthSample} (trusted : failed < settings.failureThreshold.toNat)
      (few : failures.length < max 1 settings.writeAttempts.toNat) :
      Settled settings failed request (failures.map .error ++ [.ok stored]) (.ok stored)
  /-- All calls fail. -/
  | failed {failures : List Failure} {last : Failure} (below : failed + 1 < settings.failureThreshold.toNat)
      (all : failures.length + 1 = max 1 settings.writeAttempts.toNat) :
      Settled settings failed request (failures.map .error ++ [.error last])
        (.error ((Writer.start settings).exhausted request last))
  /-- All calls fail, for one request too many. -/
  | fatal {failures : List Failure} {last : Failure} (reached : failed + 1 = settings.failureThreshold.toNat)
      (all : failures.length + 1 = max 1 settings.writeAttempts.toNat) :
      Settled settings failed request (failures.map .error ++ [.error last])
        (.error ⟨.storeUnavailable, ((Writer.start settings).exhausted request last).message⟩)

section Settled

variable {settings : WriterSettings} {failed : Nat}

/-- Once the store is given up a request is refused without a call. -/
theorem Settled.of_latched {request : AppendRequest} {results : List AppendAnswer} {a : AppendAnswer}
    (hs : Settled settings failed request results a) (hle : settings.failureThreshold.toNat ≤ failed) :
    results = [] ∧ a = .error ⟨.storeUnavailable, toString failed ++ " consecutive writes failed"⟩ := by
  cases hs with
  | refused => exact ⟨rfl, rfl⟩
  | stored trusted => exact absurd hle (Nat.not_le_of_lt trusted)
  | failed below => omega
  | fatal reached => omega

theorem Settled.failuresAfter_le {d : Handled} (hs : Settled settings failed d.1.request d.1.results d.2)
    (hle : failed ≤ settings.failureThreshold.toNat) : failuresAfter failed d ≤ settings.failureThreshold.toNat := by
  obtain ⟨⟨request, arrived, began, results⟩, a⟩ := d
  dsimp only at hs
  cases hs with
  | refused => exact hle
  | stored => exact Nat.zero_le _
  | failed below =>
    rw [failuresAfter, if_neg (List.concat_ne_nil _ _)]
    exact Nat.le_of_lt below
  | fatal reached =>
    rw [failuresAfter, if_neg (List.concat_ne_nil _ _)]
    exact Nat.le_of_eq reached

end Settled

/-- Calls of a store one after another, with what it answers, lead from it to another. -/
def Replies {σ : Type} [SampleStore σ] (store : σ) : List (AppendRequest × AppendAnswer) → σ → Prop
  | [], last => last = store
  | (request, a) :: rest, last => ∃ next,
    SampleStore.append request.sample request.metrics store = (a, next) ∧ Replies next rest last

theorem Replies.concat {σ : Type} [SampleStore σ] {calls : List (AppendRequest × AppendAnswer)}
    {request : AppendRequest} {a : AppendAnswer} : ∀ {store last next : σ}, Replies store calls last →
    SampleStore.append request.sample request.metrics last = (a, next) →
    Replies store (calls ++ [(request, a)]) next := by
  induction calls with
  | nil =>
    rintro store _ next rfl happend
    exact ⟨next, happend, rfl⟩
  | cons c calls ih =>
    rintro store last next ⟨mid, hc, hrest⟩ happend
    exact ⟨mid, hc, ih hrest happend⟩

/-! ## The account -/

/-- The requests begun: those done with, and the one in hand. -/
def begun (done : List Handled) (hand : Option Handling) : List Handling := done.map (·.1) ++ hand.toList

/-- An account of what a writer has done of the requests sent to it, where it began with a store. -/
structure Account {σ : Type} [SampleStore σ] (settings : WriterSettings) (first : σ) (done : List Handled)
    (hand : Option Handling) (waiting sent : List (Nat × AppendRequest)) (answered : List Nat) (w : Writer)
    (store : σ) : Prop where
  /-- Requests are taken up in the order they came. -/
  sent : sent = (begun done hand).map (fun h => (h.arrived, h.request)) ++ waiting
  pending : w.pending = waiting.map (·.2)
  /-- A request is taken up when it comes, or as soon as the last call for the one before it is over. -/
  promptly : ∀ {before h after}, begun done hand = before ++ h :: after →
    h.began = max h.arrived (freeAt settings.retryDelay.wait before)
  settled : ∀ {before h a after}, done = before ++ (h, a) :: after →
    Settled settings (streak before) h.request h.results a
  answers : w.answers = done.map fun d => (d.1.request.ticket, d.2)
  /-- A request is answered when the last call for it is over. -/
  answered : answered = done.map fun d => d.1.ended settings.retryDelay.wait
  calls : w.calls = (begun done hand).flatMap (Handling.instants settings.retryDelay.wait)
  replies : Replies first ((begun done hand).flatMap Handling.calls) store
  failures : w.failures.toNat = streak done

theorem concat_eq_append_cons {α : Type} {l before after : List α} {x y : α} (h : l ++ [x] = before ++ y :: after) :
    (∃ rest, l = before ++ y :: rest) ∨ l = before ∧ x = y := by
  rcases List.eq_nil_or_concat after with rfl | ⟨rest, z, rfl⟩
  · obtain ⟨hl, hx⟩ := List.append_inj' h rfl
    exact .inr ⟨hl, by simpa using hx⟩
  · have h' : l ++ [x] = (before ++ y :: rest) ++ [z] := by simpa using h
    exact .inl ⟨rest, (List.append_inj' h' rfl).1⟩

section Account

variable {σ : Type} [SampleStore σ] {settings : WriterSettings} {first store : σ} {done : List Handled}
  {hand : Option Handling} {waiting sent : List (Nat × AppendRequest)} {answered : List Nat} {w : Writer}
  {h : Handling}

theorem begun_some (done : List Handled) (h : Handling) : begun done (some h) = begun done none ++ [h] := by
  simp only [begun, Option.toList_some, Option.toList_none, List.append_nil]

theorem begun_concat (done : List Handled) (h : Handling) (a : AppendAnswer) :
    begun (done ++ [(h, a)]) none = begun done (some h) := by
  simp only [begun, List.map_append, List.map_singleton, Option.toList_some, Option.toList_none, List.append_nil]

theorem freeAt_concat (pause : Nat) (done : List Handled) (h : Handling) (a : AppendAnswer) :
    freeAt pause (begun (done ++ [(h, a)]) none) = h.ended pause := by
  rw [begun_concat, begun_some, freeAt, List.getLast?_concat]
  rfl

theorem account_start (settings : WriterSettings) (store : σ) :
    Account settings store [] none [] [] [] (.start settings) store where
  sent := rfl
  pending := rfl
  promptly {before h after} heq := by
    cases before <;> cases heq
  settled {before h a after} heq := by
    cases before <;> cases heq
  answers := rfl
  answered := rfl
  calls := rfl
  replies := rfl
  failures := rfl

/-- A request comes in. -/
theorem Account.send (w' : Writer) (ha : Account settings first done hand waiting sent answered w store)
    (x : Nat × AppendRequest) (pending : w'.pending = w.pending ++ [x.2]) (answers : w'.answers = w.answers)
    (calls : w'.calls = w.calls) (failures : w'.failures = w.failures) :
    Account settings first done hand (waiting ++ [x]) (sent ++ [x]) answered w' store where
  sent := by rw [ha.sent, List.append_assoc]
  pending := by rw [pending, ha.pending, List.map_append, List.map_singleton]
  promptly := ha.promptly
  settled := ha.settled
  answers := answers.trans ha.answers
  answered := ha.answered
  calls := calls.trans ha.calls
  replies := ha.replies
  failures := failures ▸ ha.failures

/-- The first request that waits is taken up. -/
theorem Account.takeUp {now arrived : Nat} {request : AppendRequest}
    (ha : Account settings first done none ((arrived, request) :: waiting) sent answered w store)
    (hnow : now = max arrived (freeAt settings.retryDelay.wait (begun done none))) :
    Account settings first done (some (.start request arrived now)) waiting sent answered
      (w.withPending (waiting.map (·.2))) store where
  sent := by
    rw [ha.sent, begun_some, List.map_append, List.append_assoc]
    rfl
  pending := rfl
  promptly heq := by
    rw [begun_some] at heq
    obtain ⟨rest, heq⟩ | ⟨rfl, rfl⟩ := concat_eq_append_cons heq
    · exact ha.promptly heq
    · exact hnow
  settled := ha.settled
  answers := ha.answers
  answered := ha.answered
  calls := by
    rw [begun_some, List.flatMap_append]
    exact ha.calls.trans (List.append_nil _).symm
  replies := by
    rw [begun_some, List.flatMap_append]
    exact (List.append_nil _).symm ▸ ha.replies
  failures := ha.failures

/-- The store is called for the request in hand. -/
theorem Account.call (w' : Writer) {now : Nat} {a : AppendAnswer} {next : σ}
    (ha : Account settings first done (some h) waiting sent answered w store)
    (hnow : now = h.began + h.results.length * settings.retryDelay.wait)
    (happend : SampleStore.append h.request.sample h.request.metrics store = (a, next))
    (pending : w'.pending = w.pending) (answers : w'.answers = w.answers) (calls : w'.calls = w.calls ++ [now])
    (failures : w'.failures = w.failures) :
    Account settings first done (some (h.record a)) waiting sent answered w' next where
  sent := by
    rw [ha.sent, begun_some, begun_some, List.map_append, List.map_append]
    rfl
  pending := pending.trans ha.pending
  promptly {before h' after} heq := by
    rw [begun_some] at heq
    obtain ⟨rest, heq⟩ | ⟨rfl, rfl⟩ := concat_eq_append_cons heq
    · have heq' : begun done (some h) = before ++ h' :: (rest ++ [h]) := by
        rw [begun_some, heq, List.append_assoc, List.cons_append]
      exact ha.promptly heq'
    · exact (ha.promptly (begun_some done h) :)
  settled := ha.settled
  answers := answers.trans ha.answers
  answered := ha.answered
  calls := by
    rw [calls, ha.calls, begun_some, begun_some, List.flatMap_append, List.flatMap_append, List.append_assoc,
      List.flatMap_singleton, List.flatMap_singleton, Handling.instants_record, hnow]
  replies := by
    have hbefore := ha.replies
    rw [begun_some, List.flatMap_append, List.flatMap_singleton] at hbefore
    rw [begun_some, List.flatMap_append, List.flatMap_singleton, Handling.calls_record, ← List.append_assoc]
    exact hbefore.concat happend
  failures := failures ▸ ha.failures

/-- The request in hand is answered. -/
theorem Account.answer (w' : Writer) {a : AppendAnswer}
    (ha : Account settings first done (some h) waiting sent answered w store)
    (hsettled : Settled settings (streak done) h.request h.results a)
    (pending : w'.pending = w.pending) (answers : w'.answers = w.answers ++ [(h.request.ticket, a)])
    (calls : w'.calls = w.calls) (failures : w'.failures.toNat = failuresAfter w.failures.toNat (h, a)) :
    Account settings first (done ++ [(h, a)]) none waiting sent
      (answered ++ [h.ended settings.retryDelay.wait]) w' store where
  sent := by rw [begun_concat, ha.sent]
  pending := pending.trans ha.pending
  promptly heq := ha.promptly (begun_concat done h a ▸ heq)
  settled {before h' a' after} heq := by
    obtain ⟨rest, heq⟩ | ⟨hbefore, heq⟩ := concat_eq_append_cons heq
    · exact ha.settled heq
    · obtain ⟨rfl, rfl⟩ := Prod.mk.injEq .. ▸ heq
      exact hbefore ▸ hsettled
  answers := by rw [answers, ha.answers, List.map_append, List.map_singleton]
  answered := by rw [ha.answered, List.map_append, List.map_singleton]
  calls := by rw [begun_concat, calls, ha.calls]
  replies := by
    rw [begun_concat]
    exact ha.replies
  failures := by rw [failures, streak_concat, ha.failures]

end Account

end SwarmSampler
