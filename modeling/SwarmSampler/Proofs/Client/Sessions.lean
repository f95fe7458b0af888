import SwarmSampler.Proofs.Client.Watching

/-
Sessions of an engine's client, from being asked to being left. All that a
client can do with a query is listed once (`Receives`); what a query has written
in the engine's log when it is left makes up a block (`Block`): nothing, one
refusal, or a session that is opened, polled and closed. Such a log opens a
session only when none is open, polls and closes only the one that is, and leaves
none open (`Orderly`).
-/

namespace SwarmSampler

/-- A query that is asked at an instant, and dropped at some age unless it has answered by then: what it
answers, and at what age it is left. -/
def askOnce {κ τ : Type} [SwarmClient κ τ] (dropAt : Option Nat) (now : Nat) (magnet : String) (timeout : Span)
    (client : κ) : Option QueryResult × Option Nat × κ :=
  match SwarmClient.ask now magnet timeout client with
  | (.crashed, client) => (none, none, client)
  | (.underway query, client) => query.run dropAt client

/-- The age at which something ends that would last up to an age, if it may be stopped at another. -/
def stoppedBy (stop : Option Nat) (age : Nat) : Nat := stop.elim age (min age)

theorem stoppedBy_zero (stop : Option Nat) : stoppedBy stop 0 = 0 := by
  cases stop <;> simp [stoppedBy]

/-- A query that answers at some age is left then, or when it is dropped. -/
theorem Query.run_of_takes {κ τ : Type} [SwarmClient κ τ] {q : Query τ} {age : Nat} (h : q.takes = some age)
    (dropAt : Option Nat) (client : κ) :
    q.run dropAt client =
      (if dropAt.any (· < age) then none else some q.result, some (stoppedBy dropAt age),
        SwarmClient.leave q.session (stoppedBy dropAt age) client) := by
  unfold Query.run
  rw [h]
  cases dropAt with
  | none => rfl
  | some drop =>
    by_cases hle : age ≤ drop
    · have hlt : ¬ drop < age := by omega
      simp [hle, hlt, stoppedBy]
    · have hlt : drop < age := by omega
      have hmin : min age drop = drop := by omega
      simp [hle, hlt, stoppedBy, hmin]

/-! ## The polls of a session -/

namespace Rhythm

theorem lt_steps {i n pause : Nat} (hp : 0 < pause) : i < (n + pause - 1) / pause ↔ i * pause < n := by
  rw [← Nat.succ_le_iff, Nat.le_div_iff_mul_le hp, Nat.succ_mul]
  omega

/-- Polls come a pause apart from the first on and once more at the last, and none after the session is
left. -/
theorem mem_upTo {r : Rhythm} (hp : 0 < r.pause) {age a : Nat} :
    a ∈ r.upTo age ↔ ((∃ i, a = r.first + i * r.pause) ∧ a < r.last ∨ a = r.last) ∧ a ≤ age := by
  have early : a ∈ (List.range ((min (age + 1) r.last - r.first + r.pause - 1) / r.pause)).map
      (fun i => r.first + i * r.pause) ↔ (∃ i, a = r.first + i * r.pause) ∧ a < r.last ∧ a ≤ age := by
    simp only [List.mem_map, List.mem_range, lt_steps hp]
    constructor
    · rintro ⟨i, hi, rfl⟩
      exact ⟨⟨i, rfl⟩, by omega, by omega⟩
    · rintro ⟨⟨i, rfl⟩, hlast, hage⟩
      exact ⟨i, by omega, rfl⟩
  have last : a ∈ (if r.last ≤ age then [r.last] else []) ↔ a = r.last ∧ a ≤ age := by
    split
    · simp only [List.mem_singleton]
      omega
    · simp only [List.not_mem_nil, false_iff]
      omega
  rw [upTo, List.mem_append, early, last]
  constructor
  · rintro (⟨hi, hlast, hage⟩ | ⟨rfl, hage⟩)
    · exact ⟨.inl ⟨hi, hlast⟩, hage⟩
    · exact ⟨.inr rfl, hage⟩
  · rintro ⟨⟨hi, hlast⟩ | rfl, hage⟩
    · exact .inl ⟨hi, hlast, hage⟩
    · exact .inr ⟨rfl, hage⟩

theorem upTo_rising {r : Rhythm} (hp : 0 < r.pause) (age : Nat) : (r.upTo age).Pairwise (· < ·) := by
  rw [upTo, List.pairwise_append]
  refine ⟨?_, ?_, ?_⟩
  · refine List.pairwise_map.2 (List.pairwise_lt_range.imp fun h => ?_)
    have := Nat.mul_lt_mul_of_pos_right h hp
    omega
  · split <;> simp
  · intro a ha b hb
    split at hb
    · obtain rfl : b = r.last := by simpa using hb
      simp only [List.mem_map, List.mem_range, lt_steps hp] at ha
      obtain ⟨i, hi, rfl⟩ := ha
      omega
    · simp at hb

end Rhythm

/-- The polls of a session that is left at some age: in order, and just those whose age had come. -/
structure Rhythm.Polls (r : Rhythm) (age : Nat) (polls : List Nat) : Prop where
  rising : polls.Pairwise (· < ·)
  mem_iff : ∀ a, a ∈ polls ↔ ((∃ i, a = r.first + i * r.pause) ∧ a < r.last ∨ a = r.last) ∧ a ≤ age

theorem Rhythm.Polls.first_le {r : Rhythm} {age : Nat} {polls : List Nat} (h : r.Polls age polls)
    (hr : r.first ≤ r.last) : ∀ a ∈ polls, r.first ≤ a := by
  intro a ha
  rcases ((h.mem_iff a).1 ha).1 with ⟨⟨i, rfl⟩, -⟩ | rfl
  · exact Nat.le_add_right _ _
  · exact hr

namespace EngineClient

theorem rhythm_pause_pos (c : EngineClient) (limit : Span) : 0 < (c.rhythm limit).pause := by
  have : 0 < shortestPause := by decide
  have : 0 < Span.longestWait := by decide
  simp only [rhythm]
  omega

theorem polls_upTo (c : EngineClient) (limit : Span) (age : Nat) :
    (c.rhythm limit).Polls age ((c.rhythm limit).upTo age) :=
  ⟨Rhythm.upTo_rising (c.rhythm_pause_pos limit) age, fun _ => Rhythm.mem_upTo (c.rhythm_pause_pos limit)⟩

/-! ## Being asked -/

/-- The client after its engine was asked for another session. -/
def asking (c : EngineClient) (event : EngineEvent) : EngineClient :=
  { c with engine := { c.engine with sessions := c.engine.sessions + 1, log := c.engine.log ++ [event] } }

/-- The query of a session that was just opened. -/
def watching (c : EngineClient) (hash : InfoHash) (limit : Span) : Query (Option EngineSession) :=
  let answer := watch c.engine.rows hash (c.rhythm limit) limit none c.warmup.timer
  ⟨some answer.1, answer.2, some ⟨c.engine.sessions + 1, c.rhythm limit⟩⟩

/-- All that a client can do when it is asked about a magnet. -/
inductive Receives (magnet : String) (timeout : Span) (c : EngineClient) :
    Asked (Option EngineSession) → EngineClient → Prop
  /-- No span is as long as warm-up and timeout together. -/
  | overlong (endless : c.warmup.add? timeout = none) : Receives magnet timeout c .crashed c
  | rejected {limit : Span} {fault : Magnet.Fault} (bounded : c.warmup.add? timeout = some limit)
      (malformed : Magnet.parse magnet = .error fault) :
      Receives magnet timeout c (immediate (.invalidMagnet fault.message)) c
  | refused {limit : Span} {hash : InfoHash} {e : QueryError} (bounded : c.warmup.add? timeout = some limit)
      (parses : Magnet.parse magnet = .ok hash)
      (refuses : c.engine.refusals[c.engine.sessions]?.join = some e) :
      Receives magnet timeout c (immediate e) (c.asking (.refused (c.engine.sessions + 1)))
  | opened {limit : Span} {hash : InfoHash} (bounded : c.warmup.add? timeout = some limit)
      (parses : Magnet.parse magnet = .ok hash)
      (admits : c.engine.refusals[c.engine.sessions]?.join = none) :
      Receives magnet timeout c (.underway (c.watching hash limit))
        (c.asking (.opened (c.engine.sessions + 1) hash))

theorem receives (magnet : String) (timeout : Span) (c : EngineClient) :
    Receives magnet timeout c (c.ask magnet timeout).1 (c.ask magnet timeout).2 := by
  unfold ask
  cases hb : c.warmup.add? timeout with
  | none => exact .overlong hb
  | some limit =>
    cases hm : Magnet.parse magnet with
    | error fault => exact .rejected hb hm
    | ok hash =>
      cases hr : c.engine.refusals[c.engine.sessions]?.join with
      | some e =>
        dsimp only
        exact .refused hb hm hr
      | none =>
        dsimp only
        exact .opened hb hm hr

/-- A client of the same engine that was asked for so many sessions and has such a log. -/
def having (c : EngineClient) (sessions : Nat) (log : List EngineEvent) : EngineClient :=
  { c with engine := { c.engine with sessions := sessions, log := log } }

/-! ## What a query writes in the log -/

/-- What the engine's log says of a query that was asked at an instant and left at another, and how many
sessions were asked for before and after. Left alone, a session would be over when its watch is; `leaves` says
when it is left instead. -/
inductive Block (c : EngineClient) (magnet : String) (timeout : Span) (leaves : Nat → Nat → Nat) :
    Nat → Nat → Nat → List EngineEvent → Nat → Prop
  | rejected {k now : Nat} {fault : Magnet.Fault} (malformed : Magnet.parse magnet = .error fault) :
      Block c magnet timeout leaves k now now [] k
  | refused {k now : Nat} {e : QueryError} (refuses : c.engine.refusals[k]?.join = some e) :
      Block c magnet timeout leaves k now now [.refused (k + 1)] (k + 1)
  | held {k now age : Nat} {limit : Span} {hash : InfoHash} {polls : List Nat}
      (bounded : c.warmup.add? timeout = some limit) (parses : Magnet.parse magnet = .ok hash)
      (left : age = leaves now (watch c.engine.rows hash (c.rhythm limit) limit none c.warmup.timer).1)
      (polls_at : (c.rhythm limit).Polls age polls) (warm : ∀ a ∈ polls, c.warmup.timer ≤ a) :
      Block c magnet timeout leaves k now (now + age)
        (.opened (k + 1) hash :: polls.map (.polled (k + 1)) ++ [.closed (k + 1) age]) (k + 1)

/-- A query that got an answer on its way takes some time, and is a block once it is left. -/
theorem block_of_ask {c : EngineClient} {magnet : String} {timeout : Span} {leaves : Nat → Nat → Nat}
    {k now : Nat} {log : List EngineEvent} {query : Query (Option EngineSession)} {client' : EngineClient}
    (instant : leaves now 0 = 0)
    (h : SwarmClient.ask now magnet timeout (c.having k log) = (.underway query, client')) :
    ∃ age, query.takes = some age ∧ ∃ events k',
      Block c magnet timeout leaves k now (now + leaves now age) events k' ∧
      SwarmClient.leave query.session (leaves now age) client' = c.having k' (log ++ events) := by
  have hr := receives magnet timeout (c.having k log)
  rw [show (c.having k log).ask magnet timeout = _ from h] at hr
  cases hr with
  | rejected bounded malformed =>
    refine ⟨0, rfl, [], k, ?_, congrArg (c.having k) (List.append_nil log).symm⟩
    rw [instant]
    exact .rejected malformed
  | refused bounded parses refuses =>
    refine ⟨0, rfl, [.refused (k + 1)], k + 1, ?_, rfl⟩
    rw [instant]
    exact .refused refuses
  | @opened limit hash bounded parses admits =>
    refine ⟨_, rfl, _, k + 1, .held bounded parses rfl (c.polls_upTo limit _) ?_, ?_⟩
    · exact (c.polls_upTo limit _).first_le (Span.timer_le_of_add? bounded)
    · exact congrArg (c.having (k + 1)) (List.append_assoc log _ _)

end EngineClient

/-! ## Logs in order -/

/-- The session that is open after an event, if one was open before. None if the event cannot be then. -/
def EngineEvent.after : Option Nat → EngineEvent → Option (Option Nat)
  | none, .opened k _ => some (some k)
  | none, .refused _ => some none
  | some k, .polled j _ => if j = k then some (some k) else none
  | some k, .closed j _ => if j = k then some none else none
  | _, _ => none

/-- A log in which no session is opened before the last is closed, only the open one is polled and closed,
and none is left open. -/
def Orderly (events : List EngineEvent) : Prop := events.foldlM EngineEvent.after none = some none

theorem Orderly.nil : Orderly [] := rfl

theorem Orderly.append {events later : List EngineEvent} (h : Orderly events) (h' : Orderly later) :
    Orderly (events ++ later) := by
  unfold Orderly at *
  rw [List.foldlM_append, h]
  exact h'

theorem after_polls (k : Nat) (polls : List Nat) :
    (polls.map (EngineEvent.polled k)).foldlM EngineEvent.after (some k) = some (some k) := by
  induction polls with
  | nil => rfl
  | cons a polls ih => simpa [EngineEvent.after] using ih

theorem EngineClient.Block.orderly {c : EngineClient} {magnet : String} {timeout : Span}
    {leaves : Nat → Nat → Nat} {k now left k' : Nat} {events : List EngineEvent}
    (h : Block c magnet timeout leaves k now left events k') : Orderly events := by
  cases h with
  | rejected malformed => rfl
  | refused refuses => rfl
  | held bounded parses left polls_at warm =>
    simp only [Orderly, List.cons_append, List.foldlM_cons, EngineEvent.after, Option.bind_eq_bind,
      Option.bind_some, List.foldlM_append, after_polls, List.foldlM_nil, if_true]
    rfl

theorem PeerEngine.stillOpen_concat (e : PeerEngine) (event : EngineEvent) :
    ({ e with log := e.log ++ [event] } : PeerEngine).stillOpen =
      match event with
      | .opened _ _ => e.stillOpen + 1
      | .closed _ _ => e.stillOpen - 1
      | _ => e.stillOpen := by
  cases event <;> simp only [stillOpen, List.foldl_append, List.foldl_cons, List.foldl_nil]

/-- What a log in order adds to the sessions that are open is the one it leaves open. -/
theorem PeerEngine.stillOpen_of_after {events : List EngineEvent} {s s' : Option Nat} {e : PeerEngine} {n : Nat}
    (h : events.foldlM EngineEvent.after s = some s') (hn : e.stillOpen = n + s.toList.length) :
    ({ e with log := e.log ++ events } : PeerEngine).stillOpen = n + s'.toList.length := by
  induction events generalizing s e with
  | nil =>
    obtain rfl : s = s' := by simpa using h
    simpa using hn
  | cons event events ih =>
    rw [List.foldlM_cons] at h
    obtain ⟨mid, hmid, hrest⟩ := Option.bind_eq_some_iff.1 h
    have hone := e.stillOpen_concat event
    have hcount : ({ e with log := e.log ++ [event] } : PeerEngine).stillOpen = n + mid.toList.length := by
      rw [hone]
      cases s with
      | none =>
        cases event <;> simp only [EngineEvent.after, reduceCtorEq, Option.some.injEq] at hmid <;>
          subst hmid <;> simp_all
      | some k =>
        cases event <;>
          simp only [EngineEvent.after, reduceCtorEq, Option.ite_none_right_eq_some, Option.some.injEq] at hmid <;>
          obtain ⟨-, rfl⟩ := hmid <;> simp_all
    have := ih hrest hcount
    simpa using this

theorem Orderly.stillOpen {events : List EngineEvent} (h : Orderly events) (e : PeerEngine) :
    ({ e with log := e.log ++ events } : PeerEngine).stillOpen = e.stillOpen :=
  have none_open : e.stillOpen = e.stillOpen + (none : Option Nat).toList.length := rfl
  PeerEngine.stillOpen_of_after h none_open

end SwarmSampler
