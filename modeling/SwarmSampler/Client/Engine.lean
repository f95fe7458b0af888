import SwarmSampler.Client
import SwarmSampler.Magnet

/-
A client on top of a peer engine. A query opens a session, lets it warm up, and
then reads its peer table again and again until a table shows peers, the
session is gone, or the time is over. A session is closed whenever its query is
left, however far it got.
-/

namespace SwarmSampler

/-- What an engine shows of a session at some age. -/
structure TableRow where
  /-- The age from which on the row holds. -/
  age : Nat
  /-- The table, none once the session is unknown. -/
  table : Option PeerTable

/-- What an engine has done. Ages are those of the session. -/
inductive EngineEvent
  | opened (session : Nat) (hash : InfoHash)
  | refused (session : Nat)
  | polled (session age : Nat)
  | closed (session age : Nat)

/-- An engine whose sessions all go the same way, and which refuses some of them. -/
structure PeerEngine where
  rows : List TableRow
  /-- For each session in turn, why it is refused. -/
  refusals : List (Option QueryError)
  /-- How many sessions were asked for. -/
  sessions : Nat
  log : List EngineEvent

namespace PeerEngine

/-- What the engine shows at an age: the last row that holds, or an empty table. -/
def tableAt (rows : List TableRow) (age : Nat) : Option PeerTable :=
  match (rows.filter (·.age ≤ age)).getLast? with
  | some row => row.table
  | none => some ⟨false, 0, 0⟩

/-- The ages at which what the engine shows may change. -/
def changes (rows : List TableRow) : List Nat := rows.map (·.age)

/-- Sessions that were opened and not closed. -/
def stillOpen (e : PeerEngine) : Nat :=
  e.log.foldl
    (fun n event =>
      match event with
      | .opened _ _ => n + 1
      | .closed _ _ => n - 1
      | _ => n) 0

end PeerEngine

/-- When a session is polled: first at some age, then after every pause, and last at an age that no
poll goes beyond. -/
structure Rhythm where
  first : Nat
  pause : Nat
  last : Nat

namespace Rhythm

/-- The ages of the polls up to an age. -/
def upTo (r : Rhythm) (age : Nat) : List Nat :=
  let early := min (age + 1) r.last - r.first
  (List.range ((early + r.pause - 1) / r.pause)).map (fun i => r.first + i * r.pause) ++
    if r.last ≤ age then [r.last] else []

/-- After a poll before the last, the next one that may show something else: the first that is not
before the next of some ages. -/
def turn (r : Rhythm) (ages : List Nat) (age : Nat) : Nat :=
  match (ages.filter (age < ·)).min? with
  | none => r.last
  | some change => min r.last (age + max 1 ((change - age + r.pause - 1) / r.pause * r.pause))

theorem lt_turn (r : Rhythm) (ages : List Nat) {age : Nat} (h : age < r.last) :
    age < r.turn ages age := by
  unfold turn
  split <;> omega

end Rhythm

structure EngineClient where
  engine : PeerEngine
  warmup : Span
  pollInterval : Span

/-- What an engine's client holds for a query with a session. -/
structure EngineSession where
  session : Nat
  rhythm : Rhythm

namespace EngineClient

/-- Sessions are not polled more often than this many nanoseconds apart. -/
def shortestPause : Nat := 10_000_000

/-- What one poll decides: a session that is gone fails, a table with peers answers. -/
def verdict? (hash : InfoHash) : Option PeerTable → Option QueryResult
  | none => some (.error (.unreachable ("session for " ++ hash.text ++ " vanished")))
  | some t => if t.hasMetadata && 0 < t.listPeers then some (.ok t.counts) else none

/-- The latest table that had metadata. -/
def known (before : Option PeerTable) : Option PeerTable → Option PeerTable
  | some t => if t.hasMetadata then some t else before
  | none => before

/-- The answer when no poll decided. -/
def overdue (limit : Span) : Option PeerTable → QueryResult
  | some t => .ok t.counts
  | none => .error (.timeout limit)

/-- How a session is polled that may be polled up to an age. -/
def rhythm (c : EngineClient) (limit : Span) : Rhythm :=
  ⟨c.warmup.timer, min (max c.pollInterval.timer shortestPause) Span.longestWait, limit.timer⟩

/-- Polls a session from an age on, until a poll decides or the limit is reached. Answers when that
is and what the query comes to. A poll that shows the same table as the one before decides nothing,
so those are passed over. -/
def watch (rows : List TableRow) (hash : InfoHash) (r : Rhythm) (limit : Span)
    (before : Option PeerTable) (age : Nat) : Nat × QueryResult :=
  let table := PeerEngine.tableAt rows age
  match verdict? hash table with
  | some result => (age, result)
  | none =>
    if _h : r.last ≤ age then (age, overdue limit (known before table))
    else watch rows hash r limit (known before table) (r.turn (PeerEngine.changes rows) age)
termination_by r.last - age
decreasing_by
  have := r.lt_turn (PeerEngine.changes rows) (Nat.lt_of_not_le _h)
  omega

/-- A query that answers at once without a session. -/
def immediate (e : QueryError) : Asked (Option EngineSession) := .underway ⟨some 0, .error e, none⟩

/-- Asks, and breaks down if warm-up and timeout together are no span. Instants are taken to reach as far as
spans do; where they end before that, a client breaks down on the shorter times that lead beyond them, too. -/
def ask (magnet : String) (timeout : Span) (c : EngineClient) :
    Asked (Option EngineSession) × EngineClient :=
  match c.warmup.add? timeout with
  | none => (.crashed, c)
  | some limit =>
    match Magnet.parse magnet with
    | .error fault => (immediate (.invalidMagnet fault.message), c)
    | .ok hash =>
      let session := c.engine.sessions + 1
      match c.engine.refusals[c.engine.sessions]?.join with
      | some e =>
        (immediate e, { c with engine :=
          { c.engine with sessions := session, log := c.engine.log ++ [.refused session] } })
      | none =>
        let r := c.rhythm limit
        let (takes, result) := watch c.engine.rows hash r limit none r.first
        (.underway ⟨some takes, result, some ⟨session, r⟩⟩, { c with engine :=
          { c.engine with sessions := session, log := c.engine.log ++ [.opened session hash] } })

/-- What a session's engine has seen of it when it is left at some age. -/
def EngineSession.events (s : EngineSession) (age : Nat) : List EngineEvent :=
  (s.rhythm.upTo age).map (.polled s.session ·) ++ [.closed s.session age]

def leave (session : Option EngineSession) (age : Nat) (c : EngineClient) : EngineClient :=
  match session with
  | none => c
  | some s => { c with engine := { c.engine with log := c.engine.log ++ EngineSession.events s age } }

instance : SwarmClient EngineClient (Option EngineSession) where
  ask _ magnet timeout c := c.ask magnet timeout
  leave := leave

end EngineClient

end SwarmSampler
