import SwarmSampler.Client

/-
A client that replays results set down beforehand. Each magnet has its own
script; when a script is used up, or there is none, the fallback is answered.
Every query takes the same time.
-/

namespace SwarmSampler

/-- A client with a script for each magnet. -/
structure ScriptedClient where
  scripts : List (String × List QueryResult)
  fallback : QueryResult
  latency : Nat
  /-- Magnets that break the client down. -/
  crashes : List String
  /-- The queries so far with their instants. -/
  calls : List (Nat × String)

namespace ScriptedClient

/-- The next result of a magnet and the scripts after it. -/
def next (fallback : QueryResult) (magnet : String) :
    List (String × List QueryResult) → QueryResult × List (String × List QueryResult)
  | [] => (fallback, [])
  | (m, results) :: rest =>
    if m = magnet then
      match results with
      | [] => (fallback, (m, []) :: rest)
      | r :: results => (r, (m, results) :: rest)
    else
      let (r, rest) := next fallback magnet rest
      (r, (m, results) :: rest)

/-- Takes the next result of a magnet's script. A query that crashes is not noted. -/
def ask (now : Nat) (magnet : String) (c : ScriptedClient) : Asked Unit × ScriptedClient :=
  if c.crashes.contains magnet then (.crashed, c)
  else
    let (result, scripts) := next c.fallback magnet c.scripts
    (.underway ⟨some (min (Span.wholeMillis c.latency) Span.longestWait), result, ()⟩,
      { c with scripts := scripts, calls := c.calls ++ [(now, magnet)] })

instance : SwarmClient ScriptedClient Unit where
  ask now magnet _ c := c.ask now magnet
  leave _ _ c := c

end ScriptedClient

end SwarmSampler
