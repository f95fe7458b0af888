import SwarmSampler.Peers

/-
What a check asks about a swarm. How a query would go on is settled when it is
asked: it answers after some time, or never, or the client breaks down. Whoever
asked may leave a query before it answers, and leaves every query in the end,
so a client can give back what it holds for it.
-/

namespace SwarmSampler

/-- A query on its way. Times are in nanoseconds since the program's start, ages since the query
was asked. -/
structure Query (τ : Type) where
  /-- The age at which the query answers, none if it never does. -/
  takes : Option Nat
  result : QueryResult
  /-- What the client holds for the query. -/
  session : τ

/-- What comes of asking. -/
inductive Asked (τ : Type)
  | underway (query : Query τ)
  | crashed

/-- A client that asks about swarms. -/
class SwarmClient (κ : Type) (τ : outParam Type) where
  /-- Asks at an instant about the swarm of a magnet, giving it some time. -/
  ask : Nat → String → Span → κ → Asked τ × κ
  /-- Leaves a query at some age. -/
  leave : τ → Nat → κ → κ

namespace Query

/-- When a query is left that may take no longer than a timer runs, and what it has come to by
then. An answer at the very end of the time still counts. -/
def within {τ : Type} (q : Query τ) (limit : Span) : Nat × QueryResult :=
  match q.takes with
  | some age => if age ≤ limit.timer then (age, q.result) else (limit.timer, .error (.timeout limit))
  | none => (limit.timer, .error (.timeout limit))

/-- A query on its own: what it answers, unless it is dropped at some age before that, and at what
age it is left, none if it goes on forever. An answer at the very age still counts. -/
def run {κ τ : Type} [SwarmClient κ τ] (q : Query τ) (dropAt : Option Nat) (client : κ) :
    Option QueryResult × Option Nat × κ :=
  match q.takes, dropAt with
  | some age, none => (some q.result, some age, SwarmClient.leave q.session age client)
  | some age, some drop =>
    if age ≤ drop then (some q.result, some age, SwarmClient.leave q.session age client)
    else (none, some drop, SwarmClient.leave q.session drop client)
  | none, some drop => (none, some drop, SwarmClient.leave q.session drop client)
  | none, none => (none, none, client)

end Query

end SwarmSampler
