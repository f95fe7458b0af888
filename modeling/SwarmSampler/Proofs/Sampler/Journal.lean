import SwarmSampler.Proofs.Check.Asking
import SwarmSampler.Proofs.Sampler.Balance
import SwarmSampler.Proofs.Sampler.Moves
import SwarmSampler.Proofs.Store.Reading

/-
A journal of what a sampler does, read off its states. For every check it tells
when it was started, what it asked, what it found, which row the store gained
for it, which report was published and how it ended; beside that, which targets
each cycle was given, the rows that others stored and the calls on the store
that failed. The sampler's client is observed, which changes nothing for it.
-/

namespace SwarmSampler

/-- What a check is for: a target in a cycle of a run. -/
structure Errand where
  run : Nat
  /-- How many cycles the run has been through before. -/
  pass : Nat
  target : MonitoringTarget

/-- What a settled check has come to, and the sample and the trend made of it. -/
structure Finding where
  outcome : CheckOutcome
  sample : HealthSample
  metrics : MetricsReading

/-- What happens to a check. -/
inductive CheckEvent (ρ : Type)
  | started (errand : Errand)
  | asked (askedAt : Nat) (magnet : String)
  | settled (finding : Finding)
  | stored (row : ρ)
  | published (report : CheckReport)
  /-- The result goes to a cycle of a run. -/
  | ended (run pass : Nat) (result : CheckResult)

/-- What happens to a sampler. -/
inductive Entry (ρ : Type)
  /-- A cycle of a run has got its targets, which are shuffled, if at all, by a draw. -/
  | listed (run pass draw : Nat) (targets : List MonitoringTarget)
  | check (id : Nat) (event : CheckEvent ρ)
  /-- The store has refused a sample. -/
  | vain
  /-- Someone else has stored a row. -/
  | foreign (row : ρ)

namespace CheckEvent

variable {ρ : Type}

/-- The target whose check was started in a cycle of a run. -/
def start? (run pass : Nat) : CheckEvent ρ → Option MonitoringTarget
  | started e => if e.run = run ∧ e.pass = pass then some e.target else none
  | _ => none

def row? : CheckEvent ρ → Option ρ
  | stored row => some row
  | _ => none

def report? : CheckEvent ρ → Option CheckReport
  | published report => some report
  | _ => none

def question? : CheckEvent ρ → Option (Nat × String)
  | asked askedAt magnet => some (askedAt, magnet)
  | _ => none

/-- How the check ended in a cycle of a run. -/
def end? (run pass : Nat) : CheckEvent ρ → Option CheckResult
  | ended r k result => if r = run ∧ k = pass then some result else none
  | _ => none

theorem row?_eq_some {e : CheckEvent ρ} {row : ρ} : e.row? = some row ↔ e = .stored row := by
  cases e <;> simp [row?]

theorem report?_eq_some {e : CheckEvent ρ} {report : CheckReport} :
    e.report? = some report ↔ e = .published report := by
  cases e <;> simp [report?]

end CheckEvent

namespace Entry

variable {ρ : Type}

/-- The row that the store has gained. -/
def row? : Entry ρ → Option ρ
  | check _ event => event.row?
  | foreign row => some row
  | _ => none

def report? : Entry ρ → Option CheckReport
  | check _ event => event.report?
  | _ => none

def question? : Entry ρ → Option (Nat × String)
  | check _ event => event.question?
  | _ => none

def of? (id : Nat) : Entry ρ → Option (CheckEvent ρ)
  | check i event => if i = id then some event else none
  | _ => none

/-- What is taken of the events of checks, with the number of the check. -/
def told {β : Type} (f : CheckEvent ρ → Option β) : Entry ρ → Option (Nat × β)
  | check id event => (f event).map (Prod.mk id)
  | _ => none

def start? (run pass : Nat) : Entry ρ → Option (Nat × MonitoringTarget) := told (CheckEvent.start? run pass)

def end? (run pass : Nat) : Entry ρ → Option (Nat × CheckResult) := told (CheckEvent.end? run pass)

/-- The targets that a cycle of a run was given, and the draw. -/
def listing? (run pass : Nat) : Entry ρ → Option (Nat × List MonitoringTarget)
  | listed r k draw targets => if r = run ∧ k = pass then some (draw, targets) else none
  | _ => none

end Entry

/-- The questions of a check as events. -/
def questions {ρ : Type} (asked : List (Nat × String)) : List (CheckEvent ρ) :=
  asked.map fun q => .asked q.1 q.2

namespace Sampler

variable {κ τ σ ρ : Type}

/-- What a check has found if it settles at its next turn. -/
def finding? [SwarmClient κ τ] [SampleStore σ] (s : Sampler κ τ σ) (c : CheckTask τ) : Option Finding :=
  match c.stage with
  | .probing p =>
    match (p.resume s.now (s.checksHalted c.run) s.client).1 with
    | .settled o =>
      let sample := s.sampleOf c.target o
      some ⟨o, sample, trendWith s.plan.historyDepth sample s.store⟩
    | _ => none
  | .storing _ => none

/-- What the client is asked on the way from a state to another. -/
def asks (s s' : Sampler (Observed κ) (Nat × τ) σ) : List (Nat × String) :=
  s'.client.queries.drop s.client.queries.length

/-- What a turn of a check brings that leads from a state to another. -/
def noteCheck [SwarmClient κ τ] [SampleStore σ] (c : CheckTask (Nat × τ))
    (s s' : Sampler (Observed κ) (Nat × τ) σ) : List (CheckEvent ρ) :=
  questions (asks s s') ++ (s.finding? c).toList.map .settled ++
    (s'.reports.drop s.reports.length).map .published ++
    ((s'.arrived c.run).drop (s.arrived c.run).length).map (.ended c.run (s.passNo c.run))

/-- What a turn of a check brings, if there is such a check. -/
def noteTurn [SwarmClient κ τ] [SampleStore σ] (id : Nat) (s s' : Sampler (Observed κ) (Nat × τ) σ) :
    List (CheckEvent ρ) :=
  match s.check? id with
  | some c => noteCheck c s s'
  | none => []

/-- The targets that a turn of a run has a cycle get. Chance is drawn on when it does. -/
def noteListing (run : Nat) (s s' : Sampler κ τ σ) : List (Entry ρ) :=
  match s.source.targets s.store with
  | .ok targets => if s'.drawn = s.drawn then [] else [.listed run (s.passNo run) s.drawn targets]
  | .error _ => []

/-- What a turn of a run brings. -/
def noteRun (run : Nat) (s s' : Sampler κ τ σ) : List (Entry ρ) :=
  noteListing run s s' ++
    (s'.checks.drop s.checks.length).map fun c => .check c.id (.started ⟨c.run, s.passNo c.run, c.target⟩)

/-- The rows that a store has gained. -/
def gained [SampleStore σ] (view : RowView σ ρ) (s s' : Sampler κ τ σ) : List ρ :=
  (view.rows s'.store).drop (view.rows s.store).length

/-- What a piece of work brings. The rows the store gains are put down to the request that is first
in line; a call that brings none was in vain. -/
def noteWork [SampleStore σ] (view : RowView σ ρ) (s s' : Sampler κ τ σ) : List (Entry ρ) :=
  match s.writer.line with
  | [] => []
  | r :: _ =>
    match gained view s s' with
    | [] => if s'.writer.calls = s.writer.calls then [] else [.vain]
    | rows => rows.map fun row => .check r.ticket (.stored row)

/-- What a move brings that leads from a state to another. -/
def note [SwarmClient κ τ] [SampleStore σ] (view : RowView σ ρ)
    (s s' : Sampler (Observed κ) (Nat × τ) σ) : Move σ → List (Entry ρ)
  | .run run => noteRun run s s'
  | .check id => (noteTurn id s s').map (.check id)
  | .work => noteWork view s s'
  | .append _ _ => (gained view s s').map .foreign
  | _ => []

end Sampler

/-- A sampler with its journal. -/
structure Chronicle (κ τ σ ρ : Type) where
  sampler : Sampler (Observed κ) (Nat × τ) σ
  journal : List (Entry ρ)

namespace Chronicle

variable {κ τ σ ρ : Type}

/-- A journal that begins. -/
def opened (s : Sampler (Observed κ) (Nat × τ) σ) : Chronicle κ τ σ ρ := ⟨s, []⟩

theorem opened_sampler (s : Sampler (Observed κ) (Nat × τ) σ) :
    (opened s : Chronicle κ τ σ ρ).sampler = s := rfl

/-- What has happened to a check. -/
def life (c : Chronicle κ τ σ ρ) (id : Nat) : List (CheckEvent ρ) := c.journal.filterMap (Entry.of? id)

/-- The checks that a cycle of a run has started, in that order. -/
def startedIn (c : Chronicle κ τ σ ρ) (run pass : Nat) : List (Nat × MonitoringTarget) :=
  c.journal.filterMap (Entry.start? run pass)

/-- The checks of a cycle of a run that are over, in the order they ended. -/
def endedIn (c : Chronicle κ τ σ ρ) (run pass : Nat) : List (Nat × CheckResult) :=
  c.journal.filterMap (Entry.end? run pass)

/-- The targets that a cycle of a run has got. -/
def listingsOf (c : Chronicle κ τ σ ρ) (run pass : Nat) : List (Nat × List MonitoringTarget) :=
  c.journal.filterMap (Entry.listing? run pass)

theorem mem_life {c : Chronicle κ τ σ ρ} {id : Nat} {event : CheckEvent ρ} :
    event ∈ c.life id ↔ .check id event ∈ c.journal := by
  refine ⟨fun h => ?_, fun h => List.mem_filterMap.2 ⟨_, h, if_pos rfl⟩⟩
  obtain ⟨e, he, heq⟩ := List.mem_filterMap.1 h
  cases e with
  | listed | vain | foreign => cases heq
  | check i own =>
    obtain ⟨hi, hown⟩ : i = id ∧ own = event := by simpa [Entry.of?] using heq
    rwa [hi, hown] at he

variable [SwarmClient κ τ] [SampleStore σ]

/-- A move, and what it brings. -/
def step (view : RowView σ ρ) (c : Chronicle κ τ σ ρ) (m : Sampler.Move σ) : Chronicle κ τ σ ρ :=
  let s := c.sampler.move m
  ⟨s, c.journal ++ c.sampler.note view s m⟩

/-- Some moves, one after another. -/
def run (view : RowView σ ρ) (c : Chronicle κ τ σ ρ) (ms : List (Sampler.Move σ)) : Chronicle κ τ σ ρ :=
  ms.foldl (step view) c

variable {view : RowView σ ρ} {c : Chronicle κ τ σ ρ}

theorem run_append (c : Chronicle κ τ σ ρ) (ms later : List (Sampler.Move σ)) :
    c.run view (ms ++ later) = (c.run view ms).run view later := List.foldl_append

/-- What every move keeps, moves keep one after another. -/
theorem run_keeps {P : Chronicle κ τ σ ρ → Prop} (step : ∀ {c} (m), P c → P (c.step view m))
    (ms : List (Sampler.Move σ)) : ∀ {c}, P c → P (c.run view ms) := by
  induction ms with
  | nil => exact id
  | cons m ms ih => exact fun h => ih (step m h)

/-- What no move changes as long as something else is kept. -/
theorem run_same {P : Chronicle κ τ σ ρ → Prop} {β : Type} {f : Chronicle κ τ σ ρ → β}
    (step : ∀ {c} (m), P c → P (c.step view m)) (same : ∀ {c} (m), P c → f (c.step view m) = f c)
    (ms : List (Sampler.Move σ)) : ∀ {c}, P c → f (c.run view ms) = f c := by
  induction ms with
  | nil => exact fun _ => rfl
  | cons m ms ih => exact fun h => (ih (step m h)).trans (same m h)

/-- Keeping a journal changes nothing. -/
theorem run_sampler (view : RowView σ ρ) (ms : List (Sampler.Move σ)) :
    ∀ {c : Chronicle κ τ σ ρ}, (c.run view ms).sampler = c.sampler.moveAll ms := by
  induction ms with
  | nil => exact rfl
  | cons m ms ih => exact ih

/-- A journal is only added to. -/
theorem journal_grows (ms : List (Sampler.Move σ)) :
    ∀ {c : Chronicle κ τ σ ρ}, c.journal <+: (c.run view ms).journal := by
  induction ms with
  | nil => exact List.prefix_rfl
  | cons m ms ih => exact fun {c} => (List.prefix_append c.journal _).trans (ih (c := c.step view m))

end Chronicle

end SwarmSampler
