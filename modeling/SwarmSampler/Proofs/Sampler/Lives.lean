import SwarmSampler.Proofs.Sampler.Standing

/-
The life of a check: it is started, asks, settles, has its sample stored or
refused, and ends; a check whose client breaks down ends at once. Whatever a
sampler does, each check's part of the journal is the beginning of such a life,
and the check stands where its life says. In particular a check has at most one
row and one report, and the report comes after the row.
-/

namespace SwarmSampler

namespace Errand

variable {τ : Type}

/-- The task of the check for an errand. -/
def task (e : Errand) (id : Nat) (stage : CheckStage τ) : CheckTask τ := ⟨id, e.run, e.target, stage⟩

end Errand

namespace Finding

variable (f : Finding)

/-- The trend that is stored along with the sample. -/
def trend : Option MetricsSnapshot := Sampler.trendToStore f.sample f.metrics

/-- What the writer is asked to append. -/
def request (id : Nat) : AppendRequest := ⟨id, f.sample, f.trend⟩

/-- The sample of what a check of a target has come to. -/
def Of (target : MonitoringTarget) : Prop :=
  ∃ id at', f.sample = .ofCounts id target.id at' f.outcome.counts f.outcome.outcome f.outcome.attempts
    f.outcome.reason

/-- A store has taken the sample as another. -/
def StoredAs (σ : Type) [SampleStore σ] (stored : HealthSample) : Prop :=
  ∃ store store' : σ, SampleStore.append f.sample f.trend store = (.ok stored, store')

def row {σ ρ : Type} [SampleStore σ] (view : RowView σ ρ) (stored : HealthSample) : ρ :=
  view.row f.sample f.trend stored

def report (target : MonitoringTarget) (stored : HealthSample) : CheckReport :=
  .ofSample target f.metrics stored

end Finding

/-- Where a check stands after what has happened to it. -/
inductive Life {τ σ ρ : Type} [SampleStore σ] (view : RowView σ ρ) (id : Nat) :
    Standing τ → List (CheckEvent ρ) → Prop
  | unborn : Life view id ⟨none, [], []⟩ []
  | probing {e : Errand} {qs : List (Nat × String)} (p : Probe τ) :
      Life view id ⟨some (e.task id (.probing p)), [], []⟩ (.started e :: questions qs)
  /-- The sample waits in the writer's line. -/
  | waiting {e : Errand} {qs : List (Nat × String)} {f : Finding} (own : f.Of e.target) :
      Life view id ⟨some (e.task id (.storing f.metrics)), [f.request id], []⟩
        (.started e :: questions qs ++ [.settled f])
  | stored {e : Errand} {qs : List (Nat × String)} {f : Finding} {x : HealthSample}
      (own : f.Of e.target) (taken : f.StoredAs σ x) :
      Life view id ⟨some (e.task id (.storing f.metrics)), [], [.ok x]⟩
        (.started e :: questions qs ++ [.settled f, .stored (f.row view x)])
  | refused {e : Errand} {qs : List (Nat × String)} {f : Finding} {why : Failure}
      (own : f.Of e.target) :
      Life view id ⟨some (e.task id (.storing f.metrics)), [], [.error why]⟩
        (.started e :: questions qs ++ [.settled f])
  | reported {e : Errand} {qs : List (Nat × String)} {f : Finding} {x : HealthSample}
      (own : f.Of e.target) (taken : f.StoredAs σ x) :
      Life view id ⟨none, [], [.ok x]⟩
        (.started e :: questions qs ++ [.settled f, .stored (f.row view x),
          .published (f.report e.target x), .ended e.run e.pass (.reported (f.report e.target x))])
  | failed {e : Errand} {qs : List (Nat × String)} {f : Finding} {why : Failure}
      (own : f.Of e.target) :
      Life view id ⟨none, [], [.error why]⟩
        (.started e :: questions qs ++ [.settled f, .ended e.run e.pass (.failed why)])
  /-- The client broke down. -/
  | crashed {e : Errand} {qs : List (Nat × String)} :
      Life view id ⟨none, [], []⟩ (.started e :: questions qs ++ [.ended e.run e.pass .crashed])

namespace Life

variable {τ σ ρ : Type} [SampleStore σ] {view : RowView σ ρ} {id : Nat} {st : Standing τ}
  {events : List (CheckEvent ρ)} {c : CheckTask τ}

theorem eq_unborn (h : Life view id st []) : st = ⟨none, [], []⟩ := by
  generalize he : ([] : List (CheckEvent ρ)) = events at h
  cases h with
  | unborn => rfl
  | probing | waiting | stored | refused | reported | failed | crashed => cases he

/-- A check that is on its way was started for what its task says. -/
theorem started (h : Life view id st events) (ht : st.task = some c) :
    ∃ e rest, events = .started e :: rest ∧ c.id = id ∧ c.run = e.run ∧ c.target = e.target := by
  cases h with
  | unborn => cases ht
  | reported | failed | crashed => cases ht
  | probing | waiting | stored | refused =>
    cases ht
    exact ⟨_, _, rfl, rfl, rfl, rfl⟩

theorem of_probing (h : Life view id st events) {p : Probe τ} (ht : st.task = some c)
    (hp : c.stage = .probing p) :
    ∃ e qs, st = ⟨some (Errand.task e id (.probing p)), [], []⟩ ∧ events = .started e :: questions qs := by
  cases h with
  | unborn | reported | failed | crashed => cases ht
  | @probing e qs p' =>
    cases ht
    cases hp
    exact ⟨e, qs, rfl, rfl⟩
  | waiting | stored | refused =>
    cases ht
    cases hp

/-- A check with a request in the writer's line is waiting. -/
theorem of_request (h : Life view id st events) {r : AppendRequest} {rest : List AppendRequest}
    (hr : st.requests = r :: rest) :
    ∃ e qs f, Finding.Of f e.target ∧ r = f.request id ∧ rest = [] ∧
      st = ⟨some (Errand.task e id (.storing f.metrics)), [f.request id], []⟩ ∧
      events = .started e :: questions qs ++ [.settled f] := by
  cases h with
  | unborn | probing | stored | refused | reported | failed | crashed => cases hr
  | @waiting e qs f own =>
    cases hr
    exact ⟨e, qs, f, own, rfl, rfl, rfl, rfl⟩

/-- A check that has an answer and is not over was stored or refused. -/
theorem of_stored (h : Life view id st events) {x : HealthSample} {metrics : MetricsReading}
    (ht : st.task = some c) (hm : c.stage = .storing metrics) (ha : st.answers.head? = some (.ok x)) :
    ∃ e qs f, Finding.Of f e.target ∧ f.StoredAs σ x ∧ f.metrics = metrics ∧
      st = ⟨some (Errand.task e id (.storing f.metrics)), [], [.ok x]⟩ ∧
      events = .started e :: questions qs ++ [.settled f, .stored (f.row view x)] := by
  cases h with
  | unborn | reported | failed | crashed => cases ht
  | probing | waiting | refused => cases ha
  | @stored e qs f x' own taken =>
    cases ht
    cases hm
    cases ha
    exact ⟨e, qs, f, own, taken, rfl, rfl, rfl⟩

theorem of_refused (h : Life view id st events) {why : Failure} {metrics : MetricsReading}
    (ht : st.task = some c) (hm : c.stage = .storing metrics) (ha : st.answers.head? = some (.error why)) :
    ∃ e qs f, Finding.Of f e.target ∧ f.metrics = metrics ∧
      st = ⟨some (Errand.task e id (.storing f.metrics)), [], [.error why]⟩ ∧
      events = .started e :: questions qs ++ [.settled f] := by
  cases h with
  | unborn | reported | failed | crashed => cases ht
  | probing | waiting | stored => cases ha
  | @refused e qs f why' own =>
    cases ht
    cases hm
    cases ha
    exact ⟨e, qs, f, own, rfl, rfl, rfl⟩

/-- A check that waits for the writer has an answer once nothing of it is left in the line. -/
theorem exists_answer (h : Life view id st events) {metrics : MetricsReading} (ht : st.task = some c)
    (hm : c.stage = .storing metrics) (hr : st.requests = []) : ∃ a, st.answers.head? = some a := by
  cases h with
  | unborn | reported | failed | crashed => cases ht
  | probing p =>
    cases ht
    cases hm
  | waiting => cases hr
  | stored | refused => exact ⟨_, rfl⟩

/-- A check that is over has nothing in the writer's line. -/
theorem over_requests (h : Life view id st events) (gone : st.task = none) : st.requests = [] := by
  cases h with
  | unborn | reported | failed | crashed => rfl
  | probing | waiting | stored | refused => cases gone

/-- A check's start comes first, and does not come again. -/
theorem cons_of_started (h : Life view id st events) {e : Errand} (he : .started e ∈ events) :
    ∃ rest, events = .started e :: rest := by
  have first : ∀ {e' : Errand} {qs : List (Nat × String)} {rest : List (CheckEvent ρ)},
      (∀ e, .started e ∉ rest) → .started e ∈ .started e' :: questions qs ++ rest →
      ∃ rest', (.started e' :: questions qs ++ rest : List (CheckEvent ρ)) = .started e :: rest' := by
    intro e' qs rest hr hm
    have heq : e = e' := by simpa [questions, hr e] using hm
    exact ⟨questions qs ++ rest, by rw [heq]; rfl⟩
  cases h with
  | unborn => cases he
  | probing p =>
    rw [← List.append_nil (.started _ :: questions _)] at he ⊢
    exact first (fun _ => List.not_mem_nil) he
  | waiting | stored | refused | reported | failed | crashed => exact first (by simp) he

theorem exists_started (h : Life view id st events) (some : events ≠ []) : ∃ e, .started e ∈ events := by
  cases h with
  | unborn => exact absurd rfl some
  | probing | waiting | stored | refused | reported | failed | crashed => exact ⟨_, List.mem_cons_self⟩

end Life

end SwarmSampler
