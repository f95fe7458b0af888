import SwarmSampler.Proofs.Store.Writing
import SwarmSampler.Proofs.Writer.Progress

/-
Books about a writer and its store: the requests that were sent, and for each
row the request it was stored for, which is the one in hand when the store
gained the row. Requests may be sent and the writer may be killed between any
two pieces of its work. At every moment the requests done with are the first
ones sent, and the rows are those of the ones among them that were answered
with no error.
-/

namespace SwarmSampler

/-- The rows of a store as its appends see them: one that succeeds adds one row at the end, one
that fails adds none. -/
structure RowView (σ ρ : Type) [SampleStore σ] where
  rows : σ → List ρ
  /-- The row of a sample that was stored as another, with its trend. -/
  row : HealthSample → Option MetricsSnapshot → HealthSample → ρ
  rows_of_ok : ∀ {sample metrics stored} {store store' : σ},
    SampleStore.append sample metrics store = (.ok stored, store') →
      rows store' = rows store ++ [row sample metrics stored]
  rows_of_error : ∀ {sample metrics e} {store store' : σ},
    SampleStore.append sample metrics store = (.error e, store') → rows store' = rows store

/-- The store's table of samples. -/
def Store.rowView : RowView Store SampleRow where
  rows := Store.samples
  row _ metrics stored := Store.rowOf stored metrics
  rows_of_ok {sample metrics stored store store'} h := by
    have h : Store.append sample metrics store = (.ok stored, store') := h
    obtain ⟨_, _, heq, ha⟩ | ⟨e, heq⟩ := Store.append_cases sample metrics store
    · cases h.symm.trans heq
      exact ha.samples_eq
    · cases h.symm.trans heq
  rows_of_error {sample metrics e store store'} h := by
    have h : Store.append sample metrics store = (.error e, store') := h
    obtain ⟨_, _, heq, ha⟩ | ⟨e, heq⟩ := Store.append_cases sample metrics store
    · cases h.symm.trans heq
    · cases h.symm.trans heq
      rfl

/-- The rows a store that fails on demand has kept. -/
def FaultyStore.rowView : RowView FaultyStore HealthSample where
  rows := FaultyStore.rows
  row sample _ _ := sample
  rows_of_ok {sample _ stored store store'} h := by
    have h : store.append sample = (.ok stored, store') := h
    simp only [FaultyStore.append] at h
    split at h
    · cases h
    · cases h
      rfl
  rows_of_error {sample _ e store store'} h := by
    have h : store.append sample = (.error e, store') := h
    simp only [FaultyStore.append] at h
    split at h
    · cases h
      rfl
    · cases h

/-- A writer and its store at an instant, with the requests sent so far and the rows stored so far,
each with the ticket of the request it was stored for. -/
structure Books (σ ρ : Type) extends WriterRun σ where
  sent : List AppendRequest
  ledger : List (Nat × ρ)

namespace Books

variable {σ ρ : Type} [SampleStore σ]

/-- What may happen to a writer. -/
inductive Event
  /-- A sample is handed in. -/
  | send (sample : HealthSample) (metrics : Option MetricsSnapshot)
  /-- The writer does a piece of its work. -/
  | work
  /-- Some time passes. -/
  | wait (nanos : Nat)
  /-- The writer is killed; it may still do some work before it dies. -/
  | kill
  /-- A killed writer dies. -/
  | die

/-- A new writer in front of a store. -/
def opened (settings : WriterSettings) (store : σ) : Books σ ρ := ⟨⟨0, .start settings, store⟩, [], []⟩

/-- Hands in a sample, whose ticket is the number of those before it. -/
def send (b : Books σ ρ) (sample : HealthSample) (metrics : Option MetricsSnapshot) : Books σ ρ :=
  let request := ⟨b.sent.length, sample, metrics⟩
  { b with writer := b.writer.send request, sent := b.sent ++ [request] }

/-- A piece of work. The rows the store gains are put down to the request that is first in line. -/
def work (view : RowView σ ρ) (b : Books σ ρ) : Books σ ρ :=
  let (writer, store) := b.writer.work b.now b.store
  let gained := (view.rows store).drop (view.rows b.store).length
  { b with
    writer := writer
    store := store
    ledger := b.ledger ++ b.writer.line.head?.toList.flatMap fun r => gained.map fun x => (r.ticket, x) }

/-- What an event makes of it all. -/
def step (view : RowView σ ρ) (b : Books σ ρ) : Event → Books σ ρ
  | .send sample metrics => b.send sample metrics
  | .work => b.work view
  | .wait nanos => { b with now := b.now + nanos }
  | .kill => { b with writer := b.writer.kill }
  | .die => if b.writer.killed then { b with writer := b.writer.stop } else b

/-- What some events make of it all, one after another. -/
def run (view : RowView σ ρ) (b : Books σ ρ) (events : List Event) : Books σ ρ :=
  events.foldl (step view) b

/-- The answers to a request. -/
def answersTo (b : Books σ ρ) (r : AppendRequest) : List AppendAnswer :=
  (b.writer.answers.filter (·.1 = r.ticket)).map (·.2)

/-- The rows stored for a request. -/
def rowsFor (b : Books σ ρ) (r : AppendRequest) : List ρ :=
  (b.ledger.filter (·.1 = r.ticket)).map (·.2)

variable {view : RowView σ ρ} {before : List ρ} {b : Books σ ρ}

/-! ## The invariant -/

/-- The rows an answer stands for. -/
def due (view : RowView σ ρ) (d : AppendRequest × AppendAnswer) : List (Nat × ρ) :=
  match d.2 with
  | .ok stored => [(d.1.ticket, view.row d.1.sample d.1.metrics stored)]
  | .error _ => []

/-- The books are right, some requests being done with: the others wait in line, the answers and
the rows are those of the requests done with, in the order these were sent. -/
structure Right (view : RowView σ ρ) (before : List ρ) (finished : List (AppendRequest × AppendAnswer))
    (b : Books σ ρ) : Prop where
  numbered : b.sent.map (·.ticket) = List.range b.sent.length
  sent : b.sent = finished.map (·.1) ++ b.writer.line
  answers : b.writer.answers = finished.map fun d => (d.1.ticket, d.2)
  ledger : b.ledger = finished.flatMap (due view)
  rows : view.rows b.store = before ++ b.ledger.map (·.2)
  tidy : b.writer.Tidy

variable {finished : List (AppendRequest × AppendAnswer)}

theorem right_opened (view : RowView σ ρ) (settings : WriterSettings) (store : σ) :
    Right view (view.rows store) [] (opened settings store) where
  numbered := rfl
  sent := rfl
  answers := rfl
  ledger := rfl
  rows := (List.append_nil _).symm
  tidy _ := rfl

/-- The books stay right when more requests are done with, and new ones come in behind the others. -/
theorem Right.grow {b' : Books σ ρ} (h : Right view before finished b)
    (new : List AppendRequest) (more : List (AppendRequest × AppendAnswer))
    (numbered : b'.sent.map (·.ticket) = List.range b'.sent.length)
    (sent : b'.sent = b.sent ++ new)
    (line : b.writer.line ++ new = more.map (·.1) ++ b'.writer.line)
    (answers : b'.writer.answers = b.writer.answers ++ more.map fun d => (d.1.ticket, d.2))
    (ledger : b'.ledger = b.ledger ++ more.flatMap (due view))
    (rows : view.rows b'.store = view.rows b.store ++ (more.flatMap (due view)).map (·.2))
    (tidy : b'.writer.Tidy) : Right view before (finished ++ more) b' where
  numbered := numbered
  sent := by rw [sent, h.sent, List.append_assoc, line, List.map_append, List.append_assoc]
  answers := by rw [answers, h.answers, List.map_append]
  ledger := by rw [ledger, h.ledger, List.flatMap_append]
  rows := by rw [rows, h.rows, ledger, List.map_append, List.append_assoc]
  tidy := tidy

theorem Right.same (h : Right view before finished b) :
    ∃ more, Right view before (finished ++ more) b := ⟨[], by rwa [List.append_nil]⟩

theorem Right.numbered_snoc (h : Right view before finished b) {request : AppendRequest}
    (ht : request.ticket = b.sent.length) :
    (b.sent ++ [request]).map (·.ticket) = List.range (b.sent ++ [request]).length := by
  rw [List.map_append, h.numbered, List.length_append, List.length_singleton, List.range_succ,
    List.map_singleton, ht]

theorem Right.send (h : Right view before finished b) (sample : HealthSample)
    (metrics : Option MetricsSnapshot) :
    ∃ more, Right view before (finished ++ more) (b.send sample metrics) := by
  cases hs : b.writer.stopped with
  | true =>
    -- A writer that has stopped answers at once.
    have hwriter : (b.send sample metrics).writer =
        b.writer.answer b.sent.length (.error Writer.gone) := if_pos hs
    refine ⟨[(⟨b.sent.length, sample, metrics⟩, .error Writer.gone)],
      h.grow [⟨b.sent.length, sample, metrics⟩] _ (h.numbered_snoc rfl) rfl ?_ ?_ ?_ ?_ ?_⟩
    · have hline : (b.send sample metrics).writer.line = [] := hwriter ▸ h.tidy hs
      rw [h.tidy hs, hline]
      rfl
    · rw [hwriter]
      rfl
    · exact (List.append_nil _).symm
    · exact (List.append_nil _).symm
    · rw [hwriter]
      exact h.tidy
  | false =>
    have hwriter : (b.send sample metrics).writer =
        { b.writer with pending := b.writer.pending ++ [⟨b.sent.length, sample, metrics⟩] } :=
      if_neg (by rw [hs]; exact Bool.false_ne_true)
    refine ⟨[], h.grow [⟨b.sent.length, sample, metrics⟩] [] (h.numbered_snoc rfl) rfl ?_ ?_ ?_ ?_ ?_⟩
    · rw [hwriter]
      exact List.append_assoc ..
    · rw [hwriter]
      exact (List.append_nil _).symm
    · exact (List.append_nil _).symm
    · exact (List.append_nil _).symm
    · rw [hwriter]
      exact fun hstop => absurd (hs.symm.trans hstop) Bool.false_ne_true

theorem work_ledger {b : Books σ ρ} {gained : List ρ}
    (h : view.rows (b.work view).store = view.rows b.store ++ gained) :
    (b.work view).ledger =
      b.ledger ++ b.writer.line.head?.toList.flatMap fun r => gained.map fun x => (r.ticket, x) := by
  have hdrop : (view.rows (b.work view).store).drop (view.rows b.store).length = gained := by
    rw [h, List.drop_left]
  rw [← hdrop]
  rfl

theorem Right.work (h : Right view before finished b) :
    ∃ more, Right view before (finished ++ more) (b.work view) := by
  have hstand : Writer.SameStanding b.writer (b.work view).writer :=
    Writer.work_standing b.now b.writer b.store
  have hworked : b.writer.Worked b.store (b.work view).writer (b.work view).store :=
    Writer.work_worked b.now b.writer b.store
  have htidy : ∀ {request rest}, b.writer.line = request :: rest → (b.work view).writer.Tidy :=
    fun hfirst hstop => by
      rw [hstand.stopped] at hstop
      rw [h.tidy hstop] at hfirst
      cases hfirst
  -- A call in vain gains no row.
  have hnone : view.rows (b.work view).store = view.rows b.store → (b.work view).ledger = b.ledger :=
    fun hrows => by
      rw [work_ledger (hrows.trans (List.append_nil _).symm)]
      simp
  cases hworked with
  | nothing same kept =>
    refine ⟨[], h.grow [] [] h.numbered (List.append_nil _).symm ?_ ?_ ?_ ?_ ?_⟩
    · rw [same]
      exact List.append_nil _
    · rw [same]
      exact (List.append_nil _).symm
    · rw [hnone (by rw [kept])]
      exact (List.append_nil _).symm
    · rw [kept]
      exact (List.append_nil _).symm
    · rw [same]
      exact h.tidy
  | @stored request rest stored first left answered taken =>
    have hrows := view.rows_of_ok taken
    refine ⟨[(request, .ok stored)], h.grow [] _ h.numbered (List.append_nil _).symm ?_ answered ?_ hrows
      (htidy first)⟩
    · rw [first, left]
      exact List.append_nil _
    · rw [work_ledger hrows, first]
      rfl
  | @refused request rest failure first left answered vain =>
    have hrows : view.rows (b.work view).store = view.rows b.store := by
      obtain heq | ⟨e, he⟩ := vain
      · rw [heq]
      · exact view.rows_of_error he
    refine ⟨[(request, .error failure)], h.grow [] _ h.numbered (List.append_nil _).symm ?_ answered ?_ ?_
      (htidy first)⟩
    · rw [first, left]
      exact List.append_nil _
    · rw [hnone hrows]
      exact (List.append_nil _).symm
    · rw [hrows]
      exact (List.append_nil _).symm
  | @again request rest e first left answered vain =>
    have hrows := view.rows_of_error vain
    refine ⟨[], h.grow [] [] h.numbered (List.append_nil _).symm ?_ ?_ ?_ ?_ (htidy first)⟩
    · rw [first, left]
      exact List.append_nil _
    · rw [answered]
      exact (List.append_nil _).symm
    · rw [hnone hrows]
      exact (List.append_nil _).symm
    · rw [hrows]
      exact (List.append_nil _).symm

theorem flatMap_due_error (failure : Failure) (requests : List AppendRequest) :
    (requests.map fun r => (r, (.error failure : AppendAnswer))).flatMap (due view) = [] := by
  induction requests with
  | nil => rfl
  | cons r requests ih => exact ih

/-- A writer that stops answers all that wait in line, each with an error. -/
theorem Right.stop (h : Right view before finished b) :
    ∃ more, Right view before (finished ++ more) { b with writer := b.writer.stop } := by
  let lost : List (AppendRequest × AppendAnswer) :=
    (b.writer.current ++ b.writer.pending.take queueDepth).map fun r => (r, .error Writer.lost)
  let gone : List (AppendRequest × AppendAnswer) :=
    (b.writer.pending.drop queueDepth).map fun r => (r, .error Writer.gone)
  have hdue : (lost ++ gone).flatMap (due view) = [] := by
    rw [List.flatMap_append, flatMap_due_error, flatMap_due_error, List.append_nil]
  refine ⟨lost ++ gone, h.grow [] _ h.numbered (List.append_nil _).symm ?_ ?_ ?_ ?_ fun _ => rfl⟩
  · have hline : ({ b with writer := b.writer.stop } : Books σ ρ).writer.line = [] := rfl
    rw [hline]
    simp only [lost, gone, List.map_append, List.map_map, Function.comp_def, List.map_id', List.append_nil,
      List.append_assoc, List.take_append_drop, Writer.line]
  · simp only [lost, gone, Writer.stop, List.map_append, List.map_map, Function.comp_def, List.append_assoc]
  · rw [hdue]
    exact (List.append_nil _).symm
  · rw [hdue]
    exact (List.append_nil _).symm

/-- An event keeps the books right. -/
theorem Right.step (h : Right view before finished b) (e : Event) :
    ∃ more, Right view before (finished ++ more) (b.step view e) := by
  cases e with
  | send sample metrics => exact h.send sample metrics
  | work => exact h.work
  | wait nanos => exact Right.same ⟨h.numbered, h.sent, h.answers, h.ledger, h.rows, h.tidy⟩
  | kill => exact Right.same ⟨h.numbered, h.sent, h.answers, h.ledger, h.rows, h.tidy⟩
  | die =>
    simp only [Books.step]
    split
    · exact h.stop
    · exact h.same

theorem Right.run (events : List Event) : ∀ {finished : List (AppendRequest × AppendAnswer)}
    {b : Books σ ρ}, Right view before finished b →
    ∃ more, Right view before (finished ++ more) (b.run view events) := by
  induction events with
  | nil => exact fun h => h.same
  | cons e events ih =>
    intro finished b h
    obtain ⟨more, h⟩ := h.step e
    obtain ⟨later, h⟩ := ih h
    exact ⟨more ++ later, by rw [← List.append_assoc]; exact h⟩

end Books

end SwarmSampler
