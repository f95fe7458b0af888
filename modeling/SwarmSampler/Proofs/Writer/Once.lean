import SwarmSampler.Proofs.Writer.Books

/-
Every request that is handed to the writer is answered once, and a row is
stored for it just when the answer is no error. The writer's own turns are
events of the books, one after another, so what the books say of any course of
events they say of the writer as it runs, and it runs until no request waits.
-/

namespace SwarmSampler.Books

variable {σ ρ : Type} [SampleStore σ] {view : RowView σ ρ} {before : List ρ} {b : Books σ ρ}
  {finished : List (AppendRequest × AppendAnswer)}

/-! ## The writer's own turns -/

/-- Some events, of which none sends anything, lead to a writer and a store at an instant. -/
def Leads (view : RowView σ ρ) (b : Books σ ρ) (r : WriterRun σ) : Prop :=
  ∃ events, (b.run view events).toWriterRun = r ∧ (b.run view events).sent = b.sent

theorem run_append (events later : List Event) :
    b.run view (events ++ later) = (b.run view events).run view later := List.foldl_append

theorem Leads.refl : Leads view b b.toWriterRun := ⟨[], rfl, rfl⟩

theorem Leads.after {r : WriterRun σ} (events : List Event) (hsent : (b.run view events).sent = b.sent)
    (h : Leads view (b.run view events) r) : Leads view b r := by
  obtain ⟨later, hr, hs⟩ := h
  exact ⟨events ++ later, by rw [run_append, hr], by rw [run_append, hs, hsent]⟩

theorem leads_of_works {x y : Writer × σ} (h : Writer.Works b.now x y) (hx : x = (b.writer, b.store)) :
    Leads view b ⟨b.now, y.1, y.2⟩ := by
  generalize hnow : b.now = now at h
  induction h generalizing b with
  | done x =>
    subst hx hnow
    exact .refl
  | next _ ih =>
    subst hx hnow
    exact .after [.work] rfl (ih rfl rfl)

theorem leads_turn (view : RowView σ ρ) (b : Books σ ρ) : Leads view b b.toWriterRun.turn := by
  cases hs : b.writer.stopped with
  | true =>
    have hturn : b.toWriterRun.turn = b.toWriterRun := by
      simp only [WriterRun.turn, Writer.resume, hs, ↓reduceIte]
    rw [hturn]
    exact .refl
  | false =>
    cases hk : b.writer.killed with
    | true =>
      rw [WriterRun.turn_of_killed hs hk]
      have hdie : b.run view [.die] = { b with writer := b.writer.stop } := if_pos hk
      exact ⟨[.die], by rw [hdie], by rw [hdie]⟩
    | false =>
      rw [WriterRun.turn_of_alive hs hk]
      cases hb : b.writer.busy b.now with
      | true => exact leads_of_works (.next (Writer.goOn_works hb)) rfl
      | false =>
        rw [Writer.goOn_of_not_busy hb]
        exact .refl

/-- A writer that pauses is not there yet. -/
theorem lt_of_due {w : Writer} {now instant : Nat} (ht : w.Tidy) (ha : w.awake now = false)
    (hd : w.due? = some instant) : now < instant := by
  unfold Writer.due? at hd
  split at hd
  · cases hd
  · next hw =>
    cases hd
    have hs : w.stopped = false := by
      refine Bool.eq_false_iff.2 fun hs => ?_
      cases (Writer.line_eq_nil_iff.1 (ht hs)).1.symm.trans hw
    simp only [Writer.awake, hs, hw, Bool.not_false, Bool.true_and, Bool.or_eq_false_iff,
      decide_eq_false_iff_not] at ha
    exact Nat.lt_of_not_le ha.2

theorem leads_advance (fuel : Nat) : ∀ {finished : List (AppendRequest × AppendAnswer)} {b : Books σ ρ},
    Right view before finished b → Leads view b (b.toWriterRun.advance none fuel) := by
  induction fuel with
  | zero => exact fun _ => .refl
  | succ fuel ih =>
    intro finished b h
    cases ha : b.writer.awake b.now with
    | true =>
      obtain ⟨events, hturn, hsent⟩ := leads_turn view b
      obtain ⟨more, h'⟩ := h.run events
      rw [WriterRun.advance_of_awake ha, ← hturn]
      exact .after events hsent (ih h')
    | false =>
      cases hd : b.writer.due? with
      | none =>
        rw [WriterRun.advance_of_resting ha hd]
        exact .refl
      | some instant =>
        have hlt := lt_of_due h.tidy ha hd
        have hwait : (b.run view [.wait (instant - b.now)]).toWriterRun =
            { b.toWriterRun with now := instant } := by
          show WriterRun.mk (b.now + (instant - b.now)) b.writer b.store = _
          rw [Nat.add_sub_cancel' (Nat.le_of_lt hlt)]
        obtain ⟨more, h'⟩ := h.run [.wait (instant - b.now)]
        rw [WriterRun.advance_of_pausing ha hd, ← hwait]
        exact .after [.wait (instant - b.now)] rfl (ih h')

/-! ## What right books say -/

/-- What has become of a request: it waits, or it has one answer and, just when that is no error,
one row. -/
inductive Fate (view : RowView σ ρ) (b : Books σ ρ) (r : AppendRequest) : Prop
  | waiting (answers : b.answersTo r = []) (rows : b.rowsFor r = [])
  | stored (stored : HealthSample) (answers : b.answersTo r = [.ok stored])
      (rows : b.rowsFor r = [view.row r.sample r.metrics stored])
  | refused (failure : Failure) (answers : b.answersTo r = [.error failure]) (rows : b.rowsFor r = [])

/-- The requests sent, the answers given and the rows stored agree. -/
structure Faithful (view : RowView σ ρ) (before : List ρ) (b : Books σ ρ) : Prop where
  numbered : b.sent.map (·.ticket) = List.range b.sent.length
  fates : ∀ r ∈ b.sent, Fate view b r
  /-- Requests are answered in the order they were sent. -/
  answered : b.writer.answers.map (·.1) <+: b.sent.map (·.ticket)
  /-- Rows are stored in the order their requests were sent. -/
  stored : (b.ledger.map (·.1)).Sublist (b.sent.map (·.ticket))
  rows : view.rows b.store = before ++ b.ledger.map (·.2)

section Keys

variable {δ α : Type} {key : δ → Nat} {f : δ → List (Nat × α)} {l : List δ}

/-- Of lists joined whose entries have their lists' keys, none has another key. -/
theorem filter_flatMap_eq_nil (hf : ∀ d, ∀ x ∈ f d, x.1 = key d) {k : Nat} (hk : k ∉ l.map key) :
    (l.flatMap f).filter (·.1 = k) = [] := by
  refine List.filter_eq_nil_iff.2 fun x hx => ?_
  obtain ⟨d, hd, hx⟩ := List.mem_flatMap.1 hx
  rw [decide_eq_true_eq]
  rintro rfl
  exact hk (hf d x hx ▸ List.mem_map_of_mem hd)

/-- Of lists joined whose entries have their lists' keys, those of a key are the list of that key. -/
theorem filter_flatMap_of_mem (hf : ∀ d, ∀ x ∈ f d, x.1 = key d) (hnd : (l.map key).Nodup) {d : δ}
    (hd : d ∈ l) : (l.flatMap f).filter (·.1 = key d) = f d := by
  obtain ⟨l₁, l₂, rfl⟩ := List.append_of_mem hd
  simp only [List.map_append, List.map_cons, List.nodup_append, List.nodup_cons] at hnd
  obtain ⟨-, ⟨h₂, -⟩, hdis⟩ := hnd
  have h₁ : key d ∉ l₁.map key := fun h => hdis _ h _ (.head _) rfl
  have hself : (f d).filter (·.1 = key d) = f d :=
    List.filter_eq_self.2 fun x hx => decide_eq_true (hf d x hx)
  rw [List.flatMap_append, List.flatMap_cons, List.filter_append, List.filter_append,
    filter_flatMap_eq_nil hf h₁, filter_flatMap_eq_nil hf h₂, hself, List.nil_append, List.append_nil]

end Keys

theorem due_ticket (d : AppendRequest × AppendAnswer) : ∀ x ∈ due view d, x.1 = d.1.ticket := by
  unfold due
  split
  · intro x hx
    rw [List.mem_singleton.1 hx]
  · exact nofun

theorem flatMap_due_sublist (finished : List (AppendRequest × AppendAnswer)) :
    ((finished.flatMap (due view)).map (·.1)).Sublist (finished.map fun d => d.1.ticket) := by
  induction finished with
  | nil => exact .slnil
  | cons d finished ih =>
    rw [List.flatMap_cons, List.map_append, List.map_cons]
    unfold due
    split
    · exact ih.cons_cons _
    · exact ih.cons _

/-- The tickets of the requests done with and of those in line are all different. -/
theorem Right.tickets_nodup (h : Right view before finished b) :
    (finished.map fun d => d.1.ticket).Nodup ∧
      ∀ r ∈ b.writer.line, r.ticket ∉ finished.map fun d => d.1.ticket := by
  have hnd : (b.sent.map (·.ticket)).Nodup := h.numbered ▸ List.nodup_range
  rw [h.sent, List.map_append, List.map_map, List.nodup_append] at hnd
  exact ⟨hnd.1, fun r hr hm => hnd.2.2 _ hm _ (List.mem_map_of_mem hr) rfl⟩

theorem Right.answersTo_eq (h : Right view before finished b) (r : AppendRequest) :
    b.answersTo r =
      ((finished.flatMap fun d => [(d.1.ticket, d.2)]).filter (·.1 = r.ticket)).map (·.2) :=
  congrArg (fun l => (l.filter (·.1 = r.ticket)).map (·.2)) (h.answers.trans List.map_eq_flatMap)

theorem Right.rowsFor_eq (h : Right view before finished b) (r : AppendRequest) :
    b.rowsFor r = ((finished.flatMap (due view)).filter (·.1 = r.ticket)).map (·.2) := by
  rw [rowsFor, h.ledger]

theorem Right.fate (h : Right view before finished b) {r : AppendRequest} (hr : r ∈ b.sent) :
    Fate view b r := by
  obtain ⟨hnd, hline⟩ := h.tickets_nodup
  have hkey : ∀ d : AppendRequest × AppendAnswer, ∀ x ∈ [(d.1.ticket, d.2)], x.1 = d.1.ticket :=
    fun d x hx => by rw [List.mem_singleton.1 hx]
  rw [h.sent] at hr
  rcases List.mem_append.1 hr with hr | hr
  · obtain ⟨d, hd, rfl⟩ := List.mem_map.1 hr
    have hanswers : b.answersTo d.1 = [d.2] := by
      rw [h.answersTo_eq, filter_flatMap_of_mem hkey hnd hd]
      rfl
    have hrows : b.rowsFor d.1 = (due view d).map (·.2) := by
      rw [h.rowsFor_eq, filter_flatMap_of_mem due_ticket hnd hd]
    obtain ⟨r, stored | failure⟩ := d
    · exact .refused _ hanswers hrows
    · exact .stored _ hanswers hrows
  · refine .waiting ?_ ?_
    · rw [h.answersTo_eq, filter_flatMap_eq_nil hkey (hline r hr)]
      rfl
    · rw [h.rowsFor_eq, filter_flatMap_eq_nil due_ticket (hline r hr)]
      rfl

theorem Right.faithful (h : Right view before finished b) : Faithful view before b where
  numbered := h.numbered
  fates _ hr := h.fate hr
  answered := by
    rw [h.answers, h.sent, List.map_map, List.map_append, List.map_map]
    exact List.prefix_append ..
  stored := by
    rw [h.ledger, h.sent, List.map_append, List.map_map]
    exact (flatMap_due_sublist finished).trans (List.sublist_append_left ..)
  rows := h.rows

/-- Once no request waits, each has its one answer. -/
theorem Right.answered_of_line (h : Right view before finished b) (hline : b.writer.line = [])
    {r : AppendRequest} (hr : r ∈ b.sent) :
    ∃ a, b.answersTo r = [a] ∧ ((∃ stored, a = .ok stored) ↔ ∃ x, b.rowsFor r = [x]) ∧
      ((∃ failure, a = .error failure) ↔ b.rowsFor r = []) := by
  have hnot : b.answersTo r ≠ [] := by
    rw [h.sent, hline, List.append_nil] at hr
    obtain ⟨d, hd, rfl⟩ := List.mem_map.1 hr
    rw [answersTo, h.answers]
    refine fun hnil => ?_
    have hm : (d.1.ticket, d.2) ∈ (finished.map fun d => (d.1.ticket, d.2)).filter (·.1 = d.1.ticket) :=
      List.mem_filter.2 ⟨List.mem_map_of_mem hd, decide_eq_true rfl⟩
    rw [List.map_eq_nil_iff.1 hnil] at hm
    cases hm
  cases h.fate hr with
  | waiting answers rows => exact absurd answers hnot
  | stored stored answers rows => exact ⟨_, answers, by simp [rows], by simp [rows]⟩
  | refused failure answers rows => exact ⟨_, answers, by simp [rows], by simp [rows]⟩

/-- **Each request is answered once, and has one row just when the answer is no error.** Whatever
requests are sent to a new writer, however its store fails and whenever it is killed, the books are
faithful; and the writer's own way on from there leads to books in which no request waits. -/
theorem exactly_once (view : RowView σ ρ) (settings : WriterSettings) (store : σ)
    (events : List Event) :
    let b := (opened settings store).run view events
    Faithful view (view.rows store) b ∧
      ∃ later, let e := b.run view later
        e.toWriterRun = b.toWriterRun.settle ∧ e.sent = b.sent ∧ Faithful view (view.rows store) e ∧
          ∀ r ∈ e.sent, ∃ a, e.answersTo r = [a] ∧
            ((∃ stored, a = .ok stored) ↔ ∃ x, e.rowsFor r = [x]) ∧
            ((∃ failure, a = .error failure) ↔ e.rowsFor r = []) := by
  intro b
  obtain ⟨finished, h⟩ := (right_opened view settings store).run events
  obtain ⟨later, hsettle, hsent⟩ := leads_advance (WriterRun.steps b.writer) h
  obtain ⟨more, he⟩ := h.run later
  have hline : (b.run view later).writer.line = [] := by
    rw [hsettle]
    exact WriterRun.settle_line h.tidy
  exact ⟨h.faithful, later, hsettle, hsent, he.faithful, fun r hr => he.answered_of_line hline hr⟩

/-- The first call fails and a kill comes in while the writer pauses: the request in hand is stored,
and the one behind it is lost. -/
example (s : HealthSample) :
    let store : FaultyStore := ⟨⟨[1], none, false, false⟩, 0, []⟩
    let b := (opened ⟨2, .zero, 3⟩ store).run FaultyStore.rowView
      [.send s none, .send s none, .work, .kill, .work, .die]
    b.ledger = [(0, s)] ∧ b.writer.answers = [(0, .ok s), (1, .error Writer.lost)] := ⟨rfl, rfl⟩

end SwarmSampler.Books
