import SwarmSampler.Writer.Run

/-
The writer in its least pieces of work: one call of the store, or one refusal
of a request without a call. A turn of the writer is some such pieces one after
another, so what each of them keeps a turn keeps as well. Between two of them
the writer may be killed, and requests may come in. Every piece brings the
writer nearer to having nothing to do.
-/

namespace SwarmSampler

namespace Writer

variable {σ : Type} [SampleStore σ]

/-- The requests that wait for an answer, in the order they came. -/
def line (w : Writer) : List AppendRequest := w.current ++ w.pending

/-- One call of the store for a request. -/
def tryOnce (now : Nat) (request : AppendRequest) (attempt : Nat) (w : Writer) (store : σ) :
    Writer × σ :=
  let w := { w with calls := w.calls ++ [now] }
  match SampleStore.append request.sample request.metrics store with
  | (.ok stored, store) =>
    ({ w with failures := 0, writing := .idle }.answer request.ticket (.ok stored), store)
  | (.error last, store) =>
    if attempt < w.tries then
      ({ w with writing := .retrying request (attempt + 1) (now + w.settings.retryDelay.wait) }, store)
    else ({ w with writing := .idle }.fail request last, store)

/-- A piece of the writer's work. -/
def work (now : Nat) (w : Writer) (store : σ) : Writer × σ :=
  match w.writing, w.pending with
  | .idle, [] => (w, store)
  | .idle, request :: rest =>
    let w := { w with pending := rest }
    if w.settings.failureThreshold ≤ w.failures then
      (w.answer request.ticket (.error (givenUp w.failures)), store)
    else w.tryOnce now request 1 store
  | .retrying request attempt wakeAt, _ =>
    if wakeAt ≤ now then w.tryOnce now request attempt store else (w, store)

/-- Whether there is a piece of work to do. -/
def busy (now : Nat) (w : Writer) : Bool :=
  match w.writing with
  | .idle => !w.pending.isEmpty
  | .retrying _ _ wakeAt => wakeAt ≤ now

/-- Some pieces of work at an instant, one after another. -/
inductive Works (now : Nat) : Writer × σ → Writer × σ → Prop
  | done (x : Writer × σ) : Works now x x
  | next {x y : Writer × σ} (h : Works now (x.1.work now x.2) y) : Works now x y

theorem Works.trans {now : Nat} {x y z : Writer × σ} (h : Works now x y) (h' : Works now y z) :
    Works now x z := by
  induction h with
  | done => exact h'
  | next _ ih => exact .next (ih h')

/-! ## A turn is some pieces of work -/

variable {now : Nat} {request : AppendRequest} {attempt : Nat} {w : Writer} {store : σ}

/-- A writer with another queue. -/
def withPending (w : Writer) (pending : List AppendRequest) : Writer := { w with pending := pending }

/-- An idle writer takes up its first request. -/
theorem work_of_idle (now : Nat) (store : σ) {rest : List AppendRequest} (hw : w.writing = .idle)
    (hp : w.pending = request :: rest) :
    w.work now store =
      if w.settings.failureThreshold ≤ w.failures then
        ((w.withPending rest).answer request.ticket (.error (givenUp w.failures)), store)
      else tryOnce now request 1 (w.withPending rest) store := by
  simp only [work, withPending, hw, hp]

/-- A writer whose pause is over makes its next call. -/
theorem work_of_retrying {wakeAt : Nat} (hw : w.writing = .retrying request attempt wakeAt)
    (h : wakeAt ≤ now) : w.work now store = tryOnce now request attempt w store := by
  simp only [work, hw]
  exact if_pos h

/-- The calls for a request are one call, and the pieces of work that follow without a pause. -/
theorem write_works (now : Nat) (request : AppendRequest) (attempt : Nat) (w : Writer) (store : σ) :
    Works now (tryOnce now request attempt w store) (write now request attempt w store) := by
  fun_induction write now request attempt w store with
  | case1 attempt w store w₁ stored store' heq =>
    simp only [tryOnce, heq]
    exact .done _
  | case2 attempt w store w₁ last store' heq hlt hzero ih =>
    have hwait : Span.wait w₁.settings.retryDelay = 0 := Span.wait_of_nanos_eq_zero hzero
    have htry : tryOnce now request attempt w store =
        ({ w₁ with writing := .retrying request (attempt + 1) (now + w₁.settings.retryDelay.wait) },
          store') := by
      simp only [tryOnce, heq]
      exact if_pos hlt
    rw [htry]
    refine .next ?_
    rw [work_of_retrying rfl (by rw [hwait]; exact Nat.le_refl now)]
    exact ih
  | case3 attempt w store w₁ last store' heq hlt hpause =>
    simp only [tryOnce, heq]
    rw [if_pos hlt]
    exact .done _
  | case4 attempt w store w₁ last store' heq hge =>
    simp only [tryOnce, heq]
    rw [if_neg hge]
    exact .done _

/-- What a request is answered whose last call failed. -/
def verdict (w : Writer) (request : AppendRequest) (last : Failure) : Failure :=
  if w.settings.failureThreshold ≤ w.failures + 1 then
    ⟨.storeUnavailable, (w.exhausted request last).message⟩
  else w.exhausted request last

theorem fail_eq (w : Writer) (request : AppendRequest) (last : Failure) :
    w.fail request last =
      { w with failures := w.failures + 1 }.answer request.ticket (.error (w.verdict request last)) := by
  simp only [fail, verdict]
  split <;> rfl

/-- The queue plays no part in the calls for a request. -/
theorem write_withPending (now : Nat) (request : AppendRequest) (attempt : Nat) (w : Writer)
    (store : σ) (pending : List AppendRequest) :
    write now request attempt (w.withPending pending) store =
      ((write now request attempt w store).1.withPending pending,
        (write now request attempt w store).2) := by
  fun_induction write now request attempt w store with
  | case1 attempt w store w₁ stored store' heq =>
    rw [write]
    simp only [heq]
    rfl
  | case2 attempt w store w₁ last store' heq hlt hzero ih =>
    rw [write]
    simp only [heq]
    exact (if_pos hlt).trans ((if_pos hzero).trans ih)
  | case3 attempt w store w₁ last store' heq hlt hpause =>
    rw [write]
    simp only [heq]
    exact (if_pos hlt).trans (if_neg hpause)
  | case4 attempt w store w₁ last store' heq hge =>
    rw [write]
    simp only [heq]
    refine (if_neg hge).trans ?_
    rw [fail_eq, fail_eq]
    rfl

/-- Handling the first request in the queue starts with a piece of work. -/
theorem handle_works (now : Nat) (hw : w.writing = .idle) (request : AppendRequest)
    (rest : List AppendRequest) (store : σ) :
    Works now (work now (w.withPending (request :: rest)) store)
      ((handle now request w store).1.withPending rest, (handle now request w store).2) := by
  have hwork : work now (w.withPending (request :: rest)) store =
      if w.settings.failureThreshold ≤ w.failures then
        ((w.withPending rest).answer request.ticket (.error (givenUp w.failures)), store)
      else tryOnce now request 1 (w.withPending rest) store := work_of_idle now store hw rfl
  rw [hwork, handle]
  by_cases hgive : w.settings.failureThreshold ≤ w.failures
  · rw [if_pos hgive, if_pos hgive]
    exact .done _
  · rw [if_neg hgive, if_neg hgive]
    have h := write_works now request 1 (w.withPending rest) store
    rw [write_withPending] at h
    exact h

theorem drain_cons (now : Nat) (request : AppendRequest) (rest : List AppendRequest) (w : Writer)
    (store : σ) :
    drain now (request :: rest) w store =
      match (handle now request w store).1.writing with
      | .idle => drain now rest (handle now request w store).1 (handle now request w store).2
      | .retrying _ _ _ =>
        ((handle now request w store).1.withPending rest, (handle now request w store).2) := rfl

theorem drain_works (now : Nat) (queue : List AppendRequest) : ∀ {w : Writer} {store : σ},
    w.writing = .idle → Works now (w.withPending queue, store) (drain now queue w store) := by
  induction queue with
  | nil => exact fun _ => .done _
  | cons request rest ih =>
    intro w store hw
    refine .next ((handle_works now hw request rest store).trans ?_)
    rw [drain_cons]
    split
    · next h => exact ih h
    · exact .done _

/-- A writer with something to do begins with a piece of work and goes on with others. -/
theorem goOn_works (h : w.busy now) : Works now (w.work now store) (w.goOn now store) := by
  unfold busy at h
  split at h
  · next hw =>
    cases hp : w.pending with
    | nil => simp only [hp, List.isEmpty_nil, Bool.not_true, Bool.false_eq_true] at h
    | cons request rest =>
      have hgo : w.goOn now store = drain now (request :: rest) w store := by
        simp only [goOn, hw, hp]
      have hself : w.withPending (request :: rest) = w := by rw [← hp]; rfl
      have hwork := handle_works now hw request rest store
      rw [hself] at hwork
      rw [hgo, drain_cons]
      refine hwork.trans ?_
      split
      · next h => exact drain_works now rest h
      · exact .done _
  · next request attempt wakeAt hw =>
    rw [work_of_retrying hw (of_decide_eq_true h)]
    refine (write_works now request attempt w store).trans ?_
    simp only [goOn, hw]
    rw [if_pos (of_decide_eq_true h)]
    split
    · next h =>
      exact drain_works now _ h
    · exact .done _

theorem goOn_of_not_busy (h : w.busy now = false) : w.goOn now store = (w, store) := by
  unfold busy at h
  split at h
  · next hw =>
    have hp : w.pending = [] := by simpa using h
    have hself : w.withPending [] = w := by rw [← hp]; rfl
    unfold goOn
    split
    · rw [hp]
      exact congrArg (·, store) hself
    · next hw' => cases hw.symm.trans hw'
  · next hw =>
    simp only [goOn, hw]
    exact if_neg (of_decide_eq_false h)

/-! ## What a piece of work does -/

/-- A piece of work does nothing, or it answers the first request in line, whose sample the store
took if the answer says so, or it calls the store in vain. -/
inductive Worked (w : Writer) (store : σ) (w' : Writer) (store' : σ) : Prop
  | nothing (same : w' = w) (kept : store' = store)
  | stored {request : AppendRequest} {rest : List AppendRequest} {stored : HealthSample}
      (first : w.line = request :: rest) (left : w'.line = rest)
      (answered : w'.answers = w.answers ++ [(request.ticket, .ok stored)])
      (taken : SampleStore.append request.sample request.metrics store = (.ok stored, store'))
  | refused {request : AppendRequest} {rest : List AppendRequest} {failure : Failure}
      (first : w.line = request :: rest) (left : w'.line = rest)
      (answered : w'.answers = w.answers ++ [(request.ticket, .error failure)])
      (vain : store' = store ∨
        ∃ e, SampleStore.append request.sample request.metrics store = (.error e, store'))
  | again {request : AppendRequest} {rest : List AppendRequest} {e : Failure}
      (first : w.line = request :: rest) (left : w'.line = request :: rest)
      (answered : w'.answers = w.answers)
      (vain : SampleStore.append request.sample request.metrics store = (.error e, store'))

theorem tryOnce_worked {v : Writer} {rest : List AppendRequest} (hline : v.line = request :: rest)
    (hrest : w.pending = rest) (hanswers : w.answers = v.answers) :
    Worked v store (tryOnce now request attempt w store).1 (tryOnce now request attempt w store).2 := by
  unfold tryOnce
  split
  · next stored store' heq =>
    exact .stored hline hrest (congrArg (· ++ _) hanswers) heq
  · next last store' heq =>
    dsimp only
    split
    · exact .again hline (congrArg (request :: ·) hrest) hanswers heq
    · rw [fail_eq]
      exact .refused hline hrest (congrArg (· ++ _) hanswers) (.inr ⟨last, heq⟩)

theorem work_worked (now : Nat) (w : Writer) (store : σ) :
    Worked w store (w.work now store).1 (w.work now store).2 := by
  unfold work
  split
  · exact .nothing rfl rfl
  · next request rest hw hp =>
    have hline : w.line = request :: rest := by simp only [line, current, hw, hp, List.nil_append]
    simp only []
    split
    · refine .refused hline ?_ rfl (.inl rfl)
      simp only [line, current, answer, hw, List.nil_append]
    · exact tryOnce_worked hline rfl rfl
  · next request attempt wakeAt hw =>
    have hline : w.line = request :: w.pending := by
      simp only [line, current, hw, List.singleton_append]
    split
    · exact tryOnce_worked hline rfl rfl
    · exact .nothing rfl rfl

end Writer

end SwarmSampler
