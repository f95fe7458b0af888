import SwarmSampler.Proofs.Writer.Handling

/-
A writer that nobody kills, in the course of time. Whatever is sent to it and
however its store answers, an account can be given of all it has done: what a
piece of work keeps of the account a whole run keeps, and left alone the writer
goes on until every request is settled. When as many requests in a row have
failed as the writer puts up with, it does not call the store again.
-/

namespace SwarmSampler

/-- A writer with its store at an instant, and what has come in and gone out: the requests, each with the
instant it came, and the instants of the answers. -/
structure Service (σ : Type) extends WriterRun σ where
  sent : List (Nat × AppendRequest)
  answered : List Nat

namespace Service

variable {σ : Type} [SampleStore σ]

/-- What may happen around a writer. -/
inductive Event
  /-- A sample is handed in. -/
  | send (sample : HealthSample) (metrics : Option MetricsSnapshot)
  /-- The writer does a piece of its work. -/
  | work
  /-- Some time passes. -/
  | pass (nanos : Nat)

/-- A new writer in front of a store. -/
def opened (settings : WriterSettings) (store : σ) : Service σ := ⟨⟨0, .start settings, store⟩, [], []⟩

/-- Hands in a sample, whose ticket is the number of those before it. -/
def send (s : Service σ) (sample : HealthSample) (metrics : Option MetricsSnapshot) : Service σ :=
  let request := ⟨s.sent.length, sample, metrics⟩
  { s with writer := s.writer.send request, sent := s.sent ++ [(s.now, request)] }

def work (s : Service σ) : Service σ :=
  let (writer, store) := s.writer.work s.now s.store
  { s with
    writer := writer
    store := store
    answered := s.answered ++ List.replicate (writer.answers.length - s.writer.answers.length) s.now }

/-- Lets some time pass: none while there is a piece of work to do, and none beyond the instant the writer
waits for. -/
def pass (s : Service σ) (nanos : Nat) : Service σ :=
  if s.writer.busy s.now then s
  else { s with now := s.writer.due?.elim (s.now + nanos) (min (s.now + nanos)) }

/-- What an event makes of it all. -/
def step (s : Service σ) : Event → Service σ
  | .send sample metrics => s.send sample metrics
  | .work => s.work
  | .pass nanos => s.pass nanos

/-- What some events make of it all, one after another. -/
def run (s : Service σ) (events : List Event) : Service σ := events.foldl step s

/-! ## The invariant -/

/-- What the writer is about to do, where it has some requests done with, one in hand or none, and some
waiting. It has taken up no request: then it takes up the first one now. Or it pauses between two calls:
then all calls so far have failed, and more are to be made. -/
inductive Poised (settings : WriterSettings) (done : List Handled) (waiting : List (Nat × AppendRequest))
    (now : Nat) : Writing → Option Handling → Prop
  | idle (free : freeAt settings.retryDelay.wait (begun done none) ≤ now)
      (first : ∀ x ∈ waiting.head?, now = max x.1 (freeAt settings.retryDelay.wait (begun done none))) :
      Poised settings done waiting now .idle none
  | pausing {h : Handling} {failures : List Failure} (results : h.results = failures.map .error)
      (called : failures ≠ []) (few : failures.length < max 1 settings.writeAttempts.toNat)
      (trusted : streak done < settings.failureThreshold.toNat)
      (due : now ≤ h.began + failures.length * settings.retryDelay.wait) :
      Poised settings done waiting now
        (.retrying h.request (failures.length + 1) (h.began + failures.length * settings.retryDelay.wait))
        (some h)

/-- All is as the account says. -/
structure Right (settings : WriterSettings) (first : σ) (done : List Handled) (hand : Option Handling)
    (waiting : List (Nat × AppendRequest)) (s : Service σ) : Prop where
  account : Account settings first done hand waiting s.sent s.answered s.writer s.store
  kept : s.writer.settings = settings
  killed : s.writer.killed = false
  stopped : s.writer.stopped = false
  arrived : ∀ x ∈ waiting, x.1 ≤ s.now
  poised : Poised settings done waiting s.now s.writer.writing hand

variable {settings : WriterSettings} {first store : σ} {done : List Handled} {hand : Option Handling}
  {waiting sent : List (Nat × AppendRequest)} {answered : List Nat} {w : Writer} {h : Handling} {now : Nat}
  {s : Service σ}

theorem right_opened (settings : WriterSettings) (store : σ) :
    Right settings store [] none [] (opened settings store) where
  account := account_start settings store
  kept := rfl
  killed := rfl
  stopped := rfl
  arrived _ hx := absurd hx List.not_mem_nil
  poised := .idle (Nat.le_refl 0) fun _ hx => absurd hx (Option.not_mem_none _)

theorem Poised.send {writing : Writing} (hp : Poised settings done waiting now writing hand)
    (request : AppendRequest) : Poised settings done (waiting ++ [(now, request)]) now writing hand := by
  cases hp with
  | idle free hfirst =>
    refine .idle free fun x hx => ?_
    cases waiting with
    | nil =>
      cases hx
      exact (Nat.max_eq_left free).symm
    | cons y rest => exact hfirst x hx
  | pausing results called few trusted due => exact .pausing results called few trusted due

theorem Right.send (hr : Right settings first done hand waiting s) (sample : HealthSample)
    (metrics : Option MetricsSnapshot) :
    Right settings first done hand (waiting ++ [(s.now, ⟨s.sent.length, sample, metrics⟩)])
      (s.send sample metrics) := by
  have hsend : s.send sample metrics =
      { s with
        writer := { s.writer with pending := s.writer.pending ++ [⟨s.sent.length, sample, metrics⟩] }
        sent := s.sent ++ [(s.now, ⟨s.sent.length, sample, metrics⟩)] } := by
    simp only [Service.send, Writer.send, hr.stopped, Bool.false_eq_true, ↓reduceIte]
  rw [hsend]
  exact
    { account := hr.account.send _ _ rfl rfl rfl rfl
      kept := hr.kept
      killed := hr.killed
      stopped := hr.stopped
      arrived := fun x hx => by
        rcases List.mem_append.1 hx with hx | hx
        · exact hr.arrived x hx
        · exact Nat.le_of_eq (congrArg Prod.fst (List.mem_singleton.1 hx))
      poised := hr.poised.send _ }

/-! ## A piece of work -/

/-- Once a request is answered, the next one is taken up. -/
theorem poised_answered (done : List Handled) (a : AppendAnswer) (hended : h.ended settings.retryDelay.wait = now)
    (arrived : ∀ x ∈ waiting, x.1 ≤ now) : Poised settings (done ++ [(h, a)]) waiting now .idle none := by
  have hfree : freeAt settings.retryDelay.wait (begun (done ++ [(h, a)]) none) = now := by
    rw [freeAt_concat, hended]
  refine .idle (Nat.le_of_eq hfree) fun x hx => ?_
  rw [hfree]
  exact (Nat.max_eq_right (arrived x (List.mem_of_mem_head? hx))).symm

theorem replicate_answer (w : Writer) (ticket now : Nat) (a : AppendAnswer) :
    List.replicate ((w.answer ticket a).answers.length - w.answers.length) now = [now] := by
  simp only [Writer.answer, List.length_append, List.length_singleton, Nat.add_sub_cancel_left,
    List.replicate_one]

/-- A call that fails is followed by a pause if there are calls left. -/
theorem poised_pausing {failures : List Failure} (last : Failure) (results : h.results = failures.map .error)
    (more : failures.length + 1 < max 1 settings.writeAttempts.toNat)
    (trusted : streak done < settings.failureThreshold.toNat)
    (hnow : now = h.began + failures.length * settings.retryDelay.wait) :
    Poised settings done waiting now
      (.retrying h.request (failures.length + 1 + 1) (now + settings.retryDelay.wait))
      (some (h.record (.error last))) := by
  have hlength : (failures ++ [last]).length = failures.length + 1 := by
    rw [List.length_append, List.length_singleton]
  have hresults : (h.record (.error last)).results = (failures ++ [last]).map .error := by
    rw [Handling.record, results, List.map_append, List.map_singleton]
  have hwake : now + settings.retryDelay.wait = h.began + (failures ++ [last]).length * settings.retryDelay.wait := by
    rw [hnow, hlength, Nat.succ_mul, Nat.add_assoc]
  have hpausing : Poised settings done waiting now _ _ :=
    .pausing hresults (List.concat_ne_nil _ _) (hlength ▸ more) trusted (hwake ▸ Nat.le_add_right now _)
  exact hwake ▸ hlength ▸ hpausing

/-- The failures in a row are counted without overflow. -/
theorem toNat_failures_succ (hcount : w.failures.toNat = streak done)
    (trusted : streak done < w.settings.failureThreshold.toNat) : (w.failures + 1).toNat = streak done + 1 := by
  have := w.settings.failureThreshold.toNat_lt
  rw [UInt32.toNat_add, hcount]
  exact Nat.mod_eq_of_lt (Nat.lt_of_le_of_lt trusted this)

/-- The verdict on a request whose calls have all failed. -/
theorem verdict_settled {request : AppendRequest} {failures : List Failure} (last : Failure)
    (hcount : w.failures.toNat = streak done) (trusted : streak done < w.settings.failureThreshold.toNat)
    (all : failures.length + 1 = max 1 w.settings.writeAttempts.toNat) :
    Settled w.settings (streak done) request (failures.map .error ++ [.error last])
      (.error (w.verdict request last)) := by
  unfold Writer.verdict
  split
  · next hreached =>
    rw [UInt32.le_iff_toNat_le, toNat_failures_succ hcount trusted] at hreached
    exact .fatal (Nat.le_antisymm trusted hreached) all
  · next hbelow =>
    rw [UInt32.le_iff_toNat_le, toNat_failures_succ hcount trusted] at hbelow
    exact .failed (Nat.lt_of_not_le hbelow) all

/-- **A call settles the request in hand or is followed by a pause.** -/
theorem tryOnce_account (failures : List Failure)
    (ha : Account settings first done (some h) waiting sent answered w store) (kept : w.settings = settings)
    (results : h.results = failures.map .error) (few : failures.length < w.tries)
    (trusted : streak done < settings.failureThreshold.toNat)
    (hnow : now = h.began + failures.length * settings.retryDelay.wait) (arrived : ∀ x ∈ waiting, x.1 ≤ now) :
    let x := Writer.tryOnce now h.request (failures.length + 1) w store
    ∃ done' hand', Account settings first done' hand' waiting sent
        (answered ++ List.replicate (x.1.answers.length - w.answers.length) now) x.1 x.2 ∧
      Poised settings done' waiting now x.1.writing hand' := by
  obtain rfl := kept
  have hnow' : now = h.began + h.results.length * w.settings.retryDelay.wait := by
    rw [results, List.length_map, hnow]
  have hended (a : AppendAnswer) : (h.record a).ended w.settings.retryDelay.wait = now := by
    rw [Handling.ended_record, hnow']
  have hrecord (a : AppendAnswer) : (h.record a).results = failures.map .error ++ [a] := by
    rw [Handling.record, results]
  dsimp only
  unfold Writer.tryOnce
  split
  · next stored next happend =>
    have hcalled := ha.call { w with calls := w.calls ++ [now] } hnow' happend rfl rfl rfl rfl
    have hanswered := hcalled.answer
      ({ w with calls := w.calls ++ [now], failures := 0, writing := .idle }.answer h.request.ticket (.ok stored))
      (hrecord _ ▸ .stored trusted few) rfl rfl rfl rfl
    rw [hended] at hanswered
    refine ⟨done ++ [(h.record (.ok stored), .ok stored)], none, ?_, poised_answered done _ (hended _) arrived⟩
    exact (replicate_answer w h.request.ticket now (.ok stored)).symm ▸ hanswered
  · next last next happend =>
    dsimp only
    split
    · next more =>
      refine ⟨done, some (h.record (.error last)), ?_, poised_pausing last results more trusted hnow⟩
      rw [Nat.sub_self, List.replicate_zero, List.append_nil]
      exact ha.call _ hnow' happend rfl rfl rfl rfl
    · next hlast =>
      have all : failures.length + 1 = max 1 w.settings.writeAttempts.toNat :=
        Nat.le_antisymm few (Nat.le_of_not_lt hlast)
      have hfailed : (w.failures + 1).toNat =
          failuresAfter w.failures.toNat (h.record (.error last), .error (w.verdict h.request last)) := by
        rw [toNat_failures_succ ha.failures trusted, failuresAfter, hrecord, if_neg (List.concat_ne_nil _ _),
          ha.failures]
      have hcalled := ha.call { w with calls := w.calls ++ [now] } hnow' happend rfl rfl rfl rfl
      have hanswered := hcalled.answer
        ({ w with calls := w.calls ++ [now], failures := w.failures + 1, writing := .idle }.answer
          h.request.ticket (.error (w.verdict h.request last)))
        (hrecord _ ▸ verdict_settled last ha.failures trusted all) rfl rfl rfl hfailed
      rw [hended] at hanswered
      rw [Writer.fail_eq]
      refine ⟨done ++ [(h.record (.error last), .error (w.verdict h.request last))], none, ?_,
        poised_answered done _ (hended _) arrived⟩
      exact (replicate_answer w h.request.ticket now _).symm ▸ hanswered

theorem work_of_resting (hb : s.writer.busy s.now = false) : s.work = s := by
  unfold Service.work
  rw [Writer.work_of_not_busy hb]
  dsimp only
  rw [Nat.sub_self, List.replicate_zero, List.append_nil]

/-- What the account says after a piece of work, all is as it says. -/
theorem Right.worked {x : Writer × σ} (hwork : s.writer.work s.now s.store = x) {done' : List Handled}
    {hand' : Option Handling} {waiting' : List (Nat × AppendRequest)}
    (hr : Right settings first done hand waiting s) (arrived : ∀ x ∈ waiting', x.1 ≤ s.now)
    (account : Account settings first done' hand' waiting' s.sent
      (s.answered ++ List.replicate (x.1.answers.length - s.writer.answers.length) s.now) x.1 x.2)
    (poised : Poised settings done' waiting' s.now x.1.writing hand') :
    Right settings first done' hand' waiting' s.work := by
  have hstanding := Writer.work_standing s.now s.writer s.store
  subst hwork
  exact ⟨account, hstanding.settings.trans hr.kept, hstanding.killed.trans hr.killed,
    hstanding.stopped.trans hr.stopped, arrived, poised⟩

/-- Some requests done with, one in hand or none, and some waiting, with which all is right. -/
def Sound (settings : WriterSettings) (first : σ) (s : Service σ) : Prop :=
  ∃ done hand waiting, Right settings first done hand waiting s

/-- The first request that waits is refused, or called for the first time. -/
theorem Right.begin {x : Nat × AppendRequest} (hr : Right settings first done none (x :: waiting) s)
    (hw : s.writer.writing = .idle)
    (hnow : s.now = max x.1 (freeAt settings.retryDelay.wait (begun done none))) : Sound settings first s.work := by
  obtain ⟨arrived, request⟩ := x
  have htaken := hr.account.takeUp hnow
  have hrest : ∀ x ∈ waiting, x.1 ≤ s.now := fun x hx => hr.arrived x (.tail _ hx)
  have hwork := Writer.work_of_idle s.now s.store hw hr.account.pending
  by_cases hgive : s.writer.settings.failureThreshold ≤ s.writer.failures
  · rw [if_pos hgive] at hwork
    have hrefused : Settled settings (streak done) request [] (.error (Writer.givenUp s.writer.failures)) := by
      rw [Writer.givenUp, hr.account.failures]
      rw [UInt32.le_iff_toNat_le, hr.account.failures, hr.kept] at hgive
      exact .refused hgive
    have hended : (Handling.start request arrived s.now).ended settings.retryDelay.wait = s.now :=
      Handling.ended_start ..
    have hanswered := htaken.answer
      ((s.writer.withPending (waiting.map (·.2))).answer request.ticket (.error (Writer.givenUp s.writer.failures)))
      hrefused rfl rfl rfl rfl
    rw [hended] at hanswered
    have hpoised := poised_answered done (.error (Writer.givenUp s.writer.failures)) hended hrest
    exact ⟨_, none, waiting, hr.worked hwork hrest
      ((replicate_answer s.writer request.ticket s.now _).symm ▸ hanswered) (hw ▸ hpoised)⟩
  · rw [if_neg hgive] at hwork
    have htrusted : streak done < settings.failureThreshold.toNat := by
      rw [UInt32.not_le, UInt32.lt_iff_toNat_lt, hr.account.failures, hr.kept] at hgive
      exact hgive
    have hbegan : s.now = (Handling.start request arrived s.now).began + 0 * settings.retryDelay.wait := by
      rw [Nat.zero_mul]
      rfl
    obtain ⟨done', hand', account, poised⟩ :=
      tryOnce_account [] htaken hr.kept rfl (Writer.tries_pos s.writer) htrusted hbegan hrest
    exact ⟨done', hand', waiting, hr.worked hwork hrest account poised⟩

theorem Right.work (hr : Right settings first done hand waiting s) : Sound settings first s.work := by
  cases hb : s.writer.busy s.now with
  | false => exact ⟨done, hand, waiting, (work_of_resting hb).symm ▸ hr⟩
  | true =>
    have hpoised := hr.poised
    generalize hw : s.writer.writing = writing at hpoised
    cases hpoised with
    | idle free hfirst =>
      cases waiting with
      | nil =>
        have hp : s.writer.pending = [] := hr.account.pending
        simp only [Writer.busy, hw, hp, List.isEmpty_nil, Bool.not_true, Bool.false_eq_true] at hb
      | cons x rest => exact hr.begin hw (hfirst x rfl)
    | @pausing h failures results called few trusted due =>
      -- The pause is over, and time has not gone beyond its end.
      simp only [Writer.busy, hw, decide_eq_true_eq] at hb
      obtain ⟨done', hand', account, poised⟩ := tryOnce_account failures hr.account hr.kept results
        (show failures.length < max 1 s.writer.settings.writeAttempts.toNat from hr.kept ▸ few) trusted
        (Nat.le_antisymm due hb) hr.arrived
      exact ⟨done', hand', waiting, hr.worked (Writer.work_of_retrying hw hb) hr.arrived account poised⟩

/-! ## A run -/

theorem Right.pass (hr : Right settings first done hand waiting s) (nanos : Nat) :
    Right settings first done hand waiting (s.pass nanos) := by
  unfold Service.pass
  cases hb : s.writer.busy s.now with
  | true => exact hr
  | false =>
    rw [if_neg Bool.false_ne_true]
    have hpoised := hr.poised
    suffices h : s.now ≤ s.writer.due?.elim (s.now + nanos) (min (s.now + nanos)) ∧
        Poised settings done waiting (s.writer.due?.elim (s.now + nanos) (min (s.now + nanos)))
          s.writer.writing hand from
      ⟨hr.account, hr.kept, hr.killed, hr.stopped, fun x hx => Nat.le_trans (hr.arrived x hx) h.1, h.2⟩
    generalize hw : s.writer.writing = writing at hpoised
    cases hpoised with
    | idle free hfirst =>
      have hdue : s.writer.due? = none := by simp only [Writer.due?, hw]
      have hnil : waiting = [] := by
        simpa only [Writer.busy, hw, hr.account.pending, Bool.not_eq_false', List.isEmpty_iff,
          List.map_eq_nil_iff] using hb
      rw [hdue, hnil]
      exact ⟨Nat.le_add_right .., .idle (Nat.le_trans free (Nat.le_add_right ..))
        fun _ hx => absurd hx (Option.not_mem_none _)⟩
    | @pausing h failures results called few trusted due =>
      have hdue : s.writer.due? = some (h.began + failures.length * settings.retryDelay.wait) := by
        simp only [Writer.due?, hw]
      rw [hdue]
      exact ⟨Nat.le_min.2 ⟨Nat.le_add_right .., due⟩, .pausing results called few trusted (Nat.min_le_right ..)⟩

theorem Sound.step (hs : Sound settings first s) (e : Event) : Sound settings first (s.step e) := by
  obtain ⟨done, hand, waiting, hr⟩ := hs
  cases e with
  | send sample metrics => exact ⟨done, hand, _, hr.send sample metrics⟩
  | work => exact hr.work
  | pass nanos => exact ⟨done, hand, waiting, hr.pass nanos⟩

/-- **Whatever happens, an account can be given.** -/
theorem Sound.run (events : List Event) : ∀ {s : Service σ}, Sound settings first s →
    Sound settings first (s.run events) := by
  induction events with
  | nil => exact id
  | cons e events ih => exact fun hs => ih (hs.step e)

/-! ## The writer's own way on -/

/-- Some events, of which none sends anything, lead to a writer and a store at an instant. -/
def Leads (s : Service σ) (r : WriterRun σ) : Prop :=
  ∃ events, (s.run events).toWriterRun = r ∧ (s.run events).sent = s.sent

theorem Leads.after {r : WriterRun σ} (events : List Event) (hsent : (s.run events).sent = s.sent)
    (h : Leads (s.run events) r) : Leads s r := by
  obtain ⟨later, hr, hs⟩ := h
  have happend : s.run (events ++ later) = (s.run events).run later := List.foldl_append
  exact ⟨events ++ later, by rw [happend, hr], by rw [happend, hs, hsent]⟩

theorem leads_of_works {x y : Writer × σ} (h : Writer.Works s.now x y) (hx : x = (s.writer, s.store)) :
    Leads s ⟨s.now, y.1, y.2⟩ := by
  generalize hnow : s.now = now at h
  induction h generalizing s with
  | done x =>
    subst hx hnow
    exact ⟨[], rfl, rfl⟩
  | next _ ih =>
    subst hx hnow
    exact .after [.work] rfl (ih rfl rfl)

omit [SampleStore σ] in
theorem pass_until {instant : Nat} (hb : s.writer.busy s.now = false) (hd : s.writer.due? = some instant)
    (hle : s.now ≤ instant) : s.pass (instant - s.now) = { s with now := instant } := by
  unfold Service.pass
  rw [hb, hd, if_neg Bool.false_ne_true]
  show { s with now := min (s.now + (instant - s.now)) instant } = _
  rw [Nat.add_sub_cancel' hle, Nat.min_self]

theorem leads_advance (fuel : Nat) : ∀ {s : Service σ}, Sound settings first s →
    Leads s (s.toWriterRun.advance none fuel) := by
  induction fuel with
  | zero => exact fun _ => ⟨[], rfl, rfl⟩
  | succ fuel ih =>
    intro s hs
    obtain ⟨done, hand, waiting, hr⟩ := id hs
    have hawake : s.writer.awake s.now = s.writer.busy s.now := by
      simp only [Writer.awake_eq, hr.stopped, hr.killed, Bool.not_false, Bool.false_or, Bool.true_and]
    cases hb : s.writer.busy s.now with
    | true =>
      obtain ⟨events, hturn, hsent⟩ := leads_of_works (.next (Writer.goOn_works hb)) rfl
      rw [WriterRun.advance_of_awake (hawake.trans hb), WriterRun.turn_of_alive hr.stopped hr.killed, ← hturn]
      exact .after events hsent (ih (hs.run events))
    | false =>
      cases hd : s.writer.due? with
      | none =>
        rw [WriterRun.advance_of_resting (hawake.trans hb) hd]
        exact ⟨[], rfl, rfl⟩
      | some instant =>
        have hlt : s.now < instant := by
          unfold Writer.due? at hd
          unfold Writer.busy at hb
          split at hd
          · cases hd
          · next hw =>
            cases hd
            simpa only [hw, decide_eq_false_iff_not, Nat.not_le] using hb
        have hpass : s.run [.pass (instant - s.now)] = { s with now := instant } :=
          pass_until hb hd (Nat.le_of_lt hlt)
        have hadvance := WriterRun.advance_of_pausing (hawake.trans hb) hd fuel
        rw [hadvance]
        have hgoing := ih (hs.run [.pass (instant - s.now)])
        rw [hpass] at hgoing
        exact .after [.pass (instant - s.now)] (hpass ▸ rfl) (hpass ▸ hgoing)

/-! ## Giving up on the store -/

/-- The failures in a row are never more than the writer puts up with; when they are as many, it calls the store
no more. -/
structure Latched (settings : WriterSettings) (done : List Handled) (hand : Option Handling) : Prop where
  bounded : ∀ {before after}, done = before ++ after → streak before ≤ settings.failureThreshold.toNat
  refused : ∀ {before after}, done = before ++ after → settings.failureThreshold.toNat ≤ streak before →
    ∀ d ∈ after, d.1.results = [] ∧ d.2 = .error ⟨.storeUnavailable,
      toString settings.failureThreshold.toNat ++ " consecutive writes failed"⟩
  idle : settings.failureThreshold.toNat ≤ streak done → hand = none

theorem Right.bounded (hr : Right settings first done hand waiting s) (before : List Handled) :
    ∀ {after}, done = before ++ after → streak before ≤ settings.failureThreshold.toNat := by
  induction before using List.reverseRecOn with
  | nil => exact fun _ => Nat.zero_le _
  | append_singleton before d ih =>
    intro after heq
    rw [List.append_assoc, List.singleton_append] at heq
    rw [streak_concat]
    exact (hr.account.settled heq).failuresAfter_le (ih heq)

/-- The failures in a row stay as many as the writer puts up with. -/
theorem Right.streak_of_latched (hr : Right settings first done hand waiting s) {before : List Handled}
    (hle : settings.failureThreshold.toNat ≤ streak before) (later : List Handled) :
    ∀ {after}, done = before ++ (later ++ after) → streak (before ++ later) = settings.failureThreshold.toNat := by
  induction later using List.reverseRecOn with
  | nil =>
    intro after heq
    rw [List.append_nil]
    exact Nat.le_antisymm (hr.bounded before heq) hle
  | append_singleton later d ih =>
    intro after heq
    rw [List.append_assoc, List.singleton_append] at heq
    have hlatched := ih heq
    rw [← List.append_assoc] at heq
    obtain ⟨hresults, hanswer⟩ := (hr.account.settled heq).of_latched (Nat.le_of_eq hlatched.symm)
    rw [← List.append_assoc, streak_concat, failuresAfter, hanswer]
    exact (if_pos hresults).trans hlatched

theorem Right.latched (hr : Right settings first done hand waiting s) : Latched settings done hand where
  bounded heq := hr.bounded _ heq
  refused {before after} heq hle d hd := by
    obtain ⟨later, rest, rfl⟩ := List.append_of_mem hd
    have hlatched := hr.streak_of_latched hle later heq
    rw [← List.append_assoc] at heq
    exact hlatched ▸ (hr.account.settled heq).of_latched (Nat.le_of_eq hlatched.symm)
  idle hle := by
    have hpoised := hr.poised
    generalize s.writer.writing = writing at hpoised
    cases hpoised with
    | idle => rfl
    | pausing _ _ _ trusted => exact absurd hle (Nat.not_le_of_lt trusted)

/-! ## The main result -/

/-- A writer at rest has every request done with. -/
theorem Right.at_rest (hr : Right settings first done hand waiting s) (hline : s.writer.line = []) :
    Right settings first done none [] s := by
  obtain ⟨hw, hp⟩ := Writer.line_eq_nil_iff.1 hline
  have hwaiting : waiting = [] := List.map_eq_nil_iff.1 (hr.account.pending.symm.trans hp)
  have hhand : hand = none := by
    have hpoised := hr.poised
    rw [hw] at hpoised
    cases hpoised
    rfl
  exact hwaiting ▸ hhand ▸ hr

/-- **A writer calls for each request a few times with a pause between each two calls, until the store has
failed too many requests in a row.** Whatever is sent to a new writer and however its store answers, an
account can be given of all it has done; and left alone it goes on until every request is settled. -/
theorem retries_until_latched (settings : WriterSettings) (store : σ) (events : List Event) :
    let s := (opened settings store).run events
    (∃ done hand waiting, Right settings store done hand waiting s ∧ Latched settings done hand) ∧
      ∃ later, let e := s.run later
        e.toWriterRun = s.toWriterRun.settle ∧ e.sent = s.sent ∧
          ∃ done, Right settings store done none [] e ∧ Latched settings done none := by
  intro s
  have hs : Sound settings store s := .run events ⟨[], none, [], right_opened settings store⟩
  obtain ⟨later, hsettle, hsent⟩ := leads_advance (WriterRun.steps s.writer) hs
  have he : Sound settings store (s.run later) := hs.run later
  obtain ⟨done, hand, waiting, hr⟩ := hs
  obtain ⟨done', hand', waiting', hr'⟩ := he
  have hline : (s.run later).writer.line = [] := by
    rw [hsettle]
    exact WriterRun.settle_line fun hstopped => by
      rw [hr.stopped] at hstopped
      cases hstopped
  have hrest := hr'.at_rest hline
  exact ⟨⟨done, hand, waiting, hr, hr.latched⟩, later, hsettle, hsent, done', hrest, hrest.latched⟩

/-- A request whose first call fails is called for again after thirty years where the pause between two calls is to
last sixty years of 365 days, and after a millisecond where it is to last a nanosecond. -/
theorem retried_halfway :
    let store : FaultyStore := ⟨⟨[1], none, false, false⟩, 0, []⟩
    let sample : HealthSample := .ofCounts "s" "a" .epoch ⟨0, 0⟩ .ok 1 none
    let writer (settings : WriterSettings) : Writer :=
      ((opened settings store).run [.send sample none]).toWriterRun.settle.writer
    let long : WriterSettings := ⟨2, .ofMillis 1_892_160_000_000, 5⟩
    let short : WriterSettings := ⟨2, ⟨1, by decide⟩, 5⟩
    ((writer long).calls = [0, 946_080_000_000_000_000] ∧ (writer long).answers.map (·.1) = [0] ∧
      ¬ 0 + long.retryDelay.nanos = 946_080_000_000_000_000) ∧
    (writer short).calls = [0, 1_000_000] ∧ (writer short).answers.map (·.1) = [0] ∧
      ¬ 0 + short.retryDelay.nanos = 1_000_000 :=
  ⟨⟨by decide +kernel, by decide +kernel, by decide⟩, by decide +kernel, by decide +kernel, by decide⟩

end Service

end SwarmSampler
