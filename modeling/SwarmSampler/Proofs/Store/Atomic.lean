import SwarmSampler.Proofs.Store.Session

/-
Calls on a store are carried out as a whole or not at all, whatever the engine
fails to do: a call that is answered with an error leaves the tables as they
were, so a store in use is what the calls that succeeded have made of it.
-/

namespace SwarmSampler.Store

variable {α β : Type} {engine : Engine} {base : Store} {s : Session}

/-- What comes of something done outside a transaction, where its plan, if the engine obeys, is an answer and the
store after it. -/
inductive Ended (engine : Engine) (s : Session) (plan : Except Failure α × Opened) : Except Failure α × Session → Prop
  | done {answer : Except Failure α} {after : Session} (obeyed : Obeyed engine s after) (closed : after.saved = none)
      (planned : plan = (answer, after.toOpened)) : Ended engine s plan (answer, after)
  | refused {e : Failure} {after : Session} (refused : Refused engine s after e) (closed : after.saved = none)
      (kept : after.toOpened = s.toOpened) : Ended engine s plan (.error e, after)

/-- Something done to a store where it is. -/
def Opened.withStore (o : Opened) (x : Except Failure α × Store) : Except Failure α × Opened :=
  (x.1, { o with store := x.2 })

theorem toOpened_eq {o o' : Opened} (here : o.home = o'.home) (holds : o.store = o'.store) : o = o' := by
  cases o
  cases o'
  cases here
  cases holds
  rfl

/-- What a transaction leaves that fails, once it is dropped. -/
theorem toOpened_rollback {after : Session} (here : after.home = s.home) (kept : after.committed = s.store) :
    after.rollback.toOpened = s.toOpened := toOpened_eq here kept

/-- **A transaction is carried out as a whole or not at all.** -/
theorem ended_whole {body : Act α} {f : Store → Except Failure (α × Store)} (hs : s.saved = none)
    (hbody : ∀ inside : Session, inside.saved = some s.store → inside.store = s.store →
      Came engine s.store inside (f s.store) (body inside)) :
    Ended engine s (s.toOpened.withStore (s.store.transaction f)) (Act.whole engine body s) := by
  unfold Act.whole
  dsimp only
  obtain ⟨inside, hbegin, obeyed, hopened, hsaved⟩ | ⟨e, after, hbegin, hrefused, here, kept⟩ :=
    begin_cases engine hs
  · rw [bind_eq hbegin]
    have hcame := hbody inside hsaved (congrArg Opened.store hopened)
    have hhome : inside.home = s.home := congrArg Opened.home hopened
    generalize hresult : body inside = result at hcame
    cases hcame with
    | @done x tables ready hobeyed planned here hinside holds =>
      rw [bind_eq hresult]
      obtain ⟨after, hcommit, hobeyed', hopened', hclosed⟩ | ⟨e, after, hcommit, hrefused, here', kept⟩ :=
        commit_cases engine ready
      · rw [bind_eq hcommit]
        refine .done ((obeyed.trans hobeyed).trans hobeyed').rollback rfl ?_
        have hstore : after.committed = tables := by
          rw [Session.committed, hclosed, Option.getD_none, hopened', holds]
        have hhome' : after.home = s.home := (congrArg Opened.home hopened').trans (here.trans hhome)
        rw [transaction, planned]
        exact congrArg (Prod.mk _) (toOpened_eq hhome'.symm hstore.symm)
      · rw [bind_eq_error hcommit]
        refine .refused (obeyed.refused (hobeyed.refused hrefused)) rfl
          (toOpened_rollback (here'.trans (here.trans hhome)) ?_)
        rw [kept, committed_of_saved hinside]
    | @failed e after hobeyed planned here kept =>
      rw [bind_eq_error hresult]
      refine .done (obeyed.trans hobeyed).rollback rfl ?_
      rw [transaction, planned, toOpened_rollback (here.trans hhome) kept]
      rfl
    | @refused e after hrefused here kept =>
      rw [bind_eq_error hresult]
      exact .refused (obeyed.refused hrefused) rfl (toOpened_rollback (here.trans hhome) kept)
  · rw [bind_eq_error hbegin]
    exact .refused hrefused rfl (toOpened_rollback here kept)

theorem committed_of_closed (hs : s.saved = none) : s.committed = s.store := by
  rw [Session.committed, hs, Option.getD_none]

/-- Something done after the engine has been asked to get ready. -/
theorem ended_ask {act : Act α} {plan : Except Failure α × Opened} (hs : s.saved = none)
    (hact : ∀ ready : Session, ready.saved = none → ready.toOpened = s.toOpened → Ended engine ready plan (act ready)) :
    Ended engine s plan ((Act.ask engine >>= fun _ => act) s) := by
  obtain ⟨hask, hobeyed⟩ | ⟨e, after, hask, hrefused, here, kept, hsaved⟩ := ask_cases engine s
  · rw [bind_eq hask]
    have hended := hact { s with asked := s.asked + 1 } hs rfl
    generalize act _ = result at hended
    cases hended with
    | done obeyed closed planned => exact .done (hobeyed.trans obeyed) closed planned
    | refused refused closed kept => exact .refused (hobeyed.refused refused) closed kept
  · rw [bind_eq_error hask]
    have hclosed : after.saved = none := by
      rw [hs, or_self] at hsaved
      exact hsaved
    rw [committed_of_closed hclosed, committed_of_closed hs] at kept
    exact .refused hrefused hclosed (toOpened_eq here kept)

/-- Something done with its answer put in other words. -/
theorem Ended.map {act : Act α} {plan : Except Failure α × Opened} (h : Ended engine s plan (act s)) (g : α → β) :
    Ended engine s (plan.1.map g, plan.2) ((act >>= fun x => pure (g x)) s) := by
  generalize hact : act s = result at h
  cases h with
  | @done answer after obeyed closed planned =>
    subst planned
    cases answer with
    | ok x =>
      rw [bind_eq hact]
      exact .done obeyed closed rfl
    | error e =>
      rw [bind_eq_error hact]
      exact .done obeyed closed rfl
  | refused refused closed kept =>
    rw [bind_eq_error hact]
    exact .refused refused closed kept

/-! ## The calls -/

/-- What a call may answer. -/
inductive Answer
  | registered (added : Nat)
  | ingested (summary : IngestSummary)
  | stored (sample : HealthSample)
  | reopened

/-- A call in a session. -/
def Session.perform (engine : Engine) : Call → Act Answer
  | .register now source targets => Act.register engine now source targets >>= fun n => pure (.registered n)
  | .ingest now source records => Act.ingest engine now source records >>= fun n => pure (.ingested n)
  | .append sample metrics => Act.append engine sample metrics >>= fun stored => pure (.stored stored)
  | .reopen => fun s => (.ok .reopened, { s with toOpened := s.rollback.toOpened.reopen, saved := none })

/-- What a store answers to a call. -/
def Opened.answer (o : Opened) : Call → Except Failure Answer
  | .register now source targets => (register now source targets o.store).1.map .registered
  | .ingest now source records => (ingest now source records o.store).1.map .ingested
  | .append sample metrics => (append sample metrics o.store).1.map .stored
  | .reopen => .ok .reopened

theorem ended_register (hs : s.saved = none) (now : Stamp) (source : String) (targets : List MonitoringTarget) :
    Ended engine s (s.toOpened.withStore (register now source targets s.store))
      (Act.register engine now source targets s) := by
  refine ended_ask hs fun ready hready hopened => ?_
  rw [← hopened]
  refine ended_whole hready fun inside hinside hstore => ?_
  have h : Came engine _ _ _ _ := came_registerSteps now source targets 0 hinside
  rw [hstore] at h
  exact h

theorem ended_append (hs : s.saved = none) (sample : HealthSample) (metrics : Option MetricsSnapshot) :
    Ended engine s (s.toOpened.withStore (append sample metrics s.store)) (Act.append engine sample metrics s) := by
  refine ended_ask hs fun ready hready hopened => ?_
  rw [← hopened]
  refine ended_whole hready fun inside hinside hstore => ?_
  have h : Came engine _ _ _ _ := came_appendSteps hinside sample metrics
  rw [hstore] at h
  exact h

theorem ended_ingest (hs : s.saved = none) (now : Stamp) (source : String) (records : List TargetRecord) :
    Ended engine s (s.toOpened.withStore (ingest now source records s.store))
      (Act.ingest engine now source records s) :=
  let eligible := (records.map MonitoringTarget.ofRecord).filter (·.eligible)
  (ended_register hs now source eligible).map fun n => IngestSummary.mk n (records.length - eligible.length)

/-- **In a session a call does what the store's own definition of it says, or nothing.** -/
theorem ended_perform (hs : s.saved = none) (c : Call) :
    Ended engine s (s.toOpened.answer c, s.toOpened.perform c) (s.perform engine c) := by
  cases c with
  | register now source targets => exact (ended_register hs now source targets).map _
  | ingest now source records => exact (ended_ingest hs now source records).map _
  | append sample metrics => exact (ended_append hs sample metrics).map _
  | reopen =>
    refine .done ⟨Nat.le_refl _, fun _ h h' => absurd h' (Nat.not_lt_of_le h)⟩ rfl ?_
    have hsame : s.rollback.toOpened = s.toOpened := toOpened_rollback rfl (committed_of_closed hs)
    rw [hsame]
    rfl

/-! ## Calls that fail -/

/-- What is wrong with a call. -/
inductive Doomed (tables : Store) : Call → Prop
  | unregistered {sample : HealthSample} {metrics : Option MetricsSnapshot}
      (absent : ¬ tables.Registered sample.targetId) : Doomed tables (.append sample metrics)
  | sameId {sample : HealthSample} {metrics : Option MetricsSnapshot} {x : SampleRow} (there : x ∈ tables.samples)
      (taken : x.id = sample.id) : Doomed tables (.append sample metrics)
  | wrongTotal {sample : HealthSample} {metrics : Option MetricsSnapshot}
      (wrong : sample.totalPeers.toNat ≠ sample.seeders.toNat + sample.leechers.toNat) :
      Doomed tables (.append sample metrics)
  | undated {sample : HealthSample} {metrics : Option MetricsSnapshot}
      (beyond : Stamp.ofMillis? (effectiveMillis (tables.latestMillis? sample.targetId)
        sample.timestamp.toMillis) = none) : Doomed tables (.append sample metrics)

theorem Appended.id_fresh {sample stored : HealthSample} {metrics : Option MetricsSnapshot} {tables tables' : Store}
    (h : Appended sample metrics tables stored tables') {x : SampleRow} (hx : x ∈ tables.samples) :
    x.id ≠ sample.id := by
  intro hid
  have hfresh := h.fresh
  unfold keyViolation? at hfresh
  split at hfresh
  · cases hfresh
  · split at hfresh
    · cases hfresh
    · next hnot =>
      refine hnot (List.any_eq_true.2 ⟨x, hx, decide_eq_true ?_⟩)
      rw [hid, h.asked]
      rfl

/-- A call that something is wrong with is answered with an error. -/
theorem Doomed.fails {o : Opened} {c : Call} (h : Doomed o.store c) : ∃ e, o.answer c = .error e := by
  cases h with
  | @unregistered sample metrics absent =>
    obtain ⟨stored, s', -, ha⟩ | ⟨e, heq⟩ := append_cases sample metrics o.store
    · exact absurd (ha.targetId_eq ▸ ha.registered) absent
    · exact ⟨e, by rw [Opened.answer, heq]; rfl⟩
  | @sameId sample metrics x there taken =>
    obtain ⟨stored, s', -, ha⟩ | ⟨e, heq⟩ := append_cases sample metrics o.store
    · exact absurd taken (ha.id_fresh there)
    · exact ⟨e, by rw [Opened.answer, heq]; rfl⟩
  | @wrongTotal sample metrics wrong =>
    obtain ⟨stored, s', -, ha⟩ | ⟨e, heq⟩ := append_cases sample metrics o.store
    · have htotal := ha.total
      rw [ha.asked] at htotal
      exact absurd (Int.ofNat_inj.1 htotal) wrong
    · exact ⟨e, by rw [Opened.answer, heq]; rfl⟩
  | @undated sample metrics beyond =>
    obtain ⟨stored, s', -, ha⟩ | ⟨e, heq⟩ := append_cases sample metrics o.store
    · cases beyond.symm.trans ha.dated
    · exact ⟨e, by rw [Opened.answer, heq]; rfl⟩

/-- A store that answers a call with an error stays as it was. -/
theorem perform_of_error {o : Opened} {c : Call} {e : Failure} (h : o.answer c = .error e) : o.perform c = o := by
  cases c with
  | register now source targets =>
    obtain ⟨added, -, -, heq⟩ := register_eq now source targets o.store
    rw [Opened.answer, heq] at h
    cases h
  | ingest now source records =>
    obtain ⟨added, -, -, heq⟩ := register_eq now source
      ((records.map MonitoringTarget.ofRecord).filter (·.eligible)) o.store
    simp only [Opened.answer, ingest, heq] at h
    cases h
  | append sample metrics =>
    obtain ⟨stored, s', heq, -⟩ | ⟨e, heq⟩ := append_cases sample metrics o.store
    · rw [Opened.answer, heq] at h
      cases h
    · rw [Opened.perform, heq]
  | reopen => cases h

/-! ## Runs -/

namespace Session

/-- A session with a store, just begun. -/
def start (o : Opened) : Session := ⟨o, none, 0⟩

/-- Some calls, one after another. -/
def performAll (engine : Engine) (s : Session) (calls : List Call) : Session :=
  calls.foldl (fun s c => (perform engine c s).2) s

/-- The calls among some that are answered without an error. -/
def heeded (engine : Engine) (s : Session) : List Call → List Call
  | [] => []
  | c :: cs =>
    match perform engine c s with
    | (.ok _, s) => c :: heeded engine s cs
    | (.error _, s) => heeded engine s cs

theorem heeded_ok {c : Call} {cs : List Call} {x : Answer} {after : Session} (h : perform engine c s = (.ok x, after)) :
    heeded engine s (c :: cs) = c :: heeded engine after cs := by
  rw [heeded, h]

theorem heeded_error {c : Call} {cs : List Call} {e : Failure} {after : Session}
    (h : perform engine c s = (.error e, after)) : heeded engine s (c :: cs) = heeded engine after cs := by
  rw [heeded, h]

/-- **A store in use is what the calls that succeeded have made of it.** -/
theorem performAll_spec (engine : Engine) (cs : List Call) : ∀ {s : Session}, s.saved = none →
    (performAll engine s cs).saved = none ∧
      (performAll engine s cs).toOpened = s.toOpened.performAll (heeded engine s cs) := by
  induction cs with
  | nil => exact fun hs => ⟨hs, rfl⟩
  | cons c cs ih =>
    intro s hs
    have hended : Ended engine s (s.toOpened.answer c, s.toOpened.perform c) (s.perform engine c) := ended_perform hs c
    generalize hresult : perform engine c s = result at hended
    have hstep : performAll engine s (c :: cs) = performAll engine result.2 cs := by rw [← hresult]; rfl
    rw [hstep]
    cases hended with
    | @done answer after obeyed closed planned =>
      simp only [Prod.mk.injEq] at planned
      obtain ⟨hanswer, hafter⟩ := planned
      refine ⟨(ih closed).1, (ih closed).2.trans ?_⟩
      cases answer with
      | ok x =>
        rw [heeded_ok hresult, ← hafter]
        rfl
      | error e => rw [heeded_error hresult, ← hafter, perform_of_error hanswer]
    | refused refused closed kept =>
      rw [heeded_error hresult, ← kept]
      exact ih closed

end Session

/-- **A call that fails leaves nothing behind.** Whatever calls are made on a store and whatever the engine fails
to do, a call that is answered with an error leaves the tables as they were and no transaction open, and a
call that is not has done all that the store's definition of it says; so the tables are those the calls that
succeeded have made. A call fails if something is wrong with it or the engine fails to do something for it. -/
theorem failed_calls_undone (engine : Engine) (o : Opened) (calls : List Call) (c : Call) :
    let s := Session.performAll engine (.start o) calls
    let r := s.perform engine c
    s.toOpened = o.performAll (Session.heeded engine (.start o) calls) ∧
      (∀ e, s.toOpened.answer c = .error e → s.toOpened.perform c = s.toOpened) ∧
      (∀ e, r.1 = .error e → r.2.toOpened = s.toOpened ∧ r.2.saved = none) ∧
      (∀ x, r.1 = .ok x → s.toOpened.answer c = .ok x ∧ r.2.toOpened = s.toOpened.perform c ∧ r.2.saved = none) ∧
      (Doomed s.store c → ∃ e, r.1 = .error e) ∧
      ∀ k b, s.asked ≤ k → k < r.2.asked → engine k = some b → ∃ e, r.1 = .error e := by
  intro s r
  obtain ⟨hclosed, hmade⟩ : s.saved = none ∧ _ := Session.performAll_spec engine calls rfl
  refine ⟨hmade, fun _ => perform_of_error, ?_⟩
  have hended : Ended engine s _ r := ended_perform hclosed c
  generalize r = result at hended
  cases hended with
  | @done answer after obeyed closed planned =>
    simp only [Prod.mk.injEq] at planned
    obtain ⟨hanswer, hafter⟩ := planned
    refine ⟨?_, ?_, ?_, ?_⟩
    · rintro e rfl
      exact ⟨hafter.symm.trans (perform_of_error hanswer), closed⟩
    · rintro x rfl
      exact ⟨hanswer, hafter.symm, closed⟩
    · intro hdoomed
      exact hanswer ▸ hdoomed.fails
    · intro k b hk hk' hb
      cases (obeyed.done k hk hk').symm.trans hb
  | @refused e after refused closed kept =>
    refine ⟨fun _ _ => ⟨kept, closed⟩, fun _ hok => ?_, fun _ => ⟨e, rfl⟩, fun _ _ _ _ _ => ⟨e, rfl⟩⟩
    cases hok

/-- The engine fails at the second of two rows, and the first is gone as well. -/
example :
    let target (id : String) : MonitoringTarget := ⟨id, "", "", "", true⟩
    let engine : Engine := fun k => if k = 3 then some ⟨⟨.store, "disk full"⟩, false⟩ else none
    let r := Session.perform engine (.register .epoch "" [target "a", target "b"]) (.start ⟨⟨"store", false⟩, empty⟩)
    r.1 = .error ⟨.store, "disk full"⟩ ∧ r.2.store.targets = [] ∧ r.2.asked = 4 := ⟨rfl, rfl, rfl⟩

end SwarmSampler.Store
