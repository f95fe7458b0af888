import SwarmSampler.Proofs.Store.Calls

/-
A store as a program comes by it: in a session with an engine, statement by
statement. The engine may fail to do anything it is asked, whenever it likes;
what was changed before stays changed until the open transaction is rolled
back, which happens when it is dropped. Each call, written out in statements,
goes the way the store's own definition of it says as long as the engine does
what it is asked.
-/

namespace SwarmSampler.Store

/-- What an engine says that fails to do something. -/
structure Setback where
  failure : Failure
  /-- Whether the open transaction is rolled back at once. -/
  abandons : Bool

/-- What an engine fails to do of all it is asked, counted from the first. -/
abbrev Engine := Nat → Option Setback

/-- A session with a store: the tables as it sees them, and as they were when its open transaction began. -/
structure Session extends Opened where
  saved : Option Store
  /-- How much the engine has been asked to do. -/
  asked : Nat

namespace Session

/-- The tables as everybody else sees them. -/
def committed (s : Session) : Store := s.saved.getD s.store

/-- Drops the open transaction. -/
def rollback (s : Session) : Session := { s with store := s.committed, saved := none }

end Session

/-- Something done in a session. If it fails, what it has changed by then stays changed. -/
def Act (α : Type) : Type := Session → Except Failure α × Session

instance : Monad Act where
  pure x := fun s => (.ok x, s)
  bind act next := fun s =>
    match act s with
    | (.ok x, s) => next x s
    | (.error e, s) => (.error e, s)

namespace Act

variable {α β : Type}

def fail (e : Failure) : Act α := fun s => (.error e, s)

/-- Asks the engine to do something. -/
def ask (engine : Engine) : Act Unit := fun s =>
  let after := { s with asked := s.asked + 1 }
  match engine s.asked with
  | none => (.ok (), after)
  | some b => (.error b.failure, if b.abandons then after.rollback else after)

/-- Changes the tables, unless a rule is broken. -/
def change (f : Store → Except Failure (α × Store)) : Act α := fun s =>
  match f s.store with
  | .ok (x, tables) => (.ok x, { s with store := tables })
  | .error e => (.error e, s)

/-- One statement. -/
def statement (engine : Engine) (f : Store → Except Failure (α × Store)) : Act α := do
  ask engine
  change f

def setSaved (saved : Session → Option Store) : Act Unit := fun s => (.ok (), { s with saved := saved s })

def begin (engine : Engine) : Act Unit := do
  ask engine
  setSaved fun s => some s.store

def commit (engine : Engine) : Act Unit := do
  ask engine
  setSaved fun _ => none

/-- Does something in a transaction, which is dropped in the end. -/
def whole (engine : Engine) (body : Act α) : Act α := fun s =>
  let steps : Act α := do
    begin engine
    let x ← body
    commit engine
    return x
  let (result, s) := steps s
  (result, s.rollback)

/-- The tables with a row more among the samples. -/
def inserted (r : SampleRow) (tables : Store) : Except Failure (Unit × Store) :=
  match tables.insertSample r true with
  | .error v => .error ⟨.store, v.message⟩
  | .ok tables => .ok ((), tables)

/-- Marks a target's row, if there is one. -/
def mark (engine : Engine) (stored : HealthSample) : Act HealthSample := do
  let touched ← statement engine fun tables =>
    .ok (tables.targets.countP (·.isOf stored.targetId), tables.markChecked stored.targetId stored.timestamp)
  if touched = 0 then fail ⟨.notFound, "target " ++ stored.targetId ++ " is not registered"⟩ else return stored

/-- Adds a sample's row and marks its target's. -/
def appendSteps (engine : Engine) (sample : HealthSample) (metrics : Option MetricsSnapshot) : Act HealthSample := do
  let latest ← statement engine fun tables => .ok (tables.latestMillis? sample.targetId, tables)
  let millis := effectiveMillis latest sample.timestamp.toMillis
  match Stamp.ofMillis? millis with
  | none => fail ⟨.internal, "timestamp " ++ toString millis ++ " out of range"⟩
  | some timestamp => do
    statement engine (inserted (sampleRow sample millis metrics))
    mark engine { sample with timestamp := timestamp }

/-- Adds a target's row if there is none, and so on; counts those that are added. -/
def registerSteps (engine : Engine) (now : Stamp) (source : String) (targets : List MonitoringTarget) : Act Nat :=
  targets.foldlM (fun added t => statement engine fun tables => .ok (registerOne now source (added, tables) t)) 0

def append (engine : Engine) (sample : HealthSample) (metrics : Option MetricsSnapshot) : Act HealthSample := do
  ask engine
  whole engine (appendSteps engine sample metrics)

def register (engine : Engine) (now : Stamp) (source : String) (targets : List MonitoringTarget) : Act Nat := do
  ask engine
  whole engine (registerSteps engine now source targets)

def ingest (engine : Engine) (now : Stamp) (source : String) (records : List TargetRecord) : Act IngestSummary := do
  let eligible := (records.map MonitoringTarget.ofRecord).filter (·.eligible)
  let accepted ← register engine now source eligible
  return ⟨accepted, records.length - eligible.length⟩

end Act

/-! ## What the engine has done -/

/-- The engine has done all it was asked between two moments. -/
structure Obeyed (engine : Engine) (before after : Session) : Prop where
  forward : before.asked ≤ after.asked
  done : ∀ k, before.asked ≤ k → k < after.asked → engine k = none

/-- Between two moments the engine has failed to do something, and has said so. -/
def Refused (engine : Engine) (before after : Session) (e : Failure) : Prop :=
  ∃ k b, before.asked ≤ k ∧ k < after.asked ∧ engine k = some b ∧ b.failure = e

section Asked

variable {engine : Engine} {s s₁ s₂ : Session} {e : Failure}

theorem Obeyed.refl (engine : Engine) (s : Session) : Obeyed engine s s :=
  ⟨Nat.le_refl _, fun _ h h' => absurd h' (Nat.not_lt_of_le h)⟩

theorem Obeyed.trans (h : Obeyed engine s s₁) (h' : Obeyed engine s₁ s₂) : Obeyed engine s s₂ where
  forward := Nat.le_trans h.forward h'.forward
  done k hk hk' := by
    by_cases hlt : k < s₁.asked
    · exact h.done k hk hlt
    · exact h'.done k (Nat.le_of_not_lt hlt) hk'

theorem Obeyed.refused (h : Obeyed engine s s₁) (h' : Refused engine s₁ s₂ e) : Refused engine s s₂ e := by
  obtain ⟨k, b, hk, hk', hb, he⟩ := h'
  exact ⟨k, b, Nat.le_trans h.forward hk, hk', hb, he⟩

theorem Obeyed.rollback (h : Obeyed engine s s₁) : Obeyed engine s s₁.rollback := ⟨h.forward, h.done⟩

end Asked

/-! ## Steps of a transaction -/

/-- What comes of something done in a transaction that began with some tables, where its plan, if the engine
obeys, is some result with the tables after it. Whenever it fails, everybody else still sees the tables the
transaction began with. -/
inductive Came {α : Type} (engine : Engine) (base : Store) (s : Session) (plan : Except Failure (α × Store)) :
    Except Failure α × Session → Prop
  | done {x : α} {tables : Store} {after : Session} (obeyed : Obeyed engine s after) (planned : plan = .ok (x, tables))
      (here : after.home = s.home) (inside : after.saved = some base) (holds : after.store = tables) :
      Came engine base s plan (.ok x, after)
  | failed {e : Failure} {after : Session} (obeyed : Obeyed engine s after) (planned : plan = .error e)
      (here : after.home = s.home) (kept : after.committed = base) : Came engine base s plan (.error e, after)
  | refused {e : Failure} {after : Session} (refused : Refused engine s after e) (here : after.home = s.home)
      (kept : after.committed = base) : Came engine base s plan (.error e, after)

section Steps

variable {α β : Type} {engine : Engine} {base : Store} {s : Session}

theorem committed_of_saved (hs : s.saved = some base) : s.committed = base := by
  rw [Session.committed, hs, Option.getD_some]

/-- What the engine does, or does not, when it is asked. -/
theorem ask_cases (engine : Engine) (s : Session) :
    (Act.ask engine s = (.ok (), { s with asked := s.asked + 1 }) ∧
        Obeyed engine s { s with asked := s.asked + 1 }) ∨
      ∃ e after, Act.ask engine s = (.error e, after) ∧ Refused engine s after e ∧ after.home = s.home ∧
        after.committed = s.committed ∧ (after.saved = s.saved ∨ after.saved = none) := by
  unfold Act.ask
  split
  · next hnone =>
    refine .inl ⟨rfl, Nat.le_succ _, fun k hk hk' => ?_⟩
    rw [Nat.le_antisymm (Nat.le_of_lt_succ hk') hk, hnone]
  · next b hsome =>
    refine .inr ⟨b.failure, _, rfl, ?_⟩
    split
    · exact ⟨⟨s.asked, b, Nat.le_refl _, Nat.lt_succ_self _, hsome, rfl⟩, rfl, rfl, .inr rfl⟩
    · exact ⟨⟨s.asked, b, Nat.le_refl _, Nat.lt_succ_self _, hsome, rfl⟩, rfl, rfl, .inl rfl⟩

theorem bind_eq {act : Act α} {next : α → Act β} {x : α} {after : Session} (h : act s = (.ok x, after)) :
    (act >>= next) s = next x after := by
  show (match act s with | (.ok x, s) => next x s | (.error e, s) => (.error e, s)) = _
  rw [h]

theorem bind_eq_error {act : Act α} {next : α → Act β} {e : Failure} {after : Session}
    (h : act s = (.error e, after)) : (act >>= next) s = (.error e, after) := by
  show (match act s with | (.ok x, s) => next x s | (.error e, s) => (.error e, s)) = _
  rw [h]

theorem begin_cases (engine : Engine) (hs : s.saved = none) :
    (∃ after, Act.begin engine s = (.ok (), after) ∧ Obeyed engine s after ∧ after.toOpened = s.toOpened ∧
        after.saved = some s.store) ∨
      ∃ e after, Act.begin engine s = (.error e, after) ∧ Refused engine s after e ∧ after.home = s.home ∧
        after.committed = s.store := by
  unfold Act.begin
  obtain ⟨hask, hobeyed⟩ | ⟨e, after, hask, hrefused, here, kept, -⟩ := ask_cases engine s
  · rw [bind_eq hask]
    exact .inl ⟨_, rfl, ⟨hobeyed.forward, hobeyed.done⟩, rfl, rfl⟩
  · rw [bind_eq_error hask]
    have hnow : s.committed = s.store := by rw [Session.committed, hs, Option.getD_none]
    exact .inr ⟨e, after, rfl, hrefused, here, kept.trans hnow⟩

theorem commit_cases (engine : Engine) (s : Session) :
    (∃ after, Act.commit engine s = (.ok (), after) ∧ Obeyed engine s after ∧ after.toOpened = s.toOpened ∧
        after.saved = none) ∨
      ∃ e after, Act.commit engine s = (.error e, after) ∧ Refused engine s after e ∧ after.home = s.home ∧
        after.committed = s.committed := by
  unfold Act.commit
  obtain ⟨hask, hobeyed⟩ | ⟨e, after, hask, hrefused, here, kept, -⟩ := ask_cases engine s
  · rw [bind_eq hask]
    exact .inl ⟨_, rfl, ⟨hobeyed.forward, hobeyed.done⟩, rfl, rfl⟩
  · rw [bind_eq_error hask]
    exact .inr ⟨e, after, rfl, hrefused, here, kept⟩

/-- One thing after another. -/
theorem Came.bind {act : Act α} {next : α → Act β} {first : Except Failure (α × Store)}
    {plan : Except Failure (β × Store)} (h : Came engine base s first (act s))
    (hnext : ∀ x after, after.saved = some base → first = .ok (x, after.store) →
      Came engine base after plan (next x after))
    (herror : ∀ e, first = .error e → plan = .error e) : Came engine base s plan ((act >>= next) s) := by
  generalize hact : act s = result at h
  cases h with
  | done obeyed planned here inside holds =>
    rw [bind_eq hact]
    have h' := hnext _ _ inside (holds ▸ planned)
    generalize next _ _ = result at h'
    cases h' with
    | done obeyed' planned' here' inside' holds' =>
      exact .done (obeyed.trans obeyed') planned' (here'.trans here) inside' holds'
    | failed obeyed' planned' here' kept' =>
      exact .failed (obeyed.trans obeyed') planned' (here'.trans here) kept'
    | refused refused' here' kept' => exact .refused (obeyed.refused refused') (here'.trans here) kept'
  | failed obeyed planned here kept =>
    rw [bind_eq_error hact]
    exact .failed obeyed (herror _ planned) here kept
  | refused refused here kept =>
    rw [bind_eq_error hact]
    exact .refused refused here kept

theorem came_pure (hs : s.saved = some base) (x : α) :
    Came engine base s (.ok (x, s.store)) ((pure x : Act α) s) :=
  .done (.refl engine s) rfl rfl hs rfl

theorem came_fail (hs : s.saved = some base) (e : Failure) :
    Came (α := α) engine base s (.error e) (Act.fail e s) :=
  .failed (.refl engine s) rfl rfl (committed_of_saved hs)

/-- **A statement is carried out, breaks a rule or is refused;** the transaction can be dropped in any case. -/
theorem came_statement (hs : s.saved = some base) (f : Store → Except Failure (α × Store)) :
    Came engine base s (f s.store) (Act.statement engine f s) := by
  unfold Act.statement
  obtain ⟨hask, hobeyed⟩ | ⟨e, after, hask, hrefused, here, kept, -⟩ := ask_cases engine s
  · rw [bind_eq hask, Act.change]
    split
    · next x tables heq => exact .done ⟨hobeyed.forward, hobeyed.done⟩ heq rfl hs rfl
    · next e heq => exact .failed hobeyed heq rfl (committed_of_saved hs)
  · rw [bind_eq_error hask]
    exact .refused hrefused here (kept.trans (committed_of_saved hs))

/-! ## The steps of the calls -/

/-- No row is marked just when the target has none. -/
theorem came_mark (hs : s.saved = some base) (stored : HealthSample) :
    Came engine base s
      (if s.store.targets.any fun r => r.isOf stored.targetId then
        .ok (stored, s.store.markChecked stored.targetId stored.timestamp)
      else .error ⟨.notFound, "target " ++ stored.targetId ++ " is not registered"⟩)
      (Act.mark engine stored s) := by
  refine (came_statement hs _).bind (fun touched after hafter heq => ?_) nofun
  simp only [Except.ok.injEq, Prod.mk.injEq] at heq
  obtain ⟨rfl, hmarked⟩ := heq
  by_cases hany : (s.store.targets.any fun r => r.isOf stored.targetId) = true
  · have htouched : s.store.targets.countP (fun r => r.isOf stored.targetId) ≠ 0 :=
      Nat.pos_iff_ne_zero.1 (List.countP_pos_iff.2 (List.any_eq_true.1 hany))
    rw [if_neg htouched, if_pos hany, hmarked]
    exact came_pure hafter stored
  · have htouched : s.store.targets.countP (fun r => r.isOf stored.targetId) = 0 :=
      List.countP_eq_zero.2 fun r hr hof => hany (List.any_eq_true.2 ⟨r, hr, hof⟩)
    rw [if_pos htouched, if_neg hany]
    exact came_fail hafter _

theorem came_appendSteps (hs : s.saved = some base) (sample : HealthSample) (metrics : Option MetricsSnapshot) :
    Came engine base s (appendBody sample metrics s.store) (Act.appendSteps engine sample metrics s) := by
  refine (came_statement hs _).bind (fun latest s₁ hs₁ heq => ?_) nofun
  simp only [Except.ok.injEq, Prod.mk.injEq] at heq
  obtain ⟨rfl, hstore⟩ := heq
  rw [hstore]
  unfold appendBody
  dsimp only
  generalize effectiveMillis (s₁.store.latestMillis? sample.targetId) sample.timestamp.toMillis = millis
  cases Stamp.ofMillis? millis with
  | none => exact came_fail hs₁ _
  | some timestamp =>
    cases hinsert : s₁.store.insertSample (sampleRow sample millis metrics) true with
    | error v =>
      have hinserted : Act.inserted (sampleRow sample millis metrics) s₁.store = .error ⟨.store, v.message⟩ := by
        rw [Act.inserted, hinsert]
      refine (came_statement hs₁ _).bind (fun _ s₂ _ heq => ?_) fun e heq => ?_
      · cases hinserted.symm.trans heq
      · cases hinserted.symm.trans heq
        rfl
    | ok tables =>
      have hinserted : Act.inserted (sampleRow sample millis metrics) s₁.store = .ok ((), tables) := by
        rw [Act.inserted, hinsert]
      refine (came_statement hs₁ _).bind (fun _ s₂ hs₂ heq => ?_) fun e heq => ?_
      · cases hinserted.symm.trans heq
        exact came_mark hs₂ { sample with timestamp := timestamp }
      · cases hinserted.symm.trans heq

theorem came_registerSteps (now : Stamp) (source : String) (targets : List MonitoringTarget) :
    ∀ {s : Session} (added : Nat), s.saved = some base →
      Came engine base s (.ok (targets.foldl (registerOne now source) (added, s.store)))
        (targets.foldlM (fun added t => Act.statement engine fun tables =>
          .ok (registerOne now source (added, tables) t)) added s) := by
  induction targets with
  | nil => exact fun added hs => came_pure hs added
  | cons t targets ih =>
    intro s added hs
    rw [List.foldlM_cons, List.foldl_cons]
    refine (came_statement hs _).bind (fun added' after hafter heq => ?_) nofun
    injection heq with heq
    rw [heq]
    exact ih added' hafter

end Steps

end SwarmSampler.Store
