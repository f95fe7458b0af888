import SwarmSampler.Client.Scripted
import SwarmSampler.Proofs.Sampler.Right
import SwarmSampler.Proofs.Settings.Bounds

/-
Opening a sampler on settings that passed their check. It comes with the retry
policy of the settings, and where they have none it cannot be opened. Files can
be loaded for which that is so, since nothing keeps the pause between two polls
short.
-/

namespace SwarmSampler.Sampler

variable {κ τ σ : Type}

/-- On settings without a fault a sampler is opened if there is a policy, and has it. -/
theorem ofSettings_of_policy {settings : Settings} (accepted : settings.fault? = none) {policy : RetryPolicy}
    (h : settings.retryPolicy? = some policy) (chance : Chance) (source : TargetSource σ) (client : κ)
    (store : σ) :
    ∃ s : Sampler κ τ σ, ofSettings settings chance source client store = .ok s ∧ s.plan.policy = policy := by
  have hc : settings.check = .ok () := Settings.check_eq_ok_iff.2 accepted
  simp only [ofSettings, hc, h]
  exact ⟨_, rfl, rfl⟩

theorem ofSettings_of_no_policy {settings : Settings} (accepted : settings.fault? = none)
    (h : settings.retryPolicy? = none) (chance : Chance) (source : TargetSource σ) (client : κ) (store : σ) :
    (ofSettings settings chance source client store : Except OpenFault (Sampler κ τ σ)) =
      .error .boundTooLong := by
  have hc : settings.check = .ok () := Settings.check_eq_ok_iff.2 accepted
  simp only [ofSettings, hc, h]
  rfl

/-- A sampler is opened with the policy of its settings. -/
theorem policy_of_ofSettings {settings : Settings} {chance : Chance} {source : TargetSource σ} {client : κ}
    {store : σ} {s : Sampler κ τ σ} (h : ofSettings settings chance source client store = .ok s) :
    settings.retryPolicy? = some s.plan.policy := by
  obtain ⟨⟨u, hc⟩, -⟩ := eq_of_ofSettings h
  have accepted := Settings.check_eq_ok_iff.1 hc
  cases hp : settings.retryPolicy? with
  | none => cases (ofSettings_of_no_policy accepted hp chance source client store).symm.trans h
  | some policy =>
    obtain ⟨s', hs', rfl⟩ := ofSettings_of_policy (τ := τ) accepted hp chance source client store
    cases hs'.symm.trans h
    rfl

/-- The log of a sampler and its store can only fail with a failure. -/
theorem startLog_ne_boundTooLong {settings : Settings} {files : Files} :
    settings.startLog files ≠ .error .boundTooLong := by
  unfold Settings.startLog
  split
  · exact nofun
  · split
    · exact nofun
    · split <;> exact nofun

theorem openStore_ne_boundTooLong {settings : Settings} {files : Files} :
    openStore settings files ≠ .error .boundTooLong := by
  unfold openStore
  split <;> exact nofun

/-- Opened among files, a sampler is missing for want of a policy exactly if its log and its store are
there. -/
theorem openFrom_eq_boundTooLong_iff {settings : Settings} (accepted : settings.fault? = none)
    {chance : Chance} {client : κ} {files : Files} :
    (openFrom settings chance client files : Except OpenFault (Opened κ τ Store)) = .error .boundTooLong ↔
      settings.retryPolicy? = none ∧ ∃ logged opened, settings.startLog files = .ok logged ∧
        openStore settings logged = .ok opened := by
  have hc : settings.check = .ok () := Settings.check_eq_ok_iff.2 accepted
  simp only [openFrom, hc]
  cases hlog : settings.startLog files with
  | error f =>
    have hf : f ≠ .boundTooLong := fun e => startLog_ne_boundTooLong (e ▸ hlog)
    simp [bind, Except.bind, hf]
  | ok logged =>
    cases hstore : openStore settings logged with
    | error f =>
      have hf : f ≠ .boundTooLong := fun e => openStore_ne_boundTooLong (e ▸ hstore)
      simp [bind, Except.bind, hf, hstore]
    | ok opened =>
      obtain ⟨kept, opened⟩ := opened
      cases hp : settings.retryPolicy? with
      | none =>
        have h := ofSettings_of_no_policy (τ := τ) accepted hp chance (settings.catalog.source id) client
          opened.store
        simp [bind, Except.bind, hstore, h]
      | some policy =>
        obtain ⟨s, h, -⟩ := ofSettings_of_policy (τ := τ) accepted hp chance (settings.catalog.source id) client
          opened.store
        simp [bind, Except.bind, hstore, h, pure, Except.pure]

/-- **A policy is missing only where the polls are too far apart.** Settings that passed their check have no
retry policy exactly if an attempt's bound is beyond what a span can hold. Warm-up and query timeout take
twenty minutes of it at most, so a pause between polls that is twenty minutes short of the limit leaves a
policy with that very bound. A sampler is opened with the policy, on any store and from files; without one
it cannot be opened, and from files this shows only after the log was started and the store opened. -/
theorem opens_iff_policy (settings : Settings) (accepted : settings.fault? = none) (chance : Chance)
    (source : TargetSource σ) (client : κ) (store : σ) (files : Files) :
    (settings.retryPolicy? = none ↔ spanLimit ≤ settings.attemptBound) ∧
    (settings.pollInterval.nanos + 1_200_000_000_000 < spanLimit → ∃ policy,
      settings.retryPolicy? = some policy ∧ policy.attemptDeadline.nanos = settings.attemptBound) ∧
    (∀ policy, settings.retryPolicy? = some policy → ∃ s : Sampler κ τ σ,
      ofSettings settings chance source client store = .ok s ∧ s.plan.policy = policy) ∧
    (settings.retryPolicy? = none →
      (ofSettings settings chance source client store : Except OpenFault (Sampler κ τ σ)) =
        .error .boundTooLong) ∧
    ((openFrom settings chance client files : Except OpenFault (Opened κ τ Store)) = .error .boundTooLong ↔
      settings.retryPolicy? = none ∧ ∃ logged opened, settings.startLog files = .ok logged ∧
        openStore settings logged = .ok opened) := by
  refine ⟨Settings.retryPolicy?_eq_none_iff, ?_, ?_, ?_, openFrom_eq_boundTooLong_iff accepted⟩
  · intro hpoll
    have hengine := (Settings.fault?_eq_none_iff.1 accepted).engine_le
    have hslack : Settings.minAttemptSlack.nanos = 1_000_000_000 := by decide
    have hbound : settings.attemptBound < spanLimit := by
      unfold Settings.attemptBound spanLimit at *
      omega
    exact ⟨_, Settings.retryPolicy?_of_lt hbound, rfl⟩
  · exact fun policy h => ofSettings_of_policy accepted h chance source client store
  · exact fun h => ofSettings_of_no_policy accepted h chance source client store

/-- The standard settings have a policy, and a sampler is opened on them. -/
theorem opens_iff_policy_standard :
    Settings.standard.fault? = none ∧ ∃ policy s, Settings.standard.retryPolicy? = some policy ∧
      policy.attemptDeadline = Span.ofMillis 16000 ∧
      (ofSettings Settings.standard .still (.ofList []) () () : Except OpenFault (Sampler Unit Unit Unit)) =
        .ok s ∧ s.plan.policy = policy := by
  have accepted : Settings.standard.fault? = none := by decide
  obtain ⟨-, policy, opened, -, -⟩ := opens_iff_policy (τ := Unit) Settings.standard accepted .still (.ofList []) () ()
    .empty
  obtain ⟨policy, hpolicy, hbound⟩ := policy (by decide)
  obtain ⟨s, hs, hplan⟩ := opened policy hpolicy
  exact ⟨accepted, policy, s, hpolicy, Span.ext_nanos (hbound.trans (by decide)), hs, hplan⟩

/-! ## Files whose polls are too far apart -/

/-- A file that sets the pause between polls to the longest that whole seconds can give. -/
def farPolls : Files :=
  ⟨[(["sampler.yaml".toList], .file "poll_interval: 18446744073709551615s".toUTF8.toList)]⟩

/-- The standard settings but for that pause. -/
def farPollSettings : Settings :=
  { Settings.standard with pollInterval := ⟨18_446_744_073_709_551_615_000_000_000, by decide⟩ }

/-- The file is loaded, nothing is wrong with the settings in it, and they have no policy: no sampler is
opened on them. -/
theorem loaded_without_policy :
    Settings.load farPolls "sampler.yaml" = .ok farPollSettings ∧ farPollSettings.fault? = none ∧
    farPollSettings.retryPolicy? = none ∧
    (ofSettings farPollSettings .still (.ofList []) () () : Except OpenFault (Sampler Unit Unit Unit)) =
      .error .boundTooLong ∧
    (openFrom farPollSettings .still () farPolls : Except OpenFault (Opened Unit Unit Store)) =
      .error .boundTooLong := by
  have loads : Settings.load farPolls "sampler.yaml" = .ok farPollSettings := by
    have h : (Settings.load farPolls "sampler.yaml").toOption = some farPollSettings := by decide +kernel
    cases hl : Settings.load farPolls "sampler.yaml" with
    | error f =>
      rw [hl] at h
      cases h
    | ok s =>
      rw [hl] at h
      exact congrArg _ (Option.some.inj h)
  have accepted := Settings.fault?_of_load loads
  have none : farPollSettings.retryPolicy? = none := Settings.retryPolicy?_eq_none_iff.2 (by decide)
  refine ⟨loads, accepted, none, ofSettings_of_no_policy accepted none .still (.ofList []) () (), ?_⟩
  exact (openFrom_eq_boundTooLong_iff accepted).2 ⟨none, _, _, rfl, rfl⟩

end SwarmSampler.Sampler
