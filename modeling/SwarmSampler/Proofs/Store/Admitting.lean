import SwarmSampler.Proofs.Store.Atomic
import SwarmSampler.Proofs.Store.Rows

/-
Which samples a store takes. An append asks four things of a sample: that there is
an instant it can be stored at, that its total is the sum of its counts, that its
id is new, and that its target is registered. A sample whose total was made from
its counts may still lack the second, for the total stops at the largest count
there is and the sum does not.
-/

namespace SwarmSampler.Store

variable {s : Store} {sample : HealthSample} {metrics : Option MetricsSnapshot} {id targetId : String}
  {time : Stamp} {r : SampleRow} {millis : Int}

/-- All that an append asks of a sample. -/
structure Admits (s : Store) (sample : HealthSample) : Prop where
  dated : (Stamp.ofMillis? (effectiveMillis (s.latestMillis? sample.targetId) sample.timestamp.toMillis)).isSome
  summed : sample.totalPeers.toNat = sample.seeders.toNat + sample.leechers.toNat
  fresh : ∀ x ∈ s.samples, x.id ≠ sample.id
  registered : s.Registered sample.targetId

/-! ## The rules of the tables -/

/-- Of the rules about its own values a sample can break only the one about its total. -/
theorem checkViolation?_sampleRow : checkViolation? (sampleRow sample millis metrics) =
    if sample.totalPeers.toNat = sample.seeders.toNat + sample.leechers.toNat then none else some .wrongTotal := by
  have hseeders : ¬ (sample.seeders.toNat : Int) < 0 := by omega
  have hleechers : ¬ (sample.leechers.toNat : Int) < 0 := by omega
  simp only [checkViolation?, sampleRow, hseeders, hleechers, Outcome.ofText?_text, if_false, ne_eq, Option.isNone_some,
    Bool.false_eq_true, ite_not]
  by_cases h : sample.totalPeers.toNat = sample.seeders.toNat + sample.leechers.toNat
  · rw [if_pos (by omega), if_pos h]
  · rw [if_neg (by omega), if_neg h]

theorem keyViolation?_eq_none_iff : s.keyViolation? r = none ↔
    (∀ x ∈ s.samplesOf r.targetId, x.millis ≠ r.millis) ∧ (∀ x ∈ s.samples, x.id ≠ r.id) ∧
      s.Registered r.targetId := by
  rw [← any_isOf_iff]
  unfold keyViolation?
  constructor
  · intro h
    split at h
    · cases h
    · next hinstant =>
      split at h
      · cases h
      · next hid =>
        split at h
        · next hregistered =>
          simp only [List.any_eq_true, decide_eq_true_eq, not_exists, not_and] at hinstant hid
          refine ⟨fun x hx => ?_, hid, hregistered⟩
          obtain ⟨hx, hown⟩ := mem_samplesOf.1 hx
          exact hinstant x hx hown
        · cases h
  · rintro ⟨hinstant, hid, hregistered⟩
    rw [if_neg, if_neg, if_pos hregistered]
    · simpa using hid
    · simp only [List.any_eq_true, decide_eq_true_eq, not_exists, not_and]
      exact fun x hx hown => hinstant x (mem_samplesOf.2 ⟨hx, hown⟩)

/-- A sample that is admitted breaks no rule, for it is stored later than all of its target. -/
theorem Admits.insertSample (h : s.Admits sample) (hd : s.Dated) :
    let row := sampleRow sample (effectiveMillis (s.latestMillis? sample.targetId) sample.timestamp.toMillis) metrics
    s.insertSample row true = .ok { s with samples := s.samples ++ [row] } := by
  intro row
  have hcheck : checkViolation? row = none := by
    rw [checkViolation?_sampleRow, if_pos h.summed]
  have hkey : s.keyViolation? row = none := by
    refine keyViolation?_eq_none_iff.2 ⟨fun x hx => ?_, h.fresh, h.registered⟩
    exact Int.ne_of_lt (lt_effectiveMillis hd sample.timestamp.toMillis hx)
  simp only [Store.insertSample, if_true, hcheck, hkey, Option.or_none]

/-! ## What an append comes to -/

/-- **A sample that is admitted is stored.** -/
theorem Admits.append (h : s.Admits sample) (hd : s.Dated) (metrics : Option MetricsSnapshot) :
    ∃ stored s', append sample metrics s = (.ok stored, s') ∧ Appended sample metrics s stored s' := by
  obtain ⟨timestamp, ht⟩ := Option.isSome_iff_exists.1 h.dated
  suffices hbody : ∃ x, appendBody sample metrics s = .ok x by
    obtain ⟨⟨stored, s'⟩, hbody⟩ := hbody
    refine ⟨stored, s', ?_, appendBody_eq_ok hbody⟩
    simp only [Store.append, transaction, hbody]
  have hregistered := any_isOf_iff.2 h.registered
  simp only [appendBody, ht, h.insertSample hd, hregistered, if_true]
  exact ⟨_, rfl⟩

/-- A store takes a sample just when it is admitted. -/
theorem append_isOk_iff (hd : s.Dated) :
    (∃ stored, (append sample metrics s).1 = .ok stored) ↔ s.Admits sample := by
  constructor
  · rintro ⟨stored, hstored⟩
    have ha := appended_of_append (Prod.ext hstored rfl : append sample metrics s = (.ok stored, _))
    refine ⟨by rw [ha.dated]; rfl, ?_, fun x hx => ha.id_fresh hx, ha.targetId_eq ▸ ha.registered⟩
    have htotal := ha.total
    rw [ha.asked] at htotal
    simp only [rowOf, sampleRow] at htotal
    omega
  · intro h
    obtain ⟨stored, s', heq, -⟩ := h.append hd metrics
    exact ⟨stored, by rw [heq]⟩

/-- A sample that does not add up is refused as that, whatever else is wrong with it, as long as it has an
instant to be stored at. -/
theorem append_of_wrongTotal
    (dated : (Stamp.ofMillis? (effectiveMillis (s.latestMillis? sample.targetId) sample.timestamp.toMillis)).isSome)
    (wrong : sample.totalPeers.toNat ≠ sample.seeders.toNat + sample.leechers.toNat) :
    append sample metrics s = (.error ⟨.store, Violation.wrongTotal.message⟩, s) := by
  obtain ⟨timestamp, ht⟩ := Option.isSome_iff_exists.1 dated
  have hbody : appendBody sample metrics s = .error ⟨.store, Violation.wrongTotal.message⟩ := by
    simp only [appendBody, ht, insertSample, if_true, checkViolation?_sampleRow, if_neg wrong, Option.some_or]
  simp only [Store.append, transaction, hbody]

/-! ## Samples made of counts -/

/-- **A sample made of counts is stored just when 32 bits can count its peers.** If they can, its total is the sum
of its counts and the append succeeds; if not, its total is the largest count, which is less than the sum, and
the append is refused for it and changes nothing. -/
theorem append_ofCounts (reachable : Reachable s) (registered : s.Registered targetId)
    (fresh : ∀ x ∈ s.samples, x.id ≠ id)
    (dated : (Stamp.ofMillis? (effectiveMillis (s.latestMillis? targetId) time.toMillis)).isSome)
    (counts : PeerCounts) (outcome : Outcome) (attempts : UInt32) (reason : Option String)
    (metrics : Option MetricsSnapshot) :
    let sample := HealthSample.ofCounts id targetId time counts outcome attempts reason
    let peers := counts.seeders.toNat + counts.leechers.toNat
    (peers < 4_294_967_296 → sample.totalPeers.toNat = peers ∧
      ∃ stored s', append sample metrics s = (.ok stored, s') ∧ Appended sample metrics s stored s') ∧
    (4_294_967_296 ≤ peers → sample.totalPeers.toNat = 4_294_967_295 ∧
      append sample metrics s = (.error ⟨.store, Violation.wrongTotal.message⟩, s)) := by
  intro sample peers
  have htotal : sample.totalPeers.toNat = min peers 4_294_967_295 := counts.toNat_total
  have hpeers : sample.seeders.toNat + sample.leechers.toNat = peers := rfl
  constructor
  · intro few
    have hsum : sample.totalPeers.toNat = peers := by omega
    have admits : s.Admits sample := ⟨dated, by rw [hpeers, hsum], fresh, registered⟩
    exact ⟨hsum, admits.append reachable.sound.dated metrics⟩
  · intro many
    have hsum : sample.totalPeers.toNat = 4_294_967_295 := by omega
    have wrong : sample.totalPeers.toNat ≠ sample.seeders.toNat + sample.leechers.toNat := by
      rw [hpeers, hsum]
      omega
    exact ⟨hsum, append_of_wrongTotal dated wrong⟩

/-- The most peers that 32 bits can count, asked for at an instant that is taken. -/
theorem append_ofCounts_brimful :
    let target : MonitoringTarget := ⟨"t", "", "", "", true⟩
    let earlier := HealthSample.ofCounts "a" "t" .epoch ⟨2, 1⟩ .ok 1 none
    let s := ((⟨⟨"store", false⟩, empty⟩ : Opened).performAll
      [.register .epoch "" [target], .append earlier none]).store
    let sample := HealthSample.ofCounts "b" "t" .epoch ⟨4_294_967_294, 1⟩ .ok 1 none
    s.Registered "t" ∧ (∀ x ∈ s.samples, x.id ≠ "b") ∧ sample.totalPeers.toNat = 4_294_967_295 ∧
      ∃ stored s', append sample none s = (.ok stored, s') ∧ Appended sample none s stored s' := by
  intro target earlier s sample
  have hregistered : s.Registered "t" := any_isOf_iff.1 (by decide +kernel)
  have hfresh : ∀ x ∈ s.samples, x.id ≠ "b" := by decide +kernel
  have hdated : (Stamp.ofMillis? (effectiveMillis (s.latestMillis? "t") Stamp.epoch.toMillis)).isSome := by
    decide +kernel
  obtain ⟨hstored, -⟩ := append_ofCounts ⟨_, _, rfl⟩ hregistered hfresh hdated ⟨4_294_967_294, 1⟩ .ok 1 none none
  exact ⟨hregistered, hfresh, hstored (by decide)⟩

/-- The largest count of seeders and one leecher more: everything an append may ask of a sample beside its total is
met, and no append stores it. -/
theorem unstored_crowd :
    let target : MonitoringTarget := ⟨"t", "", "", "", true⟩
    let s := ((⟨⟨"store", false⟩, empty⟩ : Opened).performAll [.register .epoch "" [target]]).store
    let sample := HealthSample.ofCounts "a" "t" .epoch ⟨4_294_967_295, 1⟩ .ok 1 none
    Reachable s ∧ s.Registered "t" ∧ (∀ x ∈ s.samples, x.id ≠ "a") ∧
      (Stamp.ofMillis? (effectiveMillis (s.latestMillis? "t") Stamp.epoch.toMillis)).isSome ∧
      sample.totalPeers.toNat ≠ sample.seeders.toNat + sample.leechers.toNat ∧
      (append sample none s).1 =
        .error ⟨.store, "CHECK constraint failed: total_peers = seeders + leechers"⟩ := by
  intro target s sample
  have hregistered : s.Registered "t" := any_isOf_iff.1 (by decide +kernel)
  exact ⟨⟨_, _, rfl⟩, hregistered, by decide +kernel, by decide +kernel, by decide +kernel, by decide +kernel⟩

end SwarmSampler.Store
