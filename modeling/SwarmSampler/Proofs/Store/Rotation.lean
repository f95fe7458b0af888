import Mathlib.Algebra.Order.BigOperators.Group.List
import Mathlib.Algebra.Order.Ring.Nat
import Mathlib.Data.List.Perm.Subperm
import Mathlib.Data.List.Permutation
import SwarmSampler.Proofs.Store.Due

/-
Checking the due targets in rounds, a batch at a time. Whatever is checked goes
behind all that is not, so a target is not due again before every other one has
been; and as many rounds as it takes batches to hold all targets reach them all.
Samples are to come in later milliseconds than all before them, for the store
keeps whole milliseconds and knows no order within one.
-/

namespace SwarmSampler.Store

variable {s s' s'' : Store} {sample stored : HealthSample} {metrics : Option MetricsSnapshot}
  {limit : UInt64} {x y : MonitoringTarget} {order targets : List MonitoringTarget}
  {taken : List (List MonitoringTarget)}

/-! ## Rounds -/

/-- A time in a later millisecond than all samples of a store. -/
def LaterMilli (s : Store) (time : Stamp) : Prop := ∀ x ∈ s.samples, x.millis < time.toMillis

instance (s : Store) (time : Stamp) : Decidable (s.LaterMilli time) :=
  inferInstanceAs (Decidable (∀ x ∈ s.samples, _))

/-- A time later than all samples of a store. -/
def LaterInstant (s : Store) (time : Stamp) : Prop :=
  ∀ x ∈ s.samples, ∀ t ∈ Stamp.ofMillis? x.millis,
    t.second < time.second ∨ t.second = time.second ∧ t.nano < time.nano

instance (s : Store) (time : Stamp) : Decidable (s.LaterInstant time) :=
  inferInstanceAs (Decidable (∀ x ∈ s.samples, _))

/-- A sample is appended for each of some targets, one after another, with a time that is later in
some sense than all samples already there, and stored in a year of four digits. -/
inductive Checked (later : Store → Stamp → Prop) : Store → List MonitoringTarget → Store → Prop
  | nil (s : Store) : Checked later s [] s
  | cons {s s' s'' : Store} {t : MonitoringTarget} {ts : List MonitoringTarget}
      (sample : HealthSample) (metrics : Option MetricsSnapshot) (stored : HealthSample)
      (own : sample.targetId = t.id) (requested : later s sample.timestamp)
      (kept : append sample metrics s = (.ok stored, s')) (year : stored.timestamp.FourDigit)
      (rest : Checked later s' ts s'') : Checked later s (t :: ts) s''

/-- One round: the targets that are due up to a limit are checked, in any order. -/
structure Round (later : Store → Stamp → Prop) (limit : UInt64) (s : Store)
    (targets : List MonitoringTarget) (s' : Store) : Prop where
  listed : s.eligibleTargets (some limit) = .ok targets
  checked : ∃ order, order.Perm targets ∧ Checked later s order s'

/-- Rounds one after another, and the targets that each took. -/
inductive Rounds (later : Store → Stamp → Prop) (limit : UInt64) :
    Store → List (List MonitoringTarget) → Store → Prop
  | nil (s : Store) : Rounds later limit s [] s
  | cons {s s' s'' : Store} {targets : List MonitoringTarget} {taken : List (List MonitoringTarget)}
      (round : Round later limit s targets s') (rest : Rounds later limit s' taken s'') :
      Rounds later limit s (targets :: taken) s''

/-- The target was returned in a round. -/
def Returned (taken : List (List MonitoringTarget)) (k : Nat) (t : MonitoringTarget) : Prop :=
  ∃ targets, taken[k]? = some targets ∧ t ∈ targets

/-! ## One sample -/

/-- What an append leaves of a store for listings of what is due. -/
structure Follows (s s' : Store) : Prop where
  reachable : Reachable s → Reachable s'
  years : s.FourDigits → s'.FourDigits
  eligible : ∀ t, s'.IsEligible t ↔ s.IsEligible t

theorem Follows.refl (s : Store) : Follows s s := ⟨id, id, fun _ => .rfl⟩

theorem Follows.trans (h : Follows s s') (h' : Follows s' s'') : Follows s s'' :=
  ⟨h'.reachable ∘ h.reachable, h'.years ∘ h.years, fun t => (h'.eligible t).trans (h.eligible t)⟩

/-- The marks of a check leave a row as eligible as it was. -/
theorem Appended.isEligible_iff (h : Appended sample metrics s stored s') (t : MonitoringTarget) :
    s'.IsEligible t ↔ s.IsEligible t := by
  have hiff : ∀ s : Store, s.IsEligible t ↔
      ∃ r ∈ s.targets.map TargetRow.registered, markedEligible r = true ∧ readTarget r = .ok t := by
    intro s
    simp only [List.mem_map, exists_exists_and_eq_and]
    rfl
  rw [hiff, hiff, h.registered_eq]

/-- A requested time in a later millisecond is stored as it is, but for what is less than one. -/
theorem Appended.toMillis_eq (h : Appended sample metrics s stored s')
    (later : s.LaterMilli sample.timestamp) : stored.timestamp.toMillis = sample.timestamp.toMillis := by
  rw [Stamp.toMillis_of_ofMillis? h.dated]
  cases hlast : s.latestMillis? sample.targetId with
  | none => rfl
  | some last =>
    obtain ⟨⟨x, hx, rfl⟩, -⟩ := latestMillis?_eq_some hlast
    have hlt := later x (mem_samplesOf.1 hx).1
    rw [effectiveMillis, if_neg (by omega)]

theorem Appended.follows (h : Appended sample metrics s stored s') (year : stored.timestamp.FourDigit)
    (reachable : Reachable s → Reachable s') : Follows s s' where
  reachable := reachable
  years hyears x hx t ht := by
    rcases h.mem_samples hx with hx | rfl
    · exact hyears x hx t ht
    · cases h.ofMillis?.symm.trans ht
      exact year
  eligible := h.isEligible_iff

theorem latest_lt {time : Stamp} (later : s.LaterMilli time) {id : String} {n : Int}
    (h : s.latestMillis? id = some n) : n < time.toMillis := by
  obtain ⟨⟨x, hx, rfl⟩, -⟩ := latestMillis?_eq_some h
  exact later x (mem_samplesOf.1 hx).1

section Append

variable (h : Appended sample metrics s stored s')
include h

theorem Appended.latest_self (later : s.LaterMilli sample.timestamp) :
    s'.latestMillis? sample.targetId = some sample.timestamp.toMillis := by
  have hrows : s'.samplesOf sample.targetId = s.samplesOf sample.targetId ++ [rowOf stored metrics] := by
    rw [h.samplesOf_eq, h.targetId_eq, if_pos rfl]
  have hmillis : (rowOf stored metrics).millis = sample.timestamp.toMillis := h.toMillis_eq later
  have hmem : rowOf stored metrics ∈ s'.samplesOf sample.targetId := by
    rw [hrows]
    exact List.mem_append_right _ List.mem_cons_self
  refine List.max?_eq_some_iff.2 ⟨hmillis ▸ List.mem_map_of_mem hmem, fun n hn => ?_⟩
  obtain ⟨x, hx, rfl⟩ := List.mem_map.1 hn
  have hx : x ∈ s'.samplesOf sample.targetId := hx
  rw [hrows] at hx
  rcases List.mem_append.1 hx with hx | hx
  · exact Int.le_of_lt (later x (mem_samplesOf.1 hx).1)
  · exact Int.le_of_eq ((congrArg SampleRow.millis (List.mem_singleton.1 hx)).trans hmillis)

theorem Appended.latest_other {id : String} (other : id ≠ sample.targetId) :
    s'.latestMillis? id = s.latestMillis? id := by
  have hrows : s'.samplesOf id = s.samplesOf id := by
    rw [h.samplesOf_eq, h.targetId_eq, if_neg (Ne.symm other), List.append_nil]
  exact congrArg (fun rows : List SampleRow => (rows.map (·.millis)).max?) hrows

/-- No target's newest sample gets older. -/
theorem Appended.latest_le (later : s.LaterMilli sample.timestamp) {id : String} {n : Int}
    (hn : s.latestMillis? id = some n) : ∃ n', s'.latestMillis? id = some n' ∧ n ≤ n' := by
  by_cases hid : id = sample.targetId
  · subst hid
    exact ⟨_, h.latest_self later, Int.le_of_lt (latest_lt later hn)⟩
  · exact ⟨n, (h.latest_other hid).trans hn, Int.le_refl n⟩

end Append

/-! ## One round -/

/-- The newest sample of a target is newer than all there were in a store. -/
def Renewed (s s' : Store) (id : String) : Prop :=
  ∃ last, s'.latestMillis? id = some last ∧ ∀ id' n, s.latestMillis? id' = some n → n < last

/-- **Checking some targets gives each a newer sample than there was, and leaves the others' as they
are.** -/
theorem Checked.spec (h : Checked LaterMilli s order s') : Follows s s' ∧
    (∀ x ∈ order, Renewed s s' x.id) ∧
      ∀ id, id ∉ order.map (·.id) → s'.latestMillis? id = s.latestMillis? id := by
  induction h with
  | nil s => exact ⟨.refl s, nofun, fun _ _ => rfl⟩
  | @cons s s' s'' t ts sample metrics stored own later kept year _ ih =>
    have ha := appended_of_append kept
    have hreachable : Reachable s → Reachable s' := fun hr => by
      have := hr.append sample metrics
      rwa [kept] at this
    obtain ⟨hfollows, hrenewed, hothers⟩ := ih
    -- Newer than all there are after the first sample is newer than all there were before it.
    have hlater : ∀ {id}, Renewed s' s'' id → Renewed s s'' id := by
      rintro id ⟨last, hlast, hnewer⟩
      refine ⟨last, hlast, fun id' n hn => ?_⟩
      obtain ⟨n', hn', hle⟩ := ha.latest_le later hn
      exact Int.lt_of_le_of_lt hle (hnewer id' n' hn')
    refine ⟨(ha.follows year hreachable).trans hfollows, ?_, fun id hid => ?_⟩
    · rintro x (_ | ⟨_, hx⟩)
      · by_cases hagain : t.id ∈ ts.map (·.id)
        · obtain ⟨u, hu, hid⟩ := List.mem_map.1 hagain
          exact hlater (hid ▸ hrenewed u hu)
        · have hself := ha.latest_self later
          rw [own] at hself
          exact ⟨_, (hothers t.id hagain).trans hself, fun id' n hn => latest_lt later hn⟩
      · exact hlater (hrenewed x hx)
    · rw [List.map_cons, List.mem_cons, not_or] at hid
      rw [hothers id hid.2, ha.latest_other (own ▸ hid.1)]

section Round

variable (round : Round LaterMilli limit s targets s')
include round

theorem Round.follows : Follows s s' := by
  obtain ⟨order, -, hchecked⟩ := round.checked
  exact hchecked.spec.1

/-- Whoever was checked goes behind whoever was not. -/
theorem Round.behind (hx : x ∈ targets) (hy : y.id ∉ targets.map (·.id)) : s'.Staler y.id x.id := by
  obtain ⟨order, hperm, hchecked⟩ := round.checked
  obtain ⟨-, hrenewed, hothers⟩ := hchecked.spec
  obtain ⟨last, hlast, hnewer⟩ := hrenewed x (hperm.mem_iff.2 hx)
  refine ⟨last, hlast, fun n hn => hnewer y.id n ?_⟩
  rwa [hothers y.id fun hm => hy ((hperm.map _).mem_iff.1 hm)] at hn

/-- Whoever is behind another that is not checked stays behind. -/
theorem Round.stays (staler : s.Staler y.id x.id) (hy : y.id ∉ targets.map (·.id)) : s'.Staler y.id x.id := by
  by_cases hx : x.id ∈ targets.map (·.id)
  · obtain ⟨u, hu, hid⟩ := List.mem_map.1 hx
    exact hid ▸ round.behind hu hy
  · obtain ⟨order, hperm, hchecked⟩ := round.checked
    obtain ⟨-, -, hothers⟩ := hchecked.spec
    obtain ⟨last, hlast, hbefore⟩ := staler
    have hsame : ∀ {id}, id ∉ targets.map (·.id) → s'.latestMillis? id = s.latestMillis? id :=
      fun hid => hothers _ fun hm => hid ((hperm.map _).mem_iff.1 hm)
    refine ⟨last, (hsame hx).trans hlast, fun n hn => hbefore n ?_⟩
    rwa [hsame hy] at hn

end Round

theorem length_limited {α : Type} {l : List α} (fits : limit.toNat ≤ l.length) :
    limit.toNat ≤ (limited (some limit) l).length := by
  simp only [limited]
  split
  · rw [List.length_take, Nat.min_eq_left fits]
  · exact fits

section Listed

variable {all : List MonitoringTarget} (reachable : Reachable s) (years : s.FourDigits)
include reachable years

/-- A listing without a limit has each eligible target once. -/
theorem all_spec (eligible : s.eligibleTargets none = .ok all) :
    all.Nodup ∧ ∀ t, t ∈ all ↔ s.IsEligible t := by
  obtain ⟨due, hlists, hnodup, hmem, -⟩ := due_spec reachable years
  cases eligible.symm.trans (hlists none)
  exact ⟨hnodup, hmem⟩

/-- A limited listing has different eligible targets, and no target without all that are staler. -/
theorem listed_spec (listed : s.eligibleTargets (some limit) = .ok targets) :
    targets.Nodup ∧ (∀ t ∈ targets, s.IsEligible t) ∧
      ∀ t ∈ targets, ∀ u, s.IsEligible u → s.Staler u.id t.id → u ∈ targets := by
  obtain ⟨due, hlists, hnodup, hmem, hsorted⟩ := due_spec reachable years
  cases listed.symm.trans (hlists (some limit))
  have hinitial := limited_initial (some limit) due
  refine ⟨hnodup.sublist hinitial.sublist, fun t ht => (hmem t).1 (hinitial.subset ht), ?_⟩
  intro t ht u hu hstaler
  by_contra hout
  exact (pairwise_of_initial hinitial hsorted).2 t ht u ((hmem u).2 hu) hout hstaler

/-- A limited listing is as long as its limit, if there are so many eligible targets. -/
theorem listed_length (eligible : ∀ t, t ∈ all ↔ s.IsEligible t) (nodup : all.Nodup)
    (fits : limit.toNat ≤ all.length) :
    ∃ targets, s.eligibleTargets (some limit) = .ok targets ∧ limit.toNat ≤ targets.length := by
  obtain ⟨due, hlists, hnodup, hmem, -⟩ := due_spec reachable years
  have hperm : due.Perm all :=
    (List.perm_ext_iff_of_nodup hnodup nodup).2 fun t => (hmem t).trans (eligible t).symm
  exact ⟨_, hlists _, length_limited (hperm.length_eq ▸ fits)⟩

end Listed

/-- An eligible target that is not among some eligible ones has none of their ids. -/
theorem not_mem_ids (reachable : Reachable s) (eligible : ∀ t ∈ targets, s.IsEligible t)
    (hy : s.IsEligible y) (absent : y ∉ targets) : y.id ∉ targets.map (·.id) := by
  intro hm
  obtain ⟨u, hu, heq⟩ := List.mem_map.1 hm
  exact absent ((eligible u hu).eq_of_id reachable hy heq ▸ hu)

/-! ## Rounds after rounds -/

theorem Returned.zero : Returned (targets :: taken) 0 x ↔ x ∈ targets := by
  simp [Returned]

theorem Returned.succ {k : Nat} : Returned (targets :: taken) (k + 1) x ↔ Returned taken k x := by
  simp [Returned]

/-- A target ahead of another is returned before the other is, or with it. -/
theorem Rounds.returned_before (rounds : Rounds LaterMilli limit s taken s') (reachable : Reachable s)
    (years : s.FourDigits) (hy : s.IsEligible y) (staler : s.Staler y.id x.id) {j : Nat}
    (hx : Returned taken j x) : ∃ k ≤ j, Returned taken k y := by
  induction rounds generalizing j with
  | nil s =>
    obtain ⟨_, h, -⟩ := hx
    cases h
  | @cons s s' s'' targets taken round _ ih =>
    by_cases hmem : y ∈ targets
    · exact ⟨0, Nat.zero_le j, Returned.zero.2 hmem⟩
    · obtain ⟨-, heligible, hstale⟩ := listed_spec reachable years round.listed
      cases j with
      | zero => exact absurd (hstale x (Returned.zero.1 hx) y hy staler) hmem
      | succ j =>
        have hid := not_mem_ids reachable heligible hy hmem
        have hf := round.follows
        obtain ⟨k, hk, hreturned⟩ := ih (hf.reachable reachable) (hf.years years) ((hf.eligible y).2 hy)
          (round.stays staler hid) (Returned.succ.1 hx)
        exact ⟨k + 1, Nat.succ_le_succ hk, Returned.succ.2 hreturned⟩

/-- **Between two rounds that return one target every other one is returned.** -/
theorem Rounds.returned_between (rounds : Rounds LaterMilli limit s taken s') (reachable : Reachable s)
    (years : s.FourDigits) (hy : s.IsEligible y) {i j : Nat} (hij : i < j) (hi : Returned taken i x)
    (hj : Returned taken j x) : ∃ k, i ≤ k ∧ k ≤ j ∧ Returned taken k y := by
  induction rounds generalizing i j with
  | nil s =>
    obtain ⟨_, h, -⟩ := hi
    cases h
  | @cons s s' s'' targets taken round rest ih =>
    have hf := round.follows
    have hy' := (hf.eligible y).2 hy
    obtain ⟨j, rfl⟩ : ∃ j', j = j' + 1 := ⟨j - 1, by omega⟩
    have hj := Returned.succ.1 hj
    cases i with
    | zero =>
      by_cases hmem : y ∈ targets
      · exact ⟨0, Nat.le_refl 0, Nat.zero_le _, Returned.zero.2 hmem⟩
      · obtain ⟨-, heligible, -⟩ := listed_spec reachable years round.listed
        have hid := not_mem_ids reachable heligible hy hmem
        obtain ⟨k, hk, hreturned⟩ := rest.returned_before (hf.reachable reachable) (hf.years years) hy'
          (round.behind (Returned.zero.1 hi) hid) hj
        exact ⟨k + 1, Nat.zero_le _, Nat.succ_le_succ hk, Returned.succ.2 hreturned⟩
    | succ i =>
      obtain ⟨k, hik, hkj, hreturned⟩ := ih (hf.reachable reachable) (hf.years years) hy'
        (Nat.lt_of_succ_lt_succ hij) (Returned.succ.1 hi) hj
      exact ⟨k + 1, Nat.succ_le_succ hik, Nat.succ_le_succ hkj, Returned.succ.2 hreturned⟩

/-- What the rounds left of the store, and what each returned. -/
theorem Rounds.spec (rounds : Rounds LaterMilli limit s taken s') (reachable : Reachable s) (years : s.FourDigits)
    {all : List MonitoringTarget} (nodup : all.Nodup) (eligible : ∀ t, t ∈ all ↔ s.IsEligible t)
    (fits : limit.toNat ≤ all.length) : Follows s s' ∧
      ∀ targets ∈ taken, targets.Nodup ∧ targets ⊆ all ∧ limit.toNat ≤ targets.length := by
  induction rounds with
  | nil s => exact ⟨.refl s, fun _ h => nomatch h⟩
  | @cons s s' s'' targets taken round rest ih =>
    have hf := round.follows
    obtain ⟨hfollows, hall⟩ := ih (hf.reachable reachable) (hf.years years)
      fun t => (eligible t).trans (hf.eligible t).symm
    refine ⟨hf.trans hfollows, ?_⟩
    rintro _ (_ | ⟨_, hm⟩)
    · obtain ⟨hnodup, heligible, -⟩ := listed_spec reachable years round.listed
      obtain ⟨_, hlisted, hlong⟩ := listed_length reachable years eligible nodup fits
      cases hlisted.symm.trans round.listed
      exact ⟨hnodup, fun t ht => (eligible t).2 (heligible t ht), hlong⟩
    · exact hall _ hm

/-- Lists of so many members each have so many together. -/
theorem length_mul_le_flatten {α : Type} {b : Nat} {ls : List (List α)} (long : ∀ l ∈ ls, b ≤ l.length) :
    ls.length * b ≤ ls.flatten.length := by
  have hsum := List.card_nsmul_le_sum (ls.map List.length) b fun n hn => by
    obtain ⟨l, hl, rfl⟩ := List.mem_map.1 hn
    exact long l hl
  rwa [List.length_map, Nat.nsmul_eq_mul, ← List.length_flatten] at hsum

/-- Lists without repeats that share no members, all among some that one more is among, have fewer
members together. -/
theorem flatten_length_lt {α : Type} {ls : List (List α)} {all : List α} {y : α}
    (nodup : ∀ l ∈ ls, l.Nodup) (apart : ls.Pairwise List.Disjoint) (among : ∀ l ∈ ls, l ⊆ all)
    (hy : y ∈ all) (missing : ∀ l ∈ ls, y ∉ l) : ls.flatten.length < all.length := by
  have hnodup : (y :: ls.flatten).Nodup := by
    refine List.nodup_cons.2 ⟨fun hm => ?_, List.nodup_flatten.2 ⟨nodup, apart⟩⟩
    obtain ⟨l, hl, hm⟩ := List.mem_flatten.1 hm
    exact missing l hl hm
  have hsub : y :: ls.flatten ⊆ all := by
    rintro x (_ | ⟨_, hm⟩)
    · exact hy
    · obtain ⟨l, hl, hm⟩ := List.mem_flatten.1 hm
      exact among l hl hm
  exact (hnodup.subperm hsub).length_le

/-- **So many rounds in a row that their batches could hold all eligible targets return each of them.** -/
theorem Rounds.returned_within (rounds : Rounds LaterMilli limit s taken s') (reachable : Reachable s)
    (years : s.FourDigits) {all : List MonitoringTarget} (nodup : all.Nodup)
    (eligible : ∀ t, t ∈ all ↔ s.IsEligible t) (fits : limit.toNat ≤ all.length) {i n : Nat}
    (enough : all.length ≤ n * limit.toNat) (inside : i + n ≤ taken.length) (hy : y ∈ all) :
    ∃ k, i ≤ k ∧ k < i + n ∧ Returned taken k y := by
  by_contra hnone
  let window := (taken.drop i).take n
  have hlength : window.length = n := by
    rw [List.length_take, List.length_drop]
    omega
  have hreturned : ∀ (k : Nat) (hk : k < window.length) (t : MonitoringTarget), t ∈ window[k] →
      Returned taken (i + k) t := by
    intro k hk t ht
    refine ⟨window[k], ?_, ht⟩
    rw [← List.getElem?_eq_getElem hk, List.getElem?_take_of_lt (hlength ▸ hk), List.getElem?_drop]
  have hspec := (rounds.spec reachable years nodup eligible fits).2
  have hwindow : ∀ l ∈ window, l.Nodup ∧ l ⊆ all ∧ limit.toNat ≤ l.length :=
    fun l hl => hspec l (List.mem_of_mem_drop (List.mem_of_mem_take hl))
  -- A target that two of these rounds returned would have the missing one between.
  have hapart : window.Pairwise List.Disjoint := by
    refine List.pairwise_iff_getElem.2 fun a b ha hb hab x hxa hxb => ?_
    obtain ⟨k, hak, hkb, hy⟩ := rounds.returned_between reachable years ((eligible y).1 hy)
      (Nat.add_lt_add_left hab i) (hreturned a ha x hxa) (hreturned b hb x hxb)
    exact hnone ⟨k, by omega, by omega, hy⟩
  have hmissing : ∀ l ∈ window, y ∉ l := by
    intro l hl hyl
    obtain ⟨k, hk, rfl⟩ := List.mem_iff_getElem.1 hl
    exact hnone ⟨i + k, by omega, by omega, hreturned k hk y hyl⟩
  have hmany := length_mul_le_flatten fun l hl => (hwindow l hl).2.2
  have hfew := flatten_length_lt (fun l hl => (hwindow l hl).1) hapart
    (fun l hl => (hwindow l hl).2.1) hy hmissing
  rw [hlength] at hmany
  omega

/-- A listing of two eligible targets. -/
theorem eligibleTargets_pair {r r' : TargetRow} (rows : s.targets.filter markedEligible = [r, r'])
    (limit : Option UInt64) : s.eligibleTargets limit =
      report ((limited limit (if dueBefore r r' then [r, r'] else [r', r])).mapM readTarget) := by
  rw [eligibleTargets, dueRows, rows]
  simp [List.mergeSort, List.merge]

/-- The store after an append that succeeds. -/
theorem append_eq_of_kept (kept : (append sample metrics s).1 = .ok stored) : append sample metrics s =
    (.ok stored, { s.markChecked stored.targetId stored.timestamp with
      samples := s.samples ++ [rowOf stored metrics] }) :=
  Prod.ext kept (appended_of_append (Prod.ext kept rfl)).after

/-- A round that takes one target. -/
theorem Round.one {later : Store → Stamp → Prop} (sample : HealthSample) (metrics : Option MetricsSnapshot)
    (stored : HealthSample) (listed : s.eligibleTargets (some limit) = .ok [x]) (own : sample.targetId = x.id)
    (requested : later s sample.timestamp) (kept : (append sample metrics s).1 = .ok stored)
    (year : stored.timestamp.FourDigit) : Round later limit s [x]
      { s.markChecked stored.targetId stored.timestamp with samples := s.samples ++ [rowOf stored metrics] } :=
  ⟨listed, _, .refl _, .cons sample metrics stored own requested (append_eq_of_kept kept) year (.nil _)⟩

/-- **Rotation without starvation.** Rounds that each check the targets that are due up to a limit go
on without end: the next listing always has as many different eligible targets as the limit says.
Whenever a target is returned in two rounds, every other eligible target is returned in one of them
or between; and any rounds in a row whose batches could hold all eligible targets return each. -/
theorem rotation_without_starvation {all : List MonitoringTarget} (reachable : Reachable s) (years : s.FourDigits)
    (eligible : s.eligibleTargets none = .ok all) (positive : 1 ≤ limit.toNat) (fits : limit.toNat ≤ all.length)
    (rounds : Rounds LaterMilli limit s taken s') :
    (∃ next, s'.eligibleTargets (some limit) = .ok next ∧ next.Nodup ∧ next ⊆ all ∧
        limit.toNat ≤ next.length) ∧
      (∀ x y i j, y ∈ all → i < j → Returned taken i x → Returned taken j x →
        ∃ k, i ≤ k ∧ k ≤ j ∧ Returned taken k y) ∧
      ∀ y i, y ∈ all → i + (all.length + limit.toNat - 1) / limit.toNat ≤ taken.length →
        ∃ k, i ≤ k ∧ k < i + (all.length + limit.toNat - 1) / limit.toNat ∧ Returned taken k y := by
  obtain ⟨hnodup, hmem⟩ := all_spec reachable years eligible
  have hf := (rounds.spec reachable years hnodup hmem fits).1
  have hmem' : ∀ t, t ∈ all ↔ s'.IsEligible t := fun t => (hmem t).trans (hf.eligible t).symm
  refine ⟨?_, fun x y i j hy hij => ?_, fun y i hy inside => ?_⟩
  · obtain ⟨next, hnext, hlong⟩ := listed_length (hf.reachable reachable) (hf.years years) hmem' hnodup fits
    obtain ⟨hnextNodup, heligible, -⟩ := listed_spec (hf.reachable reachable) (hf.years years) hnext
    exact ⟨next, hnext, hnextNodup, fun t ht => (hmem' t).2 (heligible t ht), hlong⟩
  · exact rounds.returned_between reachable years ((hmem y).1 hy) hij
  · refine rounds.returned_within reachable years hnodup hmem fits ?_ inside hy
    have hceil := Nat.div_add_mod (all.length + limit.toNat - 1) limit.toNat
    have hmod := Nat.mod_lt (all.length + limit.toNat - 1) positive
    rw [Nat.mul_comm]
    omega

/-- Two of three targets at a time: `c` is returned between the two rounds that return `a`. -/
theorem rotation_of_three :
    let target (id : String) : MonitoringTarget := ⟨id, "", "", "", true⟩
    let all := [target "a", target "b", target "c"]
    let s := ((⟨⟨"store", false⟩, empty⟩ : Opened).performAll [.register .epoch "" all]).store
    let taken := [[target "a", target "b"], [target "c", target "a"]]
    ∃ s', Rounds LaterMilli 2 s taken s' ∧ ∃ k, 0 ≤ k ∧ k ≤ 1 ∧ Returned taken k (target "c") := by
  intro target all s taken
  let a₁ : HealthSample := ⟨"1", "a", ⟨0, 1_000_000, by decide, by decide⟩, 2, 1, 3, .ok, 1, none⟩
  let b₁ : HealthSample := ⟨"2", "b", ⟨0, 2_000_000, by decide, by decide⟩, 2, 1, 3, .ok, 1, none⟩
  let c₁ : HealthSample := ⟨"3", "c", ⟨0, 3_000_000, by decide, by decide⟩, 2, 1, 3, .ok, 1, none⟩
  let a₂ : HealthSample := ⟨"4", "a", ⟨0, 4_000_000, by decide, by decide⟩, 2, 1, 3, .ok, 1, none⟩
  have hrounds : ∃ s', Rounds LaterMilli 2 s taken s' := by
    refine ⟨_, .cons ⟨by cbv, _, .refl _, .cons a₁ none a₁ rfl ?_ (append_eq_of_kept ?_) ?_
          (.cons b₁ none b₁ rfl ?_ (append_eq_of_kept ?_) ?_ (.nil _))⟩
        (.cons ⟨by cbv, _, .refl _, .cons c₁ none c₁ rfl ?_ (append_eq_of_kept ?_) ?_
          (.cons a₂ none a₂ rfl ?_ (append_eq_of_kept ?_) ?_ (.nil _))⟩ (.nil _))⟩
    all_goals decide +kernel
  obtain ⟨s', hrounds⟩ := hrounds
  refine ⟨s', hrounds, ?_⟩
  have hreachable : Reachable s := ⟨_, _, rfl⟩
  have hall : s.eligibleTargets none = .ok all := by cbv
  exact (rotation_without_starvation hreachable (by decide +kernel) hall (by decide) (by decide) hrounds).2.1
    (target "a") (target "c") 0 1 (by decide) (by decide) ⟨_, rfl, by decide⟩ ⟨_, rfl, by decide⟩

/-- Within one millisecond a later time is no later: a sample of `b` and the next one of `a` are stored
at one time, and `a`, registered last, is returned again before `b` is. -/
theorem starved_within_millisecond :
    let a : MonitoringTarget := ⟨"a", "", "", "", true⟩
    let b : MonitoringTarget := ⟨"b", "", "", "", true⟩
    let calls := [.register .epoch "" [b], .register ⟨0, 1_000_000, by decide, by decide⟩ "" [a]]
    let s := ((⟨⟨"store", false⟩, empty⟩ : Opened).performAll calls).store
    let taken := [[a], [b], [a], [a]]
    s.eligibleTargets none = .ok [a, b] ∧ (∃ s', Rounds LaterInstant 1 s taken s') ∧
      Returned taken 2 a ∧ Returned taken 3 a ∧ ¬ ∃ k, 2 ≤ k ∧ k ≤ 3 ∧ Returned taken k b := by
  intro a b calls s taken
  let a₁ : HealthSample := ⟨"1", "a", ⟨0, 2_000_000, by decide, by decide⟩, 2, 1, 3, .ok, 1, none⟩
  let b₂ : HealthSample := ⟨"2", "b", ⟨0, 3_000_000, by decide, by decide⟩, 2, 1, 3, .ok, 1, none⟩
  let a₂ : HealthSample := ⟨"3", "a", ⟨0, 3_000_000, by decide, by decide⟩, 2, 1, 3, .ok, 1, none⟩
  let a₃ : HealthSample := ⟨"4", "a", ⟨0, 4_000_000, by decide, by decide⟩, 2, 1, 3, .ok, 1, none⟩
  let requested : HealthSample := { a₂ with timestamp := ⟨0, 3_500_000, by decide, by decide⟩ }
  have hall : s.eligibleTargets none = .ok [a, b] := by
    rw [eligibleTargets_pair rfl]
    decide +kernel
  have hrounds : ∃ s', Rounds LaterInstant 1 s taken s' := by
    refine ⟨_, .cons (.one a₁ none a₁ ?_ rfl ?_ ?_ ?_) (.cons (.one b₂ none b₂ ?_ rfl ?_ ?_ ?_)
      (.cons (.one requested none a₂ ?_ rfl ?_ ?_ ?_) (.cons (.one a₃ none a₃ ?_ rfl ?_ ?_ ?_) (.nil _))))⟩
    all_goals first
      | rw [eligibleTargets_pair rfl]; decide +kernel
      | decide +kernel
  refine ⟨hall, hrounds, ⟨_, rfl, List.mem_cons_self⟩, ⟨_, rfl, List.mem_cons_self⟩, ?_⟩
  rintro ⟨k, hk₂, hk₃, targets, htargets, hb⟩
  obtain rfl | rfl : k = 2 ∨ k = 3 := by omega
  all_goals
    cases htargets
    exact absurd hb (by decide)

end SwarmSampler.Store
