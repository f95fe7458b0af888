import Mathlib.Data.List.Basic
import SwarmSampler.Reader
import SwarmSampler.Proofs.Store.Rows
import SwarmSampler.Proofs.Trend.Numbers

/-
The history of a target in a store that was only written to by its calls: the ok
rows in the order they came, of which a query answers the last ones. The trend of
a sample made before it is stored, from one stored sample less and the sample
itself, is the trend that is read back after it is stored; and the columns beside
the sample hold that trend unchanged.
-/

namespace SwarmSampler

namespace Store

variable {s s' : Store} {sample stored : HealthSample} {metrics : Option MetricsSnapshot}
  {targetId : String}

/-! ## The ok rows of a target -/

/-- The rows of a target's ok samples, in the order they came. -/
def okRows (s : Store) (targetId : String) : List SampleRow :=
  (s.samplesOf targetId).filter (·.outcome = Outcome.ok.text)

theorem mem_okRows {r : SampleRow} (h : r ∈ s.okRows targetId) : r ∈ s.samples :=
  (mem_samplesOf.1 (List.mem_filter.1 h).1).1

/-- Rows whose times rise are sorted by reading them from the end. -/
theorem mergeSort_eq_reverse {rows : List SampleRow} (rising : rows.Pairwise fun x y => x.millis < y.millis) :
    rows.mergeSort (fun a b => b.millis ≤ a.millis) = rows.reverse := by
  have hinj : ∀ x ∈ rows, ∀ y ∈ rows, x.millis = y.millis → x = y :=
    fun x hx y hy => List.Pairwise.forall_of_forall_of_flip (R := fun x y => x.millis = y.millis → x = y)
      (fun _ _ _ => rfl) (rising.imp fun hlt heq => by omega) (rising.imp fun hlt heq => by omega) hx hy
  -- Two sorted lists of the same rows are equal, for no two rows have one time.
  refine List.Perm.eq_of_pairwise (fun x y hx hy (hxy : y.millis ≤ x.millis) hyx => ?_) ?_ ?_ ?_
  · exact hinj x (List.mem_mergeSort.1 hx) y (List.mem_reverse.1 hy) (Int.le_antisymm hyx hxy)
  · have hsorted : (rows.mergeSort fun x y => y.millis ≤ x.millis).Pairwise fun x y => -x.millis ≤ -y.millis :=
      pairwise_mergeSort_key fun x _ y _ => decide_eq_decide.2 (by omega)
    exact hsorted.imp fun hle => by omega
  · exact List.pairwise_reverse.2 (rising.imp Int.le_of_lt)
  · exact (List.mergeSort_perm ..).trans (List.reverse_perm _).symm

/-- The newest rows come last. -/
theorem Sound.newestOk_eq (h : Sound s) (targetId : String) :
    s.newestOk targetId = (s.okRows targetId).reverse := by
  have hrows : (s.samples.filter fun r => r.targetId = targetId ∧ r.outcome = Outcome.ok.text) =
      s.okRows targetId := by
    rw [okRows, samplesOf, List.filter_filter]
    refine congrArg (List.filter · _) (funext fun r => ?_)
    simp only [Bool.decide_and, Bool.and_comm]
  rw [newestOk, hrows]
  exact mergeSort_eq_reverse ((h.rising targetId).filter _)

/-- A limit that has no place among the numbers of a cell is larger than any history. -/
theorem Sound.limited_eq (h : Sound s) (targetId : String) (n : UInt64) {rows : List SampleRow}
    (few : rows.length ≤ (s.samplesOf targetId).length) : limited (some n) rows = rows.take n.toNat := by
  have hfits := h.fits_succ_length targetId
  simp only [Cell.fits, Bool.and_eq_true, decide_eq_true_eq] at hfits
  simp only [Cell.leastInteger, Cell.greatestInteger] at hfits
  exact limited_eq_take (by omega) n

theorem Sound.limited_newestOk (h : Sound s) (targetId : String) (n : UInt64) :
    limited (some n) (s.newestOk targetId) = (s.okRows targetId).reverse.take n.toNat := by
  have hle : (s.okRows targetId).length ≤ (s.samplesOf targetId).length := List.length_filter_le ..
  rw [h.newestOk_eq, h.limited_eq targetId n (by rwa [List.length_reverse])]

theorem persistedMetrics_eq (h : Sound s) (targetId : String) :
    s.persistedMetrics targetId = (s.okRows targetId).getLast?.bind storedMetrics := by
  rw [persistedMetrics, h.newestOk_eq, List.head?_reverse]

/-- The last ok rows, read oldest first. -/
theorem lastOkSamples_eq (h : Sound s) (targetId : String) (n : UInt64) :
    s.lastOkSamples targetId n =
      (report (((s.okRows targetId).reverse.take n.toNat).mapM (readSample 0))).map List.reverse := by
  rw [lastOkSamples, h.limited_newestOk]

/-- The history of a target is a matter of its own samples. -/
theorem lastOkSamples_congr (hs : Sound s) (hs' : Sound s')
    (same : s'.samplesOf targetId = s.samplesOf targetId) (n : UInt64) :
    s'.lastOkSamples targetId n = s.lastOkSamples targetId n := by
  rw [lastOkSamples_eq hs, lastOkSamples_eq hs', okRows, okRows, same]

theorem persistedMetrics_congr (hs : Sound s) (hs' : Sound s')
    (same : s'.samplesOf targetId = s.samplesOf targetId) :
    s'.persistedMetrics targetId = s.persistedMetrics targetId := by
  rw [persistedMetrics_eq hs, persistedMetrics_eq hs', okRows, okRows, same]

/-- A history can always be read. -/
theorem Reachable.lastOkSamples (h : Reachable s) (targetId : String) (n : UInt64) :
    ∃ history, s.lastOkSamples targetId n = .ok history := by
  obtain ⟨xs, hxs⟩ := mapM_eq_ok (f := readSample 0) (l := (s.okRows targetId).reverse.take n.toNat) fun r hr =>
    h.legible.samples r (mem_okRows (List.mem_reverse.1 (List.mem_of_mem_take hr)))
  exact ⟨xs.reverse, by rw [lastOkSamples_eq h.sound, hxs]; rfl⟩

/-! ## Appending to a history -/

section Append

variable (h : Appended sample metrics s stored s')
include h

theorem Appended.outcome_eq : stored.outcome = sample.outcome := by rw [h.asked]

theorem Appended.totalPeers_eq : stored.totalPeers = sample.totalPeers := by rw [h.asked]

theorem Appended.okRows_eq :
    s'.okRows sample.targetId =
      s.okRows sample.targetId ++ if sample.outcome = .ok then [rowOf stored metrics] else [] := by
  have htext : (rowOf stored metrics).outcome = stored.outcome.text := rfl
  rw [okRows, h.samplesOf_eq, h.targetId_eq, if_pos rfl, List.filter_append, List.filter_singleton, htext,
    h.outcome_eq]
  refine congrArg _ ?_
  cases sample.outcome <;> rfl

/-- One more is found after an ok sample was stored. -/
theorem Appended.lastOkSamples_ok (hs : Sound s) (ok : sample.outcome = .ok) {n n' : UInt64}
    (more : n'.toNat = n.toNat + 1) :
    s'.lastOkSamples sample.targetId n' = (s.lastOkSamples sample.targetId n).map (· ++ [stored]) := by
  rw [lastOkSamples_eq (hs.append h), lastOkSamples_eq hs, h.okRows_eq, if_pos ok, List.reverse_append,
    List.reverse_singleton, List.singleton_append, more, List.take_succ_cons, List.mapM_cons, h.readSample 0]
  cases ((s.okRows sample.targetId).reverse.take n.toNat).mapM (Store.readSample 0) with
  | error e => rfl
  | ok xs => exact congrArg Except.ok List.reverse_cons

/-- Nothing else is found after any other sample was stored. -/
theorem Appended.lastOkSamples_other (hs : Sound s) (other : sample.outcome ≠ .ok) (n : UInt64) :
    s'.lastOkSamples sample.targetId n = s.lastOkSamples sample.targetId n := by
  rw [lastOkSamples_eq (hs.append h), lastOkSamples_eq hs, h.okRows_eq, if_neg other, List.append_nil]

/-- The trend beside an ok sample is the target's stored trend from then on. -/
theorem Appended.persistedMetrics_ok (hs : Sound s) (ok : sample.outcome = .ok) :
    s'.persistedMetrics sample.targetId = storedMetrics (rowOf stored metrics) := by
  rw [persistedMetrics_eq (hs.append h), h.okRows_eq, if_pos ok, List.getLast?_concat]
  rfl

/-- Another sample leaves the target's stored trend as it is. -/
theorem Appended.persistedMetrics_other (hs : Sound s) (other : sample.outcome ≠ .ok) :
    s'.persistedMetrics sample.targetId = s.persistedMetrics sample.targetId := by
  rw [persistedMetrics_eq (hs.append h), persistedMetrics_eq hs, h.okRows_eq, if_neg other, List.append_nil]

end Append

/-! ## Trends in columns -/

/-- A trend of numbers is stored as it is. -/
theorem storedMetrics_rowOf (stored : HealthSample) {m : MetricsSnapshot} (growth : m.growth.isNaN = false)
    (shrink : m.shrink.isNaN = false) (score : m.score.isNaN = false) :
    storedMetrics (rowOf stored (some m)) = some m := by
  simp only [storedMetrics, rowOf, sampleRow, Option.bind_some, realCell, growth, shrink, score]
  rfl

/-- The trend of any history is stored as it is, and so is the lack of one. -/
theorem storedMetrics_ofSamples (stored : HealthSample) (history : List HealthSample) :
    storedMetrics (rowOf stored (Reading.ofSamples peerConfidence history).snapshot?) =
      (Reading.ofSamples peerConfidence history).snapshot? := by
  rw [Reading.ofSamples, Reading.ofTotals]
  split
  · rfl
  · next growth hg =>
    exact storedMetrics_rowOf stored (Trend.growth?_isNaN hg) (Trend.shrink_isNaN growth) (Trend.score_isNaN _)

end Store

end SwarmSampler
