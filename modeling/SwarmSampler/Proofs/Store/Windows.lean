import Mathlib.Data.List.DropRight
import SwarmSampler.Proofs.Store.Listing

/-
Reading back what was appended. A store holds the samples that its appends have
answered, in the order they did, until a private store is opened again; the newest
samples of a target, or its last ok ones, are then a matter of that list alone,
whatever else was appended in between and however the clocks went.
-/

namespace SwarmSampler.Store

variable {s s' : Store} {sample stored : HealthSample} {metrics : Option MetricsSnapshot} {targetId : String}
  {held : List Kept}

/-! ## What a store holds -/

namespace Opened

/-- What is there after a call of the samples that were there before it, and the one that the call keeps. -/
def holds (o : Opened) (held : List Kept) : Call → List Kept
  | .reopen => if o.home.isPrivate then [] else held
  | c => held ++ (o.kept? c).toList

/-- What is there after some calls. -/
def heldAfter (o : Opened) (held : List Kept) : List Call → List Kept
  | [] => held
  | c :: cs => (o.perform c).heldAfter (o.holds held c) cs

end Opened

/-- A store holds these samples: its rows are theirs, each with a time that it is read back with. -/
structure Holds (s : Store) (held : List Kept) : Prop where
  rows : s.samples = held.map Kept.row
  dated : ∀ k ∈ held, Stamp.ofMillis? k.row.millis = some k.1.timestamp

theorem Holds.empty : Holds empty [] where
  rows := rfl
  dated _ hk := nomatch hk

theorem Holds.enrol (h : Holds s held) (now : Stamp) (source : String) (added : List MonitoringTarget) :
    Holds (s.enrol now source added) held where
  rows := h.rows
  dated := h.dated

theorem Holds.append (h : Holds s held) (ha : Appended sample metrics s stored s') :
    Holds s' (held ++ [(stored, metrics)]) where
  rows := by
    rw [ha.samples_eq, h.rows, List.map_append]
    rfl
  dated k hk := by
    rcases List.mem_append.1 hk with hk | hk
    · exact h.dated k hk
    · rw [List.mem_singleton.1 hk]
      exact ha.ofMillis?

/-- A call leaves a store with what it keeps added to what the store holds. -/
theorem Opened.perform_holds {o : Opened} (h : Holds o.store held) (c : Call) :
    Holds (o.perform c).store (o.holds held c) := by
  cases c with
  | register now source targets =>
    obtain ⟨added, -, -, heq⟩ := register_eq now source targets o.store
    simpa [holds, kept?, perform, heq] using h.enrol now source added
  | ingest now source records =>
    obtain ⟨added, -, heq⟩ := ingest_eq now source records o.store
    simpa [holds, kept?, perform, heq] using h.enrol now source added
  | append sample metrics =>
    obtain ⟨stored, s', heq, ha⟩ | ⟨e, heq⟩ := append_cases sample metrics o.store
    · simpa [holds, kept?, perform, heq, Except.toOption] using h.append ha
    · simpa [holds, kept?, perform, heq, Except.toOption] using h
  | reopen =>
    simp only [holds, perform, reopen]
    split
    · exact .empty
    · exact h

theorem Opened.performAll_holds (calls : List Call) : ∀ {o : Opened} {held : List Kept}, Holds o.store held →
    Holds (o.performAll calls).store (o.heldAfter held calls) := by
  induction calls with
  | nil => exact id
  | cons c cs ih => exact fun h => ih (perform_holds h c)

/-! ## Reading what a store holds -/

namespace Holds

variable (h : Holds s held)
include h

theorem samplesOf_eq (targetId : String) :
    s.samplesOf targetId = (held.filter (·.1.targetId = targetId)).map Kept.row := by
  rw [samplesOf, h.rows, List.filter_map]
  rfl

theorem okRows_eq (targetId : String) :
    s.okRows targetId = ((held.filter (·.1.targetId = targetId)).filter (·.1.outcome = .ok)).map Kept.row := by
  rw [okRows, h.samplesOf_eq, List.filter_map]
  refine congrArg (List.map Kept.row) (List.filter_congr fun k _ => ?_)
  have htext : k.row.outcome = k.1.outcome.text := rfl
  rw [Function.comp_apply, htext]
  cases k.1.outcome <;> rfl

/-- Rows of samples that are held are read as the samples. -/
theorem read_rows {kept : List Kept} (hk : ∀ k ∈ kept, k ∈ held) :
    (kept.map Kept.row).mapM (readSample 0) = .ok (kept.map (·.1)) := by
  rw [mapM_eq_ok_iff, List.forall₂_map_left_iff, List.forall₂_map_right_iff, List.forall₂_same]
  exact fun k hmem => readSample_rowOf (h.dated k (hk k hmem)) 0

end Holds

/-- The samples of a target among those that are held. -/
def ownSamples (held : List Kept) (targetId : String) : List HealthSample :=
  (held.map (·.1)).filter (·.targetId = targetId)

theorem map_filter_own (held : List Kept) (targetId : String) :
    (held.filter (·.1.targetId = targetId)).map (·.1) = ownSamples held targetId := by
  rw [ownSamples, List.filter_map]
  rfl

theorem Holds.recentSamples_eq (h : Holds s held) (hs : Sound s) (targetId : String) (n : UInt64) :
    s.recentSamples targetId n = .ok ((ownSamples held targetId).reverse.take n.toNat) := by
  have hrows : limited (some n) (s.newestFirst targetId) =
      ((held.filter (·.1.targetId = targetId)).reverse.take n.toNat).map Kept.row := by
    have hlength : (s.samplesOf targetId).reverse.length ≤ (s.samplesOf targetId).length := by simp
    rw [hs.newestFirst_eq, hs.limited_eq targetId n hlength, h.samplesOf_eq, ← List.map_reverse, List.map_take]
  rw [recentSamples, hrows, h.read_rows fun k hk => ?_, ← map_filter_own, ← List.map_reverse, ← List.map_take]
  · rfl
  · exact (List.mem_filter.1 (List.mem_reverse.1 (List.mem_of_mem_take hk))).1

theorem Holds.lastOkSamples_eq (h : Holds s held) (hs : Sound s) (targetId : String) (n : UInt64) :
    s.lastOkSamples targetId n = .ok (((ownSamples held targetId).filter (·.outcome = .ok)).rtake n.toNat) := by
  let kept := ((held.filter (·.1.targetId = targetId)).filter (·.1.outcome = .ok)).reverse.take n.toNat
  have hkept : ∀ k ∈ kept, k ∈ held := fun k hk =>
    (List.mem_filter.1 (List.mem_filter.1 (List.mem_reverse.1 (List.mem_of_mem_take hk))).1).1
  have hrows : (s.okRows targetId).reverse.take n.toNat = kept.map Kept.row := by
    rw [h.okRows_eq, ← List.map_reverse, List.map_take]
  have hsamples : (ownSamples held targetId).filter (·.outcome = .ok) =
      ((held.filter (·.1.targetId = targetId)).filter (·.1.outcome = .ok)).map (·.1) := by
    rw [← map_filter_own, List.filter_map]
    rfl
  rw [Store.lastOkSamples_eq hs, hrows, h.read_rows hkept, hsamples, List.rtake_eq_reverse_take_reverse,
    ← List.map_reverse, ← List.map_take]
  rfl

/-! ## The time of an append -/

/-- The millisecond a sample is stored at that was asked for at some millisecond: that one, or the one just after
the newest of those that are taken, whichever is later. -/
def nextMillis (taken : List Int) (requested : Int) : Int :=
  match taken.max? with
  | some newest => max requested (newest + 1)
  | none => requested

theorem Appended.ofMillis?_next (h : Appended sample metrics s stored s') (hd : s.Dated) :
    Stamp.ofMillis? (nextMillis ((s.samplesOf sample.targetId).map (·.millis)) sample.timestamp.toMillis) =
      some stored.timestamp := by
  have hdated := h.dated
  have hlatest : ((s.samplesOf sample.targetId).map (·.millis)).max? = s.latestMillis? sample.targetId := rfl
  rw [nextMillis, hlatest]
  cases hl : s.latestMillis? sample.targetId with
  | none =>
    rw [hl] at hdated
    exact hdated
  | some newest =>
    rw [hl, effectiveMillis_some hd hl] at hdated
    have hmax : max sample.timestamp.toMillis (newest + 1) =
        if sample.timestamp.toMillis ≤ newest then newest + 1 else sample.timestamp.toMillis := by
      split <;> omega
    simp only [hmax, hdated]

/-- The rows of a target's samples have their times. -/
theorem Holds.millis_eq (h : Holds s held) (targetId : String) :
    (s.samplesOf targetId).map (·.millis) = (ownSamples held targetId).map (·.timestamp.toMillis) := by
  rw [h.samplesOf_eq, ← map_filter_own, List.map_map, List.map_map]
  rfl

/-! ## Runs -/

/-- **What is appended is read back.** An append that succeeds answers the sample it was given but for the time, which
is the one asked for in whole milliseconds, or one millisecond after the target's newest if that is later. Whatever
calls were made, the newest samples of a target are the last that its appends have answered, the newest first,
and its last ok ones are the last ok ones of these, the oldest first, each as its append has answered it. -/
theorem appends_read_back (home : Home) (calls : List Call) :
    let new : Opened := ⟨home, empty⟩
    let s := (new.performAll calls).store
    let own := ownSamples (new.heldAfter [] calls)
    (∀ sample metrics stored s', append sample metrics s = (.ok stored, s') →
      stored = { sample with timestamp := stored.timestamp } ∧
        Stamp.ofMillis? (nextMillis ((own sample.targetId).map (·.timestamp.toMillis))
          sample.timestamp.toMillis) = some stored.timestamp) ∧
      ∀ targetId, (own targetId).length = (s.samplesOf targetId).length ∧ ∀ n : UInt64,
        s.recentSamples targetId n = .ok ((own targetId).reverse.take n.toNat) ∧
          s.lastOkSamples targetId n = .ok (((own targetId).filter (·.outcome = .ok)).rtake n.toNat) := by
  intro new s own
  have hs : Sound s := Opened.performAll_sound calls .empty
  have h : Holds s (new.heldAfter [] calls) := Opened.performAll_holds calls .empty
  refine ⟨fun sample metrics stored s' kept => ?_, fun targetId => ⟨?_, fun n => ⟨?_, ?_⟩⟩⟩
  · have ha := appended_of_append kept
    refine ⟨ha.asked, ?_⟩
    rw [← h.millis_eq]
    exact ha.ofMillis?_next hs.dated
  · have hlength := congrArg List.length (h.millis_eq targetId)
    simpa using hlength.symm
  · exact h.recentSamples_eq hs targetId n
  · exact h.lastOkSamples_eq hs targetId n

/-- Three samples of one target whose clock goes backwards, with one of another target between them: the second is
stored a millisecond after the first, and the largest number there is asks for all that are ok. -/
theorem appends_read_back_backwards :
    let sample (id targetId : String) (milli : Fin 1000) (outcome : Outcome) : HealthSample :=
      ⟨id, targetId, ⟨0, milli.val * 1_000_000, by decide, by omega⟩, 2, 1, 3, outcome, 1, none⟩
    let target (id : String) : MonitoringTarget := ⟨id, "", "", "", true⟩
    let calls := [.register .epoch "" [target "a", target "b"], .append (sample "1" "a" 5 .ok) none,
      .append (sample "2" "b" 9 .ok) none, .append (sample "3" "a" 2 .ok) none, .append (sample "4" "a" 8 .error) none]
    let s := ((⟨⟨"store", false⟩, empty⟩ : Opened).performAll calls).store
    s.recentSamples "a" 2 = .ok [sample "4" "a" 8 .error, sample "3" "a" 6 .ok] ∧
      s.lastOkSamples "a" 18_446_744_073_709_551_615 = .ok [sample "1" "a" 5 .ok, sample "3" "a" 6 .ok] := by
  intro sample target calls s
  have hown : ownSamples ((⟨⟨"store", false⟩, empty⟩ : Opened).heldAfter [] calls) "a" =
      [sample "1" "a" 5 .ok, sample "3" "a" 6 .ok, sample "4" "a" 8 .error] := by decide +kernel
  obtain ⟨-, hread⟩ := appends_read_back ⟨"store", false⟩ calls
  obtain ⟨-, hwindows⟩ := hread "a"
  rw [hown] at hwindows
  refine ⟨(hwindows 2).1.trans (congrArg Except.ok ?_),
    (hwindows 18_446_744_073_709_551_615).2.trans (congrArg Except.ok ?_)⟩
  · decide +kernel
  · decide +kernel

end SwarmSampler.Store
