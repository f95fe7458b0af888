import Mathlib.Data.List.Induction
import SwarmSampler.Proofs.Client.Sessions

/-
The polls of a session, one after another. `watch` passes over the polls at
which the engine shows what it showed before; here it is found to end where
polling at every age of the schedule would end, with the same answer: what the
first poll that decides says, or else the latest table with metadata. The ages
of the polls are those of the schedule up to that one.
-/

namespace SwarmSampler

open PeerEngine (tableAt)

/-! ## The schedule -/

namespace Rhythm

variable {r : Rhythm} {i m : Nat}

/-- The age of a poll, where the first has number zero. -/
def pollAt (r : Rhythm) (i : Nat) : Nat := min (r.first + i * r.pause) r.last

/-- The number of the last poll. -/
def lastPoll (r : Rhythm) : Nat := (r.last - r.first + r.pause - 1) / r.pause

theorem pollAt_of_lt (hp : 0 < r.pause) (h : i < r.lastPoll) :
    r.pollAt i = r.first + i * r.pause ∧ r.pollAt i < r.last := by
  have := (lt_steps hp).1 h
  unfold pollAt
  omega

theorem pollAt_of_le (hp : 0 < r.pause) (hr : r.first ≤ r.last) (h : r.lastPoll ≤ i) : r.pollAt i = r.last := by
  have := mt (lt_steps hp).2 (Nat.not_lt.2 h)
  unfold pollAt
  omega

theorem pollAt_le (h : i ≤ m) : r.pollAt i ≤ r.pollAt m := by
  have := Nat.mul_le_mul_right r.pause h
  unfold pollAt
  omega

/-- A session that is left at the time of a poll has been polled so far. -/
theorem upTo_pollAt (hp : 0 < r.pause) (hr : r.first ≤ r.last) (hm : m ≤ r.lastPoll) :
    r.upTo (r.pollAt m) = (List.range (m + 1)).map r.pollAt := by
  have early : ∀ {n}, n ≤ r.lastPoll →
      (List.range n).map r.pollAt = (List.range n).map fun i => r.first + i * r.pause := fun hn =>
    List.map_congr_left fun i hi => (pollAt_of_lt hp (Nat.lt_of_lt_of_le (List.mem_range.1 hi) hn)).1
  rcases Nat.lt_or_eq_of_le hm with hlt | rfl
  · obtain ⟨hage, hlast⟩ := pollAt_of_lt hp hlt
    have hcount : (min (r.pollAt m + 1) r.last - r.first + r.pause - 1) / r.pause = m + 1 := by
      have hsum : min (r.pollAt m + 1) r.last - r.first + r.pause - 1 = (m + 1) * r.pause := by
        rw [Nat.succ_mul]
        omega
      rw [hsum, Nat.mul_div_cancel _ hp]
    rw [upTo, hcount, if_neg (Nat.not_le.2 hlast), List.append_nil, early hlt]
  · have hage := pollAt_of_le hp hr (Nat.le_refl _)
    have hmin : min (r.last + 1) r.last = r.last := by omega
    rw [hage, upTo, hmin, if_pos (Nat.le_refl _), List.range_succ, List.map_append, early (Nat.le_refl _),
      List.map_singleton, hage]
    rfl

/-- The next poll that may show something else is one of the schedule, and those before it come before
the ages at which what is shown may change. -/
theorem exists_turn (ages : List Nat) (hp : 0 < r.pause) (hr : r.first ≤ r.last) (hi : i < r.lastPoll) :
    ∃ j, i < j ∧ j ≤ r.lastPoll ∧ r.turn ages (r.pollAt i) = r.pollAt j ∧
      ∀ k, i ≤ k → k < j → ∀ change ∈ ages, r.pollAt i < change → r.pollAt k < change := by
  unfold turn
  split
  · next hnone =>
    refine ⟨r.lastPoll, hi, Nat.le_refl _, (pollAt_of_le hp hr (Nat.le_refl _)).symm, ?_⟩
    intro k _ _ change hmem hlt
    rw [List.min?_eq_none_iff, List.filter_eq_nil_iff] at hnone
    exact absurd (decide_eq_true hlt) (hnone change hmem)
  · next first hfirst =>
    obtain ⟨hmem, hleast⟩ := List.min?_eq_some_iff.1 hfirst
    have hafter : r.pollAt i < first := of_decide_eq_true (List.mem_filter.1 hmem).2
    obtain ⟨hage, hlast⟩ := pollAt_of_lt hp hi
    -- So many pauses it takes to get to the first change.
    obtain ⟨q, hq⟩ : ∃ q, (first - r.pollAt i + r.pause - 1) / r.pause = q := ⟨_, rfl⟩
    have hsteps : ∀ k, k < q ↔ k * r.pause < first - r.pollAt i := fun k => by
      rw [← hq]
      exact lt_steps hp
    have hpos : 0 < q := (hsteps 0).2 (by omega)
    have hturn : min r.last (r.pollAt i + max 1 (q * r.pause)) = r.pollAt (i + q) := by
      have hq : r.pause ≤ q * r.pause := Nat.le_mul_of_pos_left _ hpos
      have hsum : (i + q) * r.pause = i * r.pause + q * r.pause := Nat.add_mul ..
      unfold pollAt at hlast ⊢
      omega
    rw [hq, hturn]
    refine ⟨min (i + q) r.lastPoll, by omega, Nat.min_le_right _ _, ?_, ?_⟩
    · rcases Nat.le_total (i + q) r.lastPoll with h | h
      · rw [Nat.min_eq_left h]
      · rw [Nat.min_eq_right h, pollAt_of_le hp hr h, pollAt_of_le hp hr (Nat.le_refl _)]
    · intro k hik hk change hchange hlt
      have hle : first ≤ change := hleast change (List.mem_filter.2 ⟨hchange, decide_eq_true hlt⟩)
      have hbefore := (hsteps (k - i)).1 (by omega)
      have hk' : r.pollAt k = r.pollAt i + (k - i) * r.pause := by
        rw [(pollAt_of_lt hp (by omega : k < r.lastPoll)).1, hage, Nat.add_assoc, ← Nat.add_mul]
        congr 2
        omega
      omega

end Rhythm

/-! ## What the polls show -/

namespace EngineClient

variable {rows : List TableRow} {hash : InfoHash} {r : Rhythm} {limit : Span} {ages : List Nat} {a b i : Nat}
  {t : PeerTable}

/-- The engine shows the same at two ages with no change between them. -/
theorem tableAt_eq (hab : a ≤ b) (h : ∀ change ∈ PeerEngine.changes rows, a < change → b < change) :
    tableAt rows b = tableAt rows a := by
  have hsame : rows.filter (·.age ≤ b) = rows.filter (·.age ≤ a) := by
    refine List.filter_congr fun row hrow => decide_eq_decide.2 ⟨fun hb => ?_, fun ha => Nat.le_trans ha hab⟩
    refine Nat.le_of_not_lt fun ha => ?_
    exact Nat.not_lt.2 hb (h row.age (List.mem_map_of_mem hrow) ha)
  rw [tableAt, tableAt, hsame]

/-- Whether a poll shows a table with metadata. -/
def ShowsMetadata (rows : List TableRow) (age : Nat) : Prop := ∃ t, tableAt rows age = some t ∧ t.hasMetadata = true

/-- The latest table with metadata that some polls have shown. -/
def latest (rows : List TableRow) (ages : List Nat) : Option PeerTable :=
  ages.foldl (fun before age => known before (tableAt rows age)) none

theorem latest_concat (ages : List Nat) (age : Nat) :
    latest rows (ages ++ [age]) = known (latest rows ages) (tableAt rows age) := by
  simp only [latest, List.foldl_append, List.foldl_cons, List.foldl_nil]

theorem known_of_shows {before : Option PeerTable} (h : tableAt rows a = some t) (metadata : t.hasMetadata = true) :
    known before (tableAt rows a) = some t := by
  simp only [h, known, metadata, if_true]

theorem known_of_not_shows {before : Option PeerTable} (h : ¬ ShowsMetadata rows a) :
    known before (tableAt rows a) = before := by
  unfold known
  split
  · next t ht => exact if_neg fun metadata => h ⟨t, ht, metadata⟩
  · rfl

/-- The latest table with metadata is that of a poll after which no other has shown metadata, if any has. -/
theorem latest_spec (rows : List TableRow) (ages : List Nat) :
    (latest rows ages = none ∧ ∀ a ∈ ages, ¬ ShowsMetadata rows a) ∨
      ∃ earlier age later t, ages = earlier ++ age :: later ∧ tableAt rows age = some t ∧ t.hasMetadata = true ∧
        (∀ a ∈ later, ¬ ShowsMetadata rows a) ∧ latest rows ages = some t := by
  induction ages using List.reverseRecOn with
  | nil => exact .inl ⟨rfl, nofun⟩
  | append_singleton ages age ih =>
    rw [latest_concat]
    by_cases h : ShowsMetadata rows age
    · obtain ⟨t, ht, metadata⟩ := h
      exact .inr ⟨ages, age, [], t, rfl, ht, metadata, nofun, known_of_shows ht metadata⟩
    · rw [known_of_not_shows h]
      refine ih.imp ?_ ?_
      · rintro ⟨hnone, hages⟩
        refine ⟨hnone, fun a ha => ?_⟩
        rcases List.mem_append.1 ha with ha | ha
        · exact hages a ha
        · rwa [List.mem_singleton.1 ha]
      · rintro ⟨earlier, a, later, t, rfl, ht, metadata, hlater, hsome⟩
        refine ⟨earlier, a, later ++ [age], t, by simp, ht, metadata, fun a ha => ?_, hsome⟩
        rcases List.mem_append.1 ha with ha | ha
        · exact hlater a ha
        · rwa [List.mem_singleton.1 ha]

/-- A table shown once more tells nothing new. -/
theorem known_again (before table : Option PeerTable) : known (known before table) table = known before table := by
  cases table with
  | none => rfl
  | some t =>
    simp only [known]
    split <;> rfl

/-- What comes of polling at some ages, one after another, if there is no poll beyond a limit. -/
inductive Concludes (rows : List TableRow) (hash : InfoHash) (limit : Span) (ages : List Nat) :
    QueryResult → Prop
  /-- The session is gone at the last of them, and none before it decides. -/
  | gone {earlier : List Nat} {age : Nat} (polls : ages = earlier ++ [age])
      (undecided : ∀ a ∈ earlier, Undecided (tableAt rows a)) (shows_nothing : tableAt rows age = none) :
      Concludes rows hash limit ages (.error (.unreachable ("session for " ++ hash.text ++ " vanished")))
  /-- The last of them shows peers, and none before it decides. -/
  | found {earlier : List Nat} {age : Nat} {t : PeerTable} (polls : ages = earlier ++ [age])
      (undecided : ∀ a ∈ earlier, Undecided (tableAt rows a)) (shows_peers : tableAt rows age = some t)
      (metadata : t.hasMetadata = true) (peers : 0 < t.listPeers) : Concludes rows hash limit ages (.ok t.counts)
  /-- None decides, and one of them is the latest to show metadata. -/
  | latest {earlier later : List Nat} {age : Nat} {t : PeerTable} (elapsed : limit.timer ∈ ages)
      (undecided : ∀ a ∈ ages, Undecided (tableAt rows a)) (polls : ages = earlier ++ age :: later)
      (shows_table : tableAt rows age = some t) (metadata : t.hasMetadata = true)
      (none_later : ∀ a ∈ later, ¬ ShowsMetadata rows a) : Concludes rows hash limit ages (.ok t.counts)
  /-- None decides, and none shows metadata. -/
  | nothing (elapsed : limit.timer ∈ ages) (undecided : ∀ a ∈ ages, Undecided (tableAt rows a))
      (no_metadata : ∀ a ∈ ages, ¬ ShowsMetadata rows a) : Concludes rows hash limit ages (.error (.timeout limit))

theorem concludes_of_verdict {age : Nat} {result : QueryResult}
    (undecided : ∀ a ∈ ages, Undecided (tableAt rows a)) (h : verdict? hash (tableAt rows age) = some result) :
    Concludes rows hash limit (ages ++ [age]) result := by
  unfold verdict? at h
  split at h
  · next hnone =>
    cases h
    exact .gone rfl undecided hnone
  · next t ht =>
    split at h
    · next hpeers =>
      cases h
      simp only [Bool.and_eq_true, decide_eq_true_eq] at hpeers
      exact .found rfl undecided ht hpeers.1 hpeers.2
    · cases h

theorem concludes_overdue (elapsed : limit.timer ∈ ages) (undecided : ∀ a ∈ ages, Undecided (tableAt rows a)) :
    Concludes rows hash limit ages (overdue limit (latest rows ages)) := by
  obtain ⟨hnone, hages⟩ | ⟨earlier, age, later, t, hages, ht, metadata, hlater, hsome⟩ := latest_spec rows ages
  · rw [hnone]
    exact .nothing elapsed undecided hages
  · rw [hsome]
    exact .latest elapsed undecided hages ht metadata hlater

/-- The polls before some number. -/
def pollsBefore (r : Rhythm) (n : Nat) : List Nat := (List.range n).map r.pollAt

theorem pollsBefore_succ (r : Rhythm) (n : Nat) : pollsBefore r (n + 1) = pollsBefore r n ++ [r.pollAt n] := by
  rw [pollsBefore, List.range_succ, List.map_append]
  rfl

/-- Polls that show what the one before them showed leave all as it is. -/
theorem passed_over (i : Nat) (undecided : ∀ a ∈ pollsBefore r (i + 1), Undecided (tableAt rows a)) (n : Nat)
    (same : ∀ k, i ≤ k → k < i + 1 + n → tableAt rows (r.pollAt k) = tableAt rows (r.pollAt i)) :
    (∀ a ∈ pollsBefore r (i + 1 + n), Undecided (tableAt rows a)) ∧
      latest rows (pollsBefore r (i + 1 + n)) = latest rows (pollsBefore r (i + 1)) := by
  induction n with
  | zero => exact ⟨undecided, rfl⟩
  | succ n ih =>
    obtain ⟨hund, hlatest⟩ := ih fun k hk hk' => same k hk (by omega)
    have hsame := same (i + 1 + n) (by omega) (by omega)
    rw [← Nat.add_assoc, pollsBefore_succ]
    constructor
    · intro a ha
      rcases List.mem_append.1 ha with ha | ha
      · exact hund a ha
      · rw [List.mem_singleton.1 ha, hsame]
        exact undecided _ (by rw [pollsBefore_succ]; exact List.mem_append_right _ (.head _))
    · rw [latest_concat, hlatest, hsame, pollsBefore_succ, latest_concat, known_again]

/-- A poll and what comes of it: it decides, it is the last, or the watch goes on with another. -/
theorem watch_eq (rows : List TableRow) (hash : InfoHash) (r : Rhythm) (limit : Span) (before : Option PeerTable)
    (age : Nat) :
    watch rows hash r limit before age =
      match verdict? hash (tableAt rows age) with
      | some result => (age, result)
      | none =>
        if r.last ≤ age then (age, overdue limit (known before (tableAt rows age)))
        else watch rows hash r limit (known before (tableAt rows age)) (r.turn (PeerEngine.changes rows) age) := by
  rw [watch]
  rfl

/-- **A session is watched as if it were polled at every age of the schedule**, from any poll on before which
none has decided. -/
theorem watch_concludes (rows : List TableRow) (hash : InfoHash) (hp : 0 < r.pause) (hr : r.first ≤ r.last)
    (hlimit : r.last = limit.timer) {i : Nat} (hi : i ≤ r.lastPoll) (undecided : ∀ a ∈ pollsBefore r i, Undecided (tableAt rows a)) :
    ∃ m ≤ r.lastPoll, ∃ result,
      watch rows hash r limit (latest rows (pollsBefore r i)) (r.pollAt i) = (r.pollAt m, result) ∧
        Concludes rows hash limit (pollsBefore r (m + 1)) result := by
  rw [watch_eq, ← latest_concat, ← pollsBefore_succ]
  cases hv : verdict? hash (tableAt rows (r.pollAt i)) with
  | some result =>
    refine ⟨i, hi, result, rfl, ?_⟩
    rw [pollsBefore_succ]
    exact concludes_of_verdict undecided hv
  | none =>
    have hund : ∀ a ∈ pollsBefore r (i + 1), Undecided (tableAt rows a) := fun a ha => by
      rw [pollsBefore_succ] at ha
      rcases List.mem_append.1 ha with ha | ha
      · exact undecided a ha
      · rw [List.mem_singleton.1 ha]
        exact verdict?_eq_none_iff.1 hv
    rcases Nat.lt_or_eq_of_le hi with hlt | rfl
    · obtain ⟨j, hij, hj, hturn, hsame⟩ := Rhythm.exists_turn (PeerEngine.changes rows) hp hr hlt
      have hbetween : ∀ k, i ≤ k → k < j → tableAt rows (r.pollAt k) = tableAt rows (r.pollAt i) := fun k hk hkj =>
        tableAt_eq (Rhythm.pollAt_le hk) (hsame k hk hkj)
      obtain ⟨hpassed, hlatest⟩ := passed_over i hund (j - (i + 1)) fun k hk hk' => hbetween k hk (by omega)
      rw [Nat.add_sub_cancel' (Nat.succ_le_of_lt hij)] at hpassed hlatest
      rw [← hlatest, hturn]
      obtain ⟨m, hm, result, hwatch, hconcludes⟩ := watch_concludes rows hash hp hr hlimit hj hpassed
      exact ⟨m, hm, result, (if_neg (Nat.not_le.2 (Rhythm.pollAt_of_lt hp hlt).2)).trans hwatch, hconcludes⟩
    · have hlast : r.pollAt r.lastPoll = r.last := Rhythm.pollAt_of_le hp hr (Nat.le_refl _)
      have elapsed : limit.timer ∈ pollsBefore r (r.lastPoll + 1) := by
        rw [pollsBefore_succ, ← hlimit, hlast]
        exact List.mem_append_right _ (.head _)
      exact ⟨r.lastPoll, hi, _, if_pos (Nat.le_of_eq hlast.symm), concludes_overdue elapsed hund⟩
termination_by r.lastPoll - i

/-! ## A query -/

/-- The time from one poll of a session to the next. -/
def pause (c : EngineClient) : Nat := min (max c.pollInterval.timer shortestPause) Span.longestWait

/-- The age of a session at one of its polls, where the first has number zero and none comes after a limit. -/
def pollAge (c : EngineClient) (limit : Span) (i : Nat) : Nat :=
  min (c.warmup.timer + i * c.pause) limit.timer

theorem pollAt_rhythm (c : EngineClient) (limit : Span) : (c.rhythm limit).pollAt = c.pollAge limit := rfl

/-- The first poll comes right after the warm-up. -/
theorem pollAge_zero (c : EngineClient) {timeout : Span} (bounded : c.warmup.add? timeout = some limit) :
    c.pollAge limit 0 = c.warmup.timer := by
  rw [pollAge, Nat.zero_mul]
  exact Nat.min_eq_left (Span.timer_le_of_add? bounded)

theorem exists_pause_eq (c : EngineClient) : ∃ k, c.pause = k * 1_000_000 := by
  refine ⟨c.pause / 1_000_000, ?_⟩
  rw [pause, Span.timer, Span.wholeMillis_eq, shortestPause, Span.longestWait]
  omega

/-- A session is polled no more often than its pauses fit into the timeout: they are whole milliseconds, so as
many of them as cover the timeout cover what is left of it after the warm-up. -/
theorem lastPoll_rhythm_le {c : EngineClient} {timeout : Span} (bounded : c.warmup.add? timeout = some limit) :
    (c.rhythm limit).lastPoll ≤ (timeout.nanos + c.pause - 1) / c.pause := by
  have hpos : 0 < c.pause := c.rhythm_pause_pos limit
  obtain ⟨k, hk⟩ := c.exists_pause_eq
  generalize hm : (timeout.nanos + c.pause - 1) / c.pause = m
  have hcover : timeout.nanos ≤ m * c.pause := by
    have hdiv := Nat.div_add_mod (timeout.nanos + c.pause - 1) c.pause
    have hmod := Nat.mod_lt (timeout.nanos + c.pause - 1) hpos
    rw [hm, Nat.mul_comm] at hdiv
    omega
  have hlast : limit.timer ≤ c.warmup.timer + m * c.pause :=
    calc limit.timer
        ≤ Span.wholeMillis (c.warmup.nanos + m * k * 1_000_000) :=
          Span.wholeMillis_mono (by rw [Span.nanos_of_add? bounded, Nat.mul_assoc, ← hk]; omega)
      _ = c.warmup.timer + m * c.pause := by rw [Span.wholeMillis_add_mul, hk, Nat.mul_assoc]; rfl
  refine Nat.le_of_lt_succ (Nat.div_lt_of_lt_mul ?_)
  show limit.timer - c.warmup.timer + c.pause - 1 < c.pause * (m + 1)
  rw [Nat.mul_comm, Nat.succ_mul]
  omega

/-- What a query that is left alone comes to: its answer, its age then, and what its client is afterwards. -/
inductive Answers (magnet : String) (timeout : Span) (c : EngineClient) :
    Option QueryResult × Option Nat × EngineClient → Prop
  /-- No span is as long as warm-up and timeout together: the query breaks down. -/
  | overlong (endless : c.warmup.add? timeout = none) : Answers magnet timeout c (none, none, c)
  | malformed {limit : Span} {fault : Magnet.Fault} (bounded : c.warmup.add? timeout = some limit)
      (malformed : Magnet.parse magnet = .error fault) :
      Answers magnet timeout c (some (.error (.invalidMagnet fault.message)), some 0, c)
  | refused {limit : Span} {hash : InfoHash} {e : QueryError} (bounded : c.warmup.add? timeout = some limit)
      (parses : Magnet.parse magnet = .ok hash) (refuses : c.engine.refusals[c.engine.sessions]?.join = some e) :
      Answers magnet timeout c (some (.error e), some 0, c.asking (.refused (c.engine.sessions + 1)))
  /-- The session is polled `m + 1` times and closed at the last poll. -/
  | polled {limit : Span} {hash : InfoHash} {m : Nat} {result : QueryResult}
      (bounded : c.warmup.add? timeout = some limit) (parses : Magnet.parse magnet = .ok hash)
      (admits : c.engine.refusals[c.engine.sessions]?.join = none)
      (few : m ≤ (timeout.nanos + c.pause - 1) / c.pause)
      (concludes : Concludes c.engine.rows hash limit ((List.range (m + 1)).map (c.pollAge limit)) result) :
      Answers magnet timeout c (some result, some (c.pollAge limit m),
        c.having (c.engine.sessions + 1) (c.engine.log ++
          .opened (c.engine.sessions + 1) hash ::
            ((List.range (m + 1)).map (c.pollAge limit)).map (.polled (c.engine.sessions + 1)) ++
            [.closed (c.engine.sessions + 1) (c.pollAge limit m)]))

/-- Leaving a session that was just opened adds its polls and its end to the log. -/
theorem leave_opened (c : EngineClient) (hash : InfoHash) (r : Rhythm) (age : Nat) :
    leave (some ⟨c.engine.sessions + 1, r⟩) age (c.asking (.opened (c.engine.sessions + 1) hash)) =
      c.having (c.engine.sessions + 1) (c.engine.log ++ .opened (c.engine.sessions + 1) hash ::
        (r.upTo age).map (.polled (c.engine.sessions + 1)) ++ [.closed (c.engine.sessions + 1) age]) :=
  congrArg (c.having (c.engine.sessions + 1)) (by simp [EngineSession.events, asking])

/-- A query whose session is opened is over at the poll that concludes it. -/
theorem askOnce_admitted {c : EngineClient} {magnet : String} {timeout : Span} (now : Nat)
    (bounded : c.warmup.add? timeout = some limit) (parses : Magnet.parse magnet = .ok hash)
    (admits : c.engine.refusals[c.engine.sessions]?.join = none) :
    ∃ m ≤ (timeout.nanos + c.pause - 1) / c.pause, ∃ result,
      Concludes c.engine.rows hash limit ((List.range (m + 1)).map (c.pollAge limit)) result ∧
      askOnce none now magnet timeout c =
        (some result, some (c.pollAge limit m), c.having (c.engine.sessions + 1) (c.engine.log ++
          .opened (c.engine.sessions + 1) hash ::
            ((List.range (m + 1)).map (c.pollAge limit)).map (.polled (c.engine.sessions + 1)) ++
            [.closed (c.engine.sessions + 1) (c.pollAge limit m)])) := by
  have hpos := c.rhythm_pause_pos limit
  have hfirst : (c.rhythm limit).first ≤ (c.rhythm limit).last := Span.timer_le_of_add? bounded
  obtain ⟨m, hm, result, hwatch, hconcludes⟩ :=
    watch_concludes c.engine.rows hash hpos hfirst (rfl : _ = limit.timer) (Nat.zero_le _)
      fun _ ha => absurd ha List.not_mem_nil
  have hpolls : (c.rhythm limit).upTo (c.pollAge limit m) = (List.range (m + 1)).map (c.pollAge limit) := by
    rw [← pollAt_rhythm, Rhythm.upTo_pollAt hpos hfirst hm]
  have hwatching : c.watching hash limit =
      ⟨some (c.pollAge limit m), result, some ⟨c.engine.sessions + 1, c.rhythm limit⟩⟩ := by
    have hstart : (c.rhythm limit).pollAt 0 = c.warmup.timer := c.pollAge_zero bounded
    have hfrom : watch c.engine.rows hash (c.rhythm limit) limit none c.warmup.timer =
        (c.pollAge limit m, result) := by
      rw [← pollAt_rhythm, ← hwatch, hstart]
      rfl
    simp only [watching, hfrom]
  rw [pollsBefore, pollAt_rhythm] at hconcludes
  refine ⟨m, Nat.le_trans hm (lastPoll_rhythm_le bounded), result, hconcludes, ?_⟩
  have hask : SwarmClient.ask now magnet timeout c =
      (.underway (c.watching hash limit), c.asking (.opened (c.engine.sessions + 1) hash)) := by
    show c.ask magnet timeout = _
    simp only [ask, bounded, parses, admits]
    rfl
  rw [askOnce, hask]
  dsimp only
  rw [hwatching, Query.run_of_takes rfl, ← hpolls]
  exact congrArg (fun client => (some result, some (c.pollAge limit m), client))
    (c.leave_opened hash (c.rhythm limit) (c.pollAge limit m))

/-- **A query keeps to the schedule of its session's polls**, and its answer is what these polls show. -/
theorem askOnce_answers (c : EngineClient) (now : Nat) (magnet : String) (timeout : Span) :
    Answers magnet timeout c (askOnce none now magnet timeout c) := by
  cases bounded : c.warmup.add? timeout with
  | none =>
    simp only [askOnce, SwarmClient.ask, ask, bounded]
    exact .overlong bounded
  | some limit =>
    cases parses : Magnet.parse magnet with
    | error fault =>
      simp only [askOnce, SwarmClient.ask, ask, bounded, parses]
      exact .malformed bounded parses
    | ok hash =>
      cases admits : c.engine.refusals[c.engine.sessions]?.join with
      | some e =>
        simp only [askOnce, SwarmClient.ask, ask, bounded, parses, admits]
        exact .refused bounded parses admits
      | none =>
        obtain ⟨m, few, result, concludes, hask⟩ := askOnce_admitted now bounded parses admits
        rw [hask]
        exact .polled bounded parses admits few concludes

/-- Sixty years of 365 days. -/
def sixtyYears : Span := .ofMillis 1_892_160_000_000

/-- A client that pauses for sixty years, of an engine that never finds a torrent. -/
def sluggish : EngineClient := ⟨⟨[], [], 0, []⟩, .zero, sixtyYears⟩

theorem sluggish_pollAge (i : Nat) :
    sluggish.pollAge sixtyYears i = min (i * 946080000000000000) 1892160000000000000 := by
  have hwarm : sluggish.warmup.timer = 0 := rfl
  have hpause : sluggish.pause = 946080000000000000 := by decide
  have hlimit : sixtyYears.timer = 1892160000000000000 := rfl
  rw [pollAge, hwarm, hpause, hlimit, Nat.zero_add]

theorem sluggish_shows (age : Nat) : tableAt sluggish.engine.rows age = some ⟨false, 0, 0⟩ := rfl

/-- A client that warms up for a nanosecond. -/
def brisk : EngineClient := ⟨⟨[], [], 0, []⟩, ⟨1, by decide⟩, .zero⟩

/-- Where polls are to be sixty years apart, one comes after thirty, and where the only one is to come after a
nanosecond, it comes after a millisecond. -/
theorem polled_halfway :
    let magnet := "magnet:?xt=urn:btih:c12fe1c06bba254a9dc9f519b335aa7c1367a88a"
    (∃ age, .polled 1 age ∈ (askOnce none 0 magnet sixtyYears sluggish).2.2.engine.log ∧
      ∀ i, age ≠ sluggish.warmup.nanos + min (i * max sluggish.pollInterval.nanos shortestPause) sixtyYears.nanos) ∧
    ∃ age, .polled 1 age ∈ (askOnce none 0 magnet .zero brisk).2.2.engine.log ∧
      ∀ i, age ≠ brisk.warmup.nanos + min (i * max brisk.pollInterval.nanos shortestPause) Span.zero.nanos := by
  intro magnet
  obtain ⟨hash, parses⟩ : ∃ hash,
      Magnet.parse "magnet:?xt=urn:btih:c12fe1c06bba254a9dc9f519b335aa7c1367a88a" = .ok hash := ⟨_, rfl⟩
  constructor
  · have bounded : sluggish.warmup.add? sixtyYears = some sixtyYears := rfl
    obtain ⟨m, few, result, concludes, hask⟩ := askOnce_admitted 0 bounded parses rfl
    -- The table has no metadata, so only the last poll concludes the query.
    have elapsed : sixtyYears.timer ∈ (List.range (m + 1)).map (sluggish.pollAge sixtyYears) := by
      cases concludes with
      | gone polls undecided shows_nothing =>
        rw [sluggish_shows] at shows_nothing
        cases shows_nothing
      | found polls undecided shows_peers metadata peers =>
        rw [sluggish_shows] at shows_peers
        cases shows_peers
        cases metadata
      | latest elapsed => exact elapsed
      | nothing elapsed => exact elapsed
    obtain ⟨i, hi, hlast⟩ := List.mem_map.1 elapsed
    have hm : 1 < m + 1 := by
      rw [sluggish_pollAge] at hlast
      have := List.mem_range.1 hi
      have : sixtyYears.timer = 1892160000000000000 := rfl
      omega
    refine ⟨sluggish.pollAge sixtyYears 1, ?_, fun i => ?_⟩
    · rw [hask]
      refine List.mem_append_left _ (List.mem_cons_of_mem _ (List.mem_map_of_mem ?_))
      exact List.mem_map_of_mem (List.mem_range.2 hm)
    · rw [sluggish_pollAge]
      show _ ≠ 0 + min (i * 1892160000000000000) 1892160000000000000
      omega
  · have bounded : brisk.warmup.add? .zero = some brisk.warmup := rfl
    obtain ⟨m, few, result, concludes, hask⟩ := askOnce_admitted 0 bounded parses rfl
    refine ⟨brisk.pollAge brisk.warmup 0, ?_, fun i => ?_⟩
    · rw [hask]
      refine List.mem_append_left _ (List.mem_cons_of_mem _ (List.mem_map_of_mem ?_))
      exact List.mem_map_of_mem (List.mem_range.2 (Nat.succ_pos m))
    · rw [brisk.pollAge_zero bounded]
      show 1000000 ≠ 1 + min _ 0
      omega

end EngineClient

end SwarmSampler
