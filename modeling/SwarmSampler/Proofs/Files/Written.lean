import SwarmSampler.Files

/-
What is written to a file is read from it. A file never comes to stand where a
directory is, so every directory on the way to it is still one afterwards and
the same path leads to the same place.
-/

namespace SwarmSampler.Files

variable {files written : Files} {place q : List (List Char)} {path : List Char} {bytes : List UInt8}

theorem lookup_map_const {α β : Type} [BEq α] [LawfulBEq α] (x : α) (b : β) (keys : List α) :
    (keys.map (·, b)).lookup x = if keys.contains x then some b else none := by
  induction keys with
  | nil => rfl
  | cons k keys ih =>
    rw [List.map_cons, List.lookup_cons, ih, List.contains_cons]
    cases x == k <;> rfl

/-- What stands at a place once an entry has been put somewhere. -/
theorem at?_put (files : Files) (place : List (List Char)) (entry : FileEntry) (q : List (List Char)) :
    (files.put place entry).at? q =
      if q.all (· = ['.', '.']) then some .directory
      else if q = place then some entry
      else if (Path.beginnings place.dropLast).contains q then some .directory
      else files.at? q := by
  unfold at? put
  split
  · rfl
  · next hbelow =>
    rw [List.cons_append, List.lookup_cons, List.lookup_append, lookup_map_const]
    by_cases hq : q = place
    · simp [hq]
    · rw [if_neg hq, beq_eq_false_iff_ne.2 hq]
      cases (Path.beginnings place.dropLast).contains q <;> rfl

/-- A place that no directory stands at can get another entry, and all directories stay. -/
theorem at?_put_directory (entry : FileEntry) (hplace : files.at? place ≠ some .directory)
    (hq : files.at? q = some .directory) : (files.put place entry).at? q = some .directory := by
  have hother : q ≠ place := fun h => hplace (h ▸ hq)
  rw [at?_put, if_neg hother]
  split
  · rfl
  · split
    · rfl
    · exact hq

theorem at?_put_self (entry : FileEntry) (hplace : files.at? place ≠ some .directory) :
    (files.put place entry).at? place = some entry := by
  have hbelow : ¬ place.all (· = ['.', '.']) = true := fun h => hplace (if_pos h)
  rw [at?_put, if_neg hbelow, if_pos rfl]

/-- A path that leads somewhere leads there when a place that is no directory has got an entry. -/
theorem follow_put (entry : FileEntry) (hplace : files.at? place ≠ some .directory) :
    ∀ {parts start : List (List Char)}, files.follow parts start = .ok q →
      (files.put place entry).follow parts start = .ok q := by
  intro parts
  induction parts with
  | nil => exact fun h => h
  | cons part parts ih =>
    intro start h
    rw [follow] at h ⊢
    split at h
    · cases h
    · cases h
    · next hdirectory =>
      rw [at?_put_directory entry hplace hdirectory]
      split at h
      · cases h
      · next hname =>
        dsimp only
        rw [if_neg hname]
        exact ih h

theorem find_put (entry : FileEntry) (hplace : files.at? place ≠ some .directory) (h : files.find path = .ok q) :
    (files.put place entry).find path = .ok q := by
  unfold find at h ⊢
  split at h
  · cases h
  · exact follow_put entry hplace h

theorem read_eq (hfind : files.find path = .ok place) (hfile : files.at? place = some (.file bytes))
    (hend : path.getLast? ≠ some '/') : files.read path = .ok bytes := by
  rw [read, hfind]
  dsimp only [bind, Except.bind]
  rw [hfile]
  exact if_neg hend

/-- **What is written to a file is read from it.** -/
theorem read_write (h : files.write path bytes = .ok written) : written.read path = .ok bytes := by
  unfold write at h
  cases hfind : files.find path with
  | error fault =>
    rw [hfind] at h
    cases h
  | ok place =>
    rw [hfind] at h
    replace h : (if _ then .error Fault.isDirectory else .ok (files.put place (.file bytes))) = Except.ok written := h
    split at h
    · cases h
    · next hfile =>
      cases h
      rw [not_or] at hfile
      have hplace : files.at? place ≠ some .directory := fun hdirectory => hfile.1 (decide_eq_true hdirectory)
      exact read_eq (find_put _ hplace hfind) (at?_put_self _ hplace) hfile.2

end SwarmSampler.Files
