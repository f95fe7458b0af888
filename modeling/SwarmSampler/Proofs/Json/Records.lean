import SwarmSampler.Json.Document
import SwarmSampler.Proofs.Text.Decimal

/-
Records written as JSON values and read as documents. Where each name is the
spelling of its own field, every field is given just its value; counts of 32
and 64 bits come back as they are.
-/

namespace SwarmSampler.Document

/-! ## The fields of a record -/

section Fields

variable {α δ : Type}

/-- Sorting elements by a place that is their own in the list gives each alone. -/
theorem map_filter_places {place : α → Option Nat} (list : List α) : ∀ {k : Nat},
    list.map place = (List.range' k list.length).map some →
    (List.range' k list.length).map (fun i => list.filter (place · == some i)) = list.map ([·]) := by
  induction list with
  | nil => exact fun _ => rfl
  | cons x list ih =>
    intro k hplaces
    rw [List.length_cons, List.range'_succ, List.map_cons, List.map_cons, List.cons.injEq] at hplaces
    obtain ⟨hx, hplaces⟩ := hplaces
    have hlater : ∀ i ∈ List.range' (k + 1) list.length, k < i := fun i hi => (List.mem_range'_1.1 hi).1
    rw [List.length_cons, List.range'_succ, List.map_cons, List.map_cons]
    refine List.cons_eq_cons.2 ⟨?_, ?_⟩
    · rw [List.filter_cons_of_pos (by simp [hx]), List.filter_eq_nil_iff.2]
      intro y hy
      have hmem : place y ∈ (List.range' (k + 1) list.length).map some := hplaces ▸ List.mem_map_of_mem hy
      obtain ⟨i, hi, hplace⟩ := List.mem_map.1 hmem
      have := hlater i hi
      simp only [← hplace, beq_iff_eq, Option.some.injEq]
      omega
    · rw [← ih hplaces]
      refine List.map_congr_left fun i hi => ?_
      have := hlater i hi
      rw [List.filter_cons_of_neg (by simp only [hx, beq_iff_eq, Option.some.injEq]; omega)]

/-- **A record that gives each declared field under one of its spellings, in order, fills all the fields.** -/
theorem slots?_named {spellings : List (List String)} {fields : List (FieldName × δ)} (short : Bool)
    (hplaces : fields.map (fun f => fieldOf spellings f.1) = (List.range spellings.length).map some) :
    slots? spellings short (.named fields) = some (fields.map fun f => some f.2) := by
  have hlength : fields.length = spellings.length := by simpa using congrArg List.length hplaces
  rw [← hlength, List.range_eq_range'] at hplaces
  have hgiven : (List.range' 0 fields.length).map (given spellings fields) = fields.map fun f => [f.2] := by
    have := congrArg (List.map (List.map (·.2))) (map_filter_places fields hplaces)
    rwa [List.map_map, List.map_map] at this
  have hsingle : ∀ list : List (FieldName × δ),
      (list.map fun f => [f.2]).mapM single? = some (list.map fun f => some f.2) := by
    intro list
    induction list with
    | nil => rfl
    | cons f list ih => rw [List.map_cons, List.mapM_cons, ih]; rfl
  rw [slots?, ← hlength, List.range_eq_range', ← hsingle, ← hgiven, List.mapM_map]
  rfl

end Fields

/-! ## Counts -/

section Counts

variable {δ : Type} [Document δ] {v : δ}

theorem count32?_of_integer? {n : UInt32} (h : integer? v = some (n.toNat : Int)) : count32? v = some n := by
  have hn := n.toNat_lt
  have hrange : 0 ≤ (n.toNat : Int) ∧ (n.toNat : Int) < 4_294_967_296 := by omega
  rw [count32?, h]
  show (if _ then some (UInt32.ofNat n.toNat) else none) = _
  rw [if_pos hrange, UInt32.ofNat_toNat]

theorem count64?_of_integer? {n : UInt64} (h : integer? v = some (n.toNat : Int)) : count64? v = some n := by
  have hn := n.toNat_lt
  have hrange : 0 ≤ (n.toNat : Int) ∧ (n.toNat : Int) < 18_446_744_073_709_551_616 := by omega
  rw [count64?, h]
  show (if _ then some (UInt64.ofNat n.toNat) else none) = _
  rw [if_pos hrange, UInt64.ofNat_toNat]

end Counts

end SwarmSampler.Document

namespace SwarmSampler.Json

open Text Document

/-! ## Members and numbers -/

theorem mapM_namedMember? (fields : List (String × Json)) :
    (fields.map fun f => (some f.1, f.2)).mapM namedMember? = some (fields.map fun f => (FieldName.name f.1, f.2)) := by
  induction fields with
  | nil => rfl
  | cons f fields ih => rw [List.map_cons, List.mapM_cons, ih]; rfl

/-- A record shows its members by the names it is written with. -/
theorem members?_record (fields : List (String × Json)) :
    members? (record fields) = some (.named (fields.map fun f => (.name f.1, f.2))) := by
  show ((fields.map fun f => (some f.1, f.2)).mapM namedMember?).map Members.named = _
  rw [mapM_namedMember?]
  rfl

/-- A document that shows one member for each field, in order, fills all the fields with its members. -/
theorem slots?_of_members? {δ β : Type} [Document δ] {v : δ} {spellings : List (List String)} {short : Bool}
    (fields : List (String × δ))
    (hmembers : members? v = some (.named (fields.map fun f => (.name f.1, f.2))))
    (hplaces : fields.map (fun f => fieldOf spellings (.name f.1)) = (List.range spellings.length).map some)
    (next : List (Option δ) → Option β) :
    ((members? v).bind fun members => (slots? spellings short members).bind next) =
      next (fields.map fun f => some f.2) := by
  rw [hmembers, Option.bind_some, slots?_named short (by rwa [List.map_map]), Option.bind_some, List.map_map]
  rfl

/-- **A record that is written under one spelling of each field, in order, fills all the fields** with its values. -/
theorem slots?_record {β : Type} {spellings : List (List String)} {fields : List (String × Json)} {short : Bool}
    (hplaces : fields.map (fun f => fieldOf spellings (.name f.1)) = (List.range spellings.length).map some)
    (next : List (Option Json) → Option β) :
    ((members? (record fields)).bind fun members => (slots? spellings short members).bind next) =
      next (fields.map fun f => some f.2) :=
  slots?_of_members? fields (members?_record fields) hplaces next

theorem toInt?_ofInt {n : Nat} (h : n < Numeral.significandLimit) : (Numeral.ofInt n).toInt? = some n := by
  have hsign : decide ((n : Int) < 0) = false := decide_eq_false (by omega)
  simp only [Numeral.ofInt, Numeral.toInt?, hsign, Int.natAbs_natCast, readDigits_decimal, ne_eq, not_true_eq_false,
    or_self, if_false, Bool.false_eq_true, h, if_true]
  rfl

theorem integer?_int {n : Nat} (h : n < Numeral.significandLimit) : integer? (int n) = some (n : Int) := toInt?_ofInt h

theorem count32?_int (n : UInt32) : count32? (int n.toNat) = some n :=
  count32?_of_integer? (integer?_int (Nat.lt_trans n.toNat_lt (by decide)))

theorem count64?_int (n : UInt64) : count64? (int n.toNat) = some n :=
  count64?_of_integer? (integer?_int n.toNat_lt)

/-! ## Content -/

theorem contentWithin_int {n : Nat} (h : n < Numeral.significandLimit) (depth : Nat) :
    contentWithin depth (int n) = some (.natural n) := by
  rw [int, contentWithin, toInt?_ofInt h]
  rfl

/-- A number as content is the number that is read of it as it stands. -/
theorem contentWithin_number {n : Numeral} {x : Float} (h : real? (.number n) = some x) (depth : Nat) :
    ∃ c, contentWithin depth (.number n) = some c ∧ c.real? = some x := by
  rw [real?] at h
  rw [contentWithin]
  cases hn : n.toInt? with
  | none =>
    rw [hn] at h
    exact ⟨.real x, congrArg (Option.map Content.real) h, rfl⟩
  | some k =>
    rw [hn] at h
    cases k with
    | ofNat k => exact ⟨.natural k, rfl, h⟩
    | negSucc k => exact ⟨.signed (.negSucc k), rfl, h⟩

/-- A record's tag is told from its other members, which are taken in as content. -/
theorem tagged?_record {tag kind : String} {depth : Nat} {contents : List (Content × Content)}
    (fields : List (String × Json)) (others : tag ∉ fields.map (·.1))
    (hcontents : contentFields (depthLimit - (depth + 1)) (fields.map fun f => (some f.1, f.2)) = some contents) :
    TaggedDocument.tagged? tag depth (record ((tag, .text kind) :: fields)) = some (kind, .fields contents) := by
  have hother : ∀ f ∈ fields.map fun f => (some f.1, f.2), (f.1 != some tag) = true := by
    intro f hf
    obtain ⟨g, hg, rfl⟩ := List.mem_map.1 hf
    have hname : g.1 ≠ tag := fun h => others (h ▸ List.mem_map_of_mem hg)
    simpa using hname
  show tagged? tag depth (.object ((some tag, .text kind) :: fields.map fun f => (some f.1, f.2))) = _
  rw [tagged?, List.filter_cons_of_pos (by simp), List.filter_cons_of_neg (by simp),
    List.filter_eq_self.2 hother, List.filter_eq_nil_iff.2 fun f hf => by simpa using hother f hf, hcontents]
  rfl

end SwarmSampler.Json
