import SwarmSampler.Proofs.Json.Scanning

/-
What is written of a JSON value is read back as the value. A value is read up
to where it ends and what follows is left, so the values inside an array or an
object are read one after another; the text's length bounds the steps.
-/

namespace SwarmSampler.Json

open Text

/-- Values that stand in their text as a whole: their strings have texts and their numerals are regular. -/
inductive Writable : Json → Prop
  | null : Writable .null
  | bool (b : Bool) : Writable (.bool b)
  | number {n : Numeral} (regular : Regular n) : Writable (.number n)
  | string (s : String) : Writable (.string (some s))
  | array {items : List Json} (each : ∀ v ∈ items, Writable v) : Writable (.array items)
  | object {fields : List (Option String × Json)} (named : ∀ f ∈ fields, f.1.isSome = true)
      (each : ∀ f ∈ fields, Writable f.2) : Writable (.object fields)

/-- A value is read from what is written of it wherever it ends, in no more steps than twice the text's length. -/
def ReadBack (v : Json) : Prop :=
  ∀ {rest : List Char} {fuel : Nat}, Ends rest → 2 * v.writeList.length ≤ fuel →
    readValue fuel (v.writeList ++ rest) = some (v, rest)

variable {rest : List Char} {fuel : Nat} {v : Json}

theorem skipSpace_cons {c : Char} (h : isSpace c = false) (rest : List Char) : skipSpace (c :: rest) = c :: rest :=
  List.dropWhile_cons_of_neg (by simp [h])

theorem readValue_array {c : Char} (hspace : isSpace c = false) (hclose : c ≠ ']') (rest : List Char) :
    readValue (fuel + 1) ('[' :: c :: rest) = (readItems fuel (c :: rest)).map fun p => (.array p.1, p.2) := by
  simp only [readValue, skipSpace_cons (show isSpace '[' = false by decide), skipSpace_cons hspace]
  split
  · next h => exact absurd (List.cons.inj h).1 hclose
  · cases readItems fuel (c :: rest) <;> rfl

theorem readValue_object (rest : List Char) :
    readValue (fuel + 1) ('\x7b' :: '"' :: rest) = (readFields fuel ('"' :: rest)).map fun p => (.object p.1, p.2) := by
  simp only [readValue, skipSpace_cons (show isSpace '\x7b' = false by decide),
    skipSpace_cons (show isSpace '"' = false by decide)]
  split
  · next h => exact absurd (List.cons.inj h).1 (by decide)
  · cases readFields fuel ('"' :: rest) <;> rfl

theorem readValue_string (s : String) (rest : List Char) :
    readValue (fuel + 1) (writeString s ++ rest) = some (.string (some s), rest) := by
  simp only [writeString, List.cons_append, List.append_assoc, List.nil_append, readValue,
    skipSpace_cons (show isSpace '"' = false by decide), readString_write]
  rfl

/-- The characters a numeral begins with. -/
def isLead (c : Char) : Bool := c == '-' || isDigit c

theorem head_writeNumeral {n : Numeral} (hn : Regular n) : ∃ c tail, writeNumeral n = c :: tail ∧ isLead c = true := by
  obtain ⟨d, ds, hwhole⟩ := List.exists_cons_of_ne_nil hn.nonempty
  have hd : isDigit d = true := hn.whole d (hwhole ▸ List.mem_cons_self)
  unfold writeNumeral
  rw [hwhole]
  split
  · exact ⟨_, _, rfl, rfl⟩
  · exact ⟨d, _, rfl, by rw [isLead, hd, Bool.or_true]⟩

theorem isSpace_of_isLead {c : Char} (hc : isLead c = true) : isSpace c = false := Bool.eq_false_iff.2 fun h => by
  simp only [isSpace, Bool.or_eq_true, beq_iff_eq] at h
  rcases h with ((rfl | rfl) | rfl) | rfl <;> revert hc <;> decide

/-- What begins like a numeral begins like no other value. -/
theorem readValue_lead {c : Char} (hc : isLead c = true) (tail : List Char) :
    readValue (fuel + 1) (c :: tail) = (readNumeral (c :: tail)).map fun p => (.number p.1, p.2) := by
  have hother : ∀ {d : Char}, isLead d = false → c ≠ d := fun hd h => Bool.false_ne_true (hd.symm.trans (h ▸ hc))
  rw [readValue, skipSpace_cons (isSpace_of_isLead hc)]
  split
  case h_7 => cases readNumeral (c :: tail) <;> rfl
  all_goals next h => exact absurd (List.cons.inj h).1 (hother (by decide))

theorem readValue_number {n : Numeral} (hn : Regular n) (hrest : Ends rest) :
    readValue (fuel + 1) (writeNumeral n ++ rest) = some (.number n, rest) := by
  have hread := readNumeral_write hn hrest
  obtain ⟨c, tail, hwrite, hc⟩ := head_writeNumeral hn
  rw [hwrite, List.cons_append] at hread ⊢
  rw [readValue_lead hc, hread]
  rfl

theorem readName_write (name : String) (rest : List Char) :
    readName (writeString name ++ ':' :: rest) = some (some name, rest) := by
  simp only [writeString, List.cons_append, List.append_assoc, List.nil_append, readName,
    skipSpace_cons (show isSpace '"' = false by decide), readString_write]
  rfl

/-- What is written of a value begins with what no space is and no array ends with. -/
theorem head_writeList (h : Writable v) : ∃ c tail, v.writeList = c :: tail ∧ isSpace c = false ∧ c ≠ ']' := by
  cases h with
  | null => exact ⟨_, _, rfl, by decide, by decide⟩
  | bool b => cases b <;> exact ⟨_, _, rfl, by decide, by decide⟩
  | number regular =>
    obtain ⟨c, tail, hwrite, hc⟩ := head_writeNumeral regular
    refine ⟨c, tail, by rw [writeList, hwrite], isSpace_of_isLead hc, ?_⟩
    rintro rfl
    exact absurd hc (by decide)
  | string s => exact ⟨_, _, rfl, by decide, by decide⟩
  | @array items each => cases items <;> exact ⟨_, _, rfl, by decide, by decide⟩
  | @object fields named each => rcases fields with _ | ⟨⟨name, v⟩, fields⟩ <;> exact ⟨_, _, rfl, by decide, by decide⟩

theorem ends_writeItems (items : List Json) (rest : List Char) : Ends (writeItems items ++ rest) := by
  cases items <;> (intro c hc; cases hc; decide)

theorem ends_writeFields (fields : List (Option String × Json)) (rest : List Char) :
    Ends (writeFields fields ++ rest) := by
  rcases fields with _ | ⟨⟨name, v⟩, fields⟩ <;> (intro c hc; cases hc; decide)

theorem readItems_write (items : List Json) : ∀ {item : Json} {fuel : Nat}, (∀ v ∈ item :: items, ReadBack v) →
    2 * (item.writeList.length + (writeItems items).length) + 1 ≤ fuel →
    readItems fuel (item.writeList ++ (writeItems items ++ rest)) = some (item :: items, rest) := by
  induction items with
  | nil =>
    intro item fuel hback hfuel
    obtain ⟨fuel, rfl⟩ := Nat.exists_eq_add_of_le' (Nat.le_trans (Nat.le_add_left 1 _) hfuel)
    rw [readItems, hback item (.head _) (ends_writeItems _ _) (by omega)]
    rfl
  | cons next items ih =>
    intro item fuel hback hfuel
    obtain ⟨fuel, rfl⟩ := Nat.exists_eq_add_of_le' (Nat.le_trans (Nat.le_add_left 1 _) hfuel)
    simp only [writeItems, List.cons_append, List.length_cons, List.length_append] at hfuel
    have hnext : readItems fuel (next.writeList ++ (writeItems items ++ rest)) = some (next :: items, rest) :=
      ih (fun v hv => hback v (.tail _ hv)) (by omega)
    rw [readItems, hback item (.head _) (ends_writeItems _ _) (by omega)]
    simp only [writeItems, List.cons_append, List.append_assoc, Option.bind_eq_bind, Option.bind_some,
      skipSpace_cons (show isSpace ',' = false by decide)]
    rw [hnext]
    rfl

theorem readFields_write (fields : List (Option String × Json)) : ∀ {name : String} {v : Json} {fuel : Nat},
    (∀ f ∈ fields, f.1.isSome = true) → (∀ f ∈ (some name, v) :: fields, ReadBack f.2) →
    2 * (v.writeList.length + (writeFields fields).length) + 1 ≤ fuel →
    readFields fuel (writeString name ++ ':' :: (v.writeList ++ (writeFields fields ++ rest))) =
      some ((some name, v) :: fields, rest) := by
  induction fields with
  | nil =>
    intro name v fuel _ hback hfuel
    have hv : ReadBack v := hback _ (.head _)
    obtain ⟨fuel, rfl⟩ := Nat.exists_eq_add_of_le' (Nat.le_trans (Nat.le_add_left 1 _) hfuel)
    rw [readFields, readName_write, Option.bind_eq_bind, Option.bind_some]
    dsimp only
    rw [hv (ends_writeFields _ _) (by omega)]
    rfl
  | cons next fields ih =>
    intro name v fuel hnamed hback hfuel
    have hv : ReadBack v := hback _ (.head _)
    obtain ⟨fuel, rfl⟩ := Nat.exists_eq_add_of_le' (Nat.le_trans (Nat.le_add_left 1 _) hfuel)
    obtain ⟨nextName, value⟩ := next
    obtain ⟨nextName, rfl⟩ := Option.isSome_iff_exists.1 (hnamed _ (.head _))
    simp only [writeFields, List.cons_append, List.length_cons, List.length_append] at hfuel
    have hnext : readFields fuel (writeString nextName ++ ':' :: (value.writeList ++ (writeFields fields ++ rest))) =
        some ((some nextName, value) :: fields, rest) :=
      ih (fun f hf => hnamed f (.tail _ hf)) (fun f hf => hback f (.tail _ hf)) (by omega)
    rw [readFields, readName_write, Option.bind_eq_bind, Option.bind_some]
    dsimp only
    rw [hv (ends_writeFields _ _) (by omega)]
    simp only [writeFields, List.cons_append, List.append_assoc, Option.bind_eq_bind, Option.bind_some,
      Option.getD_some, skipSpace_cons (show isSpace ',' = false by decide)]
    rw [hnext]
    rfl

/-- What is written of a value is not nothing, so there is a step to read it with. -/
theorem Writable.succ_of_le (h : Writable v) (hfuel : 2 * v.writeList.length ≤ fuel) : ∃ less, fuel = less + 1 := by
  obtain ⟨c, tail, hwrite, -⟩ := head_writeList h
  rw [hwrite, List.length_cons] at hfuel
  exact ⟨fuel - 1, by omega⟩

/-- **A value is read back from what is written of it**, and what follows is left. -/
theorem Writable.readBack (h : Writable v) : ReadBack v := by
  induction h with
  | null =>
    intro rest fuel _ hfuel
    obtain ⟨fuel, rfl⟩ := Writable.null.succ_of_le hfuel
    rfl
  | bool b =>
    intro rest fuel _ hfuel
    obtain ⟨fuel, rfl⟩ := (Writable.bool b).succ_of_le hfuel
    cases b <;> rfl
  | number regular =>
    intro rest fuel hrest hfuel
    obtain ⟨fuel, rfl⟩ := (Writable.number regular).succ_of_le hfuel
    exact readValue_number regular hrest
  | string s =>
    intro rest fuel _ hfuel
    obtain ⟨fuel, rfl⟩ := (Writable.string s).succ_of_le hfuel
    exact readValue_string s rest
  | @array items each ih =>
    intro rest fuel _ hfuel
    obtain ⟨fuel, rfl⟩ := (Writable.array each).succ_of_le hfuel
    cases items with
    | nil => rfl
    | cons item items =>
      obtain ⟨c, tail, hwrite, hspace, hclose⟩ := head_writeList (each item (.head _))
      simp only [writeList, List.cons_append, List.length_cons, List.length_append] at hfuel
      have hitems : readItems fuel (item.writeList ++ (writeItems items ++ rest)) = some (item :: items, rest) :=
        readItems_write items ih (by omega)
      simp only [writeList, List.cons_append, List.append_assoc]
      rw [hwrite, List.cons_append] at hitems ⊢
      rw [readValue_array hspace hclose, hitems]
      rfl
  | @object fields named each ih =>
    intro rest fuel _ hfuel
    obtain ⟨fuel, rfl⟩ := (Writable.object named each).succ_of_le hfuel
    rcases fields with _ | ⟨⟨name, v⟩, fields⟩
    · rfl
    · obtain ⟨name, rfl⟩ := Option.isSome_iff_exists.1 (named _ (.head _))
      simp only [writeList, List.cons_append, List.length_cons, List.length_append] at hfuel
      have hfields : readFields fuel (writeString name ++ ':' :: (v.writeList ++ (writeFields fields ++ rest))) =
          some ((some name, v) :: fields, rest) :=
        readFields_write fields (fun f hf => named f (.tail _ hf)) ih (by omega)
      simp only [writeList, List.cons_append, List.append_assoc, Option.getD_some]
      simp only [writeString, List.cons_append, List.append_assoc] at hfields ⊢
      rw [readValue_object, hfields]
      rfl

/-- **A text written of a value is read as the value.** -/
theorem read?_write (h : Writable v) : read? (write v) = some v := by
  have hread : readValue (2 * v.writeList.length + 1) (v.writeList ++ []) = some (v, []) :=
    h.readBack (fun _ hc => by cases hc) (Nat.le_succ _)
  rw [List.append_nil] at hread
  unfold read? write
  simp only [String.toList_ofList, hread]
  rfl

/-! ## Values that are written -/

attribute [simp] Writable.null Writable.bool

@[simp] theorem Writable.text (s : String) : Writable (.text s) := .string s

@[simp] theorem Writable.int (n : Int) : Writable (.int n) :=
  .number ⟨Nat.toDigits_ne_nil, fun _ => isDigit_of_mem_decimal, head?_decimal, fun _ hc => absurd hc List.not_mem_nil⟩

@[simp] theorem Writable.optional {α : Type} {write : α → Json} {o : Option α} (h : ∀ x ∈ o, Writable (write x)) :
    Writable (.optional write o) := by
  cases o with
  | none => exact .null
  | some x => exact h x rfl

theorem Writable.record {fields : List (String × Json)} (h : ∀ f ∈ fields, Writable f.2) :
    Writable (.record fields) := by
  refine .object (fun f hf => ?_) fun f hf => ?_
  all_goals obtain ⟨member, hmember, rfl⟩ := List.mem_map.1 hf
  · rfl
  · exact h member hmember

end SwarmSampler.Json
