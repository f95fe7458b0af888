import SwarmSampler.Text.Base32
import SwarmSampler.Text.Hex
import SwarmSampler.Text.Utf8

/-
Bytes written in digits of sixteen and of thirty-two values, and read back. Either
way no two lists of bytes are written alike, what is read is written as it stood
up to the case of its letters, and any digits are read as long as they make up
whole bytes.
-/

namespace SwarmSampler.Text

/-! ## Characters of ASCII -/

/-- What holds of the first 128 characters holds of a character among them. -/
theorem of_ascii {p : Char → Prop} (h : ∀ n < 128, p (Char.ofNat n)) {c : Char} (hc : c.toNat < 128) : p c :=
  Char.ofNat_toNat c ▸ h c.toNat hc

theorem toNat_lt_of_le {c top : Char} (h : c ≤ top) (htop : top.toNat < 128) : c.toNat < 128 :=
  Nat.lt_of_le_of_lt (UInt32.le_iff_toNat_le.1 (Char.le_def.1 h)) htop

theorem toNat_lt_of_isLetter {c : Char} (h : isLetter c = true) : c.toNat < 128 := by
  simp only [isLetter, isLower, isUpper, Bool.or_eq_true, Bool.and_eq_true, decide_eq_true_eq] at h
  obtain ⟨-, h⟩ | ⟨-, h⟩ := h <;> exact toNat_lt_of_le h (by decide)

theorem toNat_lt_of_isHexDigit {c : Char} (h : isHexDigit c = true) : c.toNat < 128 := by
  simp only [isHexDigit, isDigit, Bool.or_eq_true, Bool.and_eq_true, decide_eq_true_eq] at h
  obtain (⟨-, h⟩ | ⟨-, h⟩) | ⟨-, h⟩ := h <;> exact toNat_lt_of_le h (by decide)

/-- In UTF-8 a text of ASCII is as long as it has characters. -/
theorem byteLength_eq_length {s : List Char} (h : ∀ c ∈ s, c.toNat < 128) : byteLength s = s.length := by
  induction s with
  | nil => rfl
  | cons c s ih =>
    have hsize : c.utf8Size = 1 := by
      have hc : c.val.toNat < 128 := h c List.mem_cons_self
      exact Char.utf8Size_eq_one_iff.2 (UInt32.le_iff_toNat_le.2 (Nat.le_of_lt_succ hc))
    rw [byteLength_cons, hsize, ih fun d hd => h d (List.mem_cons_of_mem c hd), List.length_cons, Nat.add_comm]

/-- Putting a letter in lower case moves letters only. -/
theorem lower_of_not_isUpper {c : Char} (h : isUpper c = false) : lower c = c := by
  simp only [lower, h, Bool.false_eq_true, if_false]

theorem upper_of_not_isLower {c : Char} (h : isLower c = false) : upper c = c := by
  simp only [upper, h, Bool.false_eq_true, if_false]

/-! ## Sixteen values -/

/-- The digits that bytes are written in. -/
def isLowerHexDigit (c : Char) : Bool := isDigit c || ('a' ≤ c && c ≤ 'f')

theorem isLowerHexDigit_hexDigit {n : Nat} (h : n < 16) : isLowerHexDigit (hexDigit n) = true := by
  decide +revert

theorem hexValue?_hexDigit {n : Nat} (h : n < 16) : hexValue? (hexDigit n) = some n := by
  decide +revert

/-- A digit of either case has a value, and is the digit of that value in lower case. -/
theorem exists_hexValue? {c : Char} (h : isHexDigit c = true) :
    ∃ n < 16, hexValue? c = some n ∧ hexDigit n = lower c := by
  have hall : ∀ n < 128, isHexDigit (Char.ofNat n) = true →
      ∃ k < 16, hexValue? (Char.ofNat n) = some k ∧ hexDigit k = lower (Char.ofNat n) := by
    decide +kernel
  exact of_ascii (p := fun c => isHexDigit c = true → ∃ k < 16, hexValue? c = some k ∧ hexDigit k = lower c) hall
    (toNat_lt_of_isHexDigit h) h

theorem isHexDigit_lower (c : Char) : isHexDigit (lower c) = isHexDigit c := by
  cases hc : isUpper c with
  | false => rw [lower_of_not_isUpper hc]
  | true =>
    have hlt : c.toNat < 128 := toNat_lt_of_isLetter (by rw [isLetter, hc, Bool.or_true])
    exact of_ascii (p := fun c => isHexDigit (lower c) = isHexDigit c) (by decide +kernel) hlt

theorem isLowerHexDigit_of_mem_hexBytes {bytes : List UInt8} {c : Char} (h : c ∈ hexBytes bytes) :
    isLowerHexDigit c = true := by
  obtain ⟨b, -, hc⟩ := List.mem_flatMap.1 h
  have hb := b.toNat_lt
  simp only [hexByte, List.mem_cons, List.not_mem_nil, or_false] at hc
  rcases hc with rfl | rfl <;> exact isLowerHexDigit_hexDigit (by omega)

theorem hexBytes_cons (b : UInt8) (bytes : List UInt8) :
    hexBytes (b :: bytes) = hexDigit (b.toNat / 16) :: hexDigit (b.toNat % 16) :: hexBytes bytes := rfl

/-- **Bytes are read back from their digits.** -/
theorem bytesOfHex?_hexBytes (bytes : List UInt8) : bytesOfHex? (hexBytes bytes) = some bytes := by
  induction bytes with
  | nil => rfl
  | cons b bytes ih =>
    have hb := b.toNat_lt
    have hsum : 16 * (b.toNat / 16) + b.toNat % 16 = b.toNat := by omega
    simp only [hexBytes_cons, bytesOfHex?, hexValue?_hexDigit (show b.toNat / 16 < 16 by omega),
      hexValue?_hexDigit (show b.toNat % 16 < 16 by omega), ih, hsum, Option.bind_eq_bind, Option.bind_some,
      UInt8.ofNat_toNat]

theorem hexBytes_injective {bytes other : List UInt8} (h : hexBytes bytes = hexBytes other) : bytes = other := by
  have hread := bytesOfHex?_hexBytes bytes
  rw [h, bytesOfHex?_hexBytes] at hread
  exact (Option.some.inj hread).symm

/-- An even number of digits is read, and what is read is written in the same digits, in lower case. -/
theorem exists_bytesOfHex? {s : List Char} (digits : ∀ c ∈ s, isHexDigit c = true) (even : s.length % 2 = 0) :
    ∃ bytes, bytesOfHex? s = some bytes ∧ hexBytes bytes = s.map lower := by
  fun_induction bytesOfHex? s with
  | case1 => exact ⟨[], rfl, rfl⟩
  | case2 a b rest ih =>
    obtain ⟨high, hhigh, hvalueHigh, hlowerHigh⟩ := exists_hexValue? (digits a List.mem_cons_self)
    obtain ⟨low, hlow, hvalueLow, hlowerLow⟩ :=
      exists_hexValue? (digits b (List.mem_cons_of_mem a List.mem_cons_self))
    obtain ⟨bytes, hbytes, hmap⟩ := ih
      (fun c hc => digits c (List.mem_cons_of_mem a (List.mem_cons_of_mem b hc)))
      (by simp only [List.length_cons] at even; omega)
    refine ⟨UInt8.ofNat (16 * high + low) :: bytes, ?_, ?_⟩
    · simp only [hvalueHigh, hvalueLow, hbytes, Option.bind_eq_bind, Option.bind_some]
    · have hbyte : (UInt8.ofNat (16 * high + low)).toNat = 16 * high + low :=
        UInt8.toNat_ofNat_of_lt' (show 16 * high + low < 256 by omega)
      rw [hexBytes_cons, hbyte, show (16 * high + low) / 16 = high by omega,
        show (16 * high + low) % 16 = low by omega, hlowerHigh, hlowerLow, hmap]
      rfl
  | case3 c => cases even

/-! ## Thirty-two values -/

namespace Base32

/-- The digit of a number below thirty-two: a capital letter, or one of 2 to 7. -/
def digit (n : Nat) : Char := if n < 26 then Char.ofNat ('A'.toNat + n) else Char.ofNat ('2'.toNat + (n - 26))

/-- What counts as a digit in either case. -/
def isDigit (c : Char) : Bool := isLetter c || ('2' ≤ c && c ≤ '7')

/-- The number that bytes write, the first the highest. -/
def number (bytes : List UInt8) : Nat := bytes.foldl (fun n b => 256 * n + b.toNat) 0

/-- Forty bits as eight numbers of five bits, the highest first. -/
def valuesOfGroup (n : Nat) : List Nat :=
  [n >>> 35, n >>> 30, n >>> 25, n >>> 20, n >>> 15, n >>> 10, n >>> 5, n].map (· % 32)

/-- Bytes as numbers of five bits, forty bits at a time. Whole groups only, as they are read. -/
def values : List UInt8 → List Nat
  | a :: b :: c :: d :: e :: rest => valuesOfGroup (number [a, b, c, d, e]) ++ values rest
  | _ => []

/-- The digits that bytes are written in. -/
def encode (bytes : List UInt8) : List Char := (values bytes).map digit

/-! ### Digits and their values -/

theorem value?_digit {n : Nat} (h : n < 32) : value? (digit n) = some n := by
  decide +revert

theorem toNat_lt_of_value? {c : Char} {n : Nat} (h : value? c = some n) : c.toNat < 128 := by
  unfold value? at h
  split at h
  · next hupper => exact toNat_lt_of_isLetter (by rw [isLetter, hupper, Bool.or_true])
  · split at h
    · next hdigit =>
      simp only [Bool.and_eq_true, decide_eq_true_eq] at hdigit
      exact toNat_lt_of_le hdigit.2 (by decide)
    · cases h

theorem digit_of_value? {c : Char} {n : Nat} (h : value? c = some n) : n < 32 ∧ digit n = c := by
  have hall : ∀ k < 128, ∀ n ∈ value? (Char.ofNat k), n < 32 ∧ digit n = Char.ofNat k := by decide +kernel
  exact of_ascii (p := fun c => ∀ n ∈ value? c, n < 32 ∧ digit n = c) hall (toNat_lt_of_value? h) n h

theorem toNat_lt_of_isDigit {c : Char} (h : isDigit c = true) : c.toNat < 128 := by
  simp only [isDigit, Bool.or_eq_true, Bool.and_eq_true, decide_eq_true_eq] at h
  rcases h with h | ⟨-, h⟩
  · exact toNat_lt_of_isLetter h
  · exact toNat_lt_of_le h (by decide)

/-- Just the digits of either case have a value once they are capitals. -/
theorem isSome_value?_upper (c : Char) : (value? (upper c)).isSome = isDigit c := by
  by_cases hc : c.toNat < 128
  · exact of_ascii (p := fun c => (value? (upper c)).isSome = isDigit c) (by decide +kernel) hc
  · have hdigit : isDigit c = false := Bool.eq_false_iff.2 fun h => hc (toNat_lt_of_isDigit h)
    have hlower : isLower c = false := Bool.eq_false_iff.2 fun h =>
      hc (toNat_lt_of_isLetter (by rw [isLetter, h, Bool.true_or]))
    rw [hdigit, upper_of_not_isLower hlower, Option.isSome_eq_false_iff, Option.isNone_iff_eq_none,
      Option.eq_none_iff_forall_ne_some]
    exact fun n h => hc (toNat_lt_of_value? h)

theorem mapM_value?_digit {vs : List Nat} (h : ∀ v ∈ vs, v < 32) : (vs.map digit).mapM value? = some vs := by
  induction vs with
  | nil => rfl
  | cons v vs ih =>
    rw [List.map_cons, List.mapM_cons, value?_digit (h v List.mem_cons_self),
      ih fun w hw => h w (List.mem_cons_of_mem v hw)]
    rfl

theorem digits_of_mapM_value? {text : List Char} {vs : List Nat} (h : text.mapM value? = some vs) :
    (∀ v ∈ vs, v < 32) ∧ vs.map digit = text := by
  induction text generalizing vs with
  | nil =>
    cases h
    exact ⟨nofun, rfl⟩
  | cons c text ih =>
    simp only [List.mapM_cons, Option.bind_eq_bind, Option.bind_eq_some_iff, Option.pure_def] at h
    obtain ⟨v, hv, ws, hws, hvs⟩ := h
    cases hvs
    obtain ⟨hlt, hdigit⟩ := digit_of_value? hv
    obtain ⟨hall, hmap⟩ := ih hws
    exact ⟨List.forall_mem_cons.2 ⟨hlt, hall⟩, by rw [List.map_cons, hdigit, hmap]⟩

theorem exists_mapM_value? {text : List Char} (h : ∀ c ∈ text, (value? c).isSome = true) :
    ∃ vs, text.mapM value? = some vs := by
  induction text with
  | nil => exact ⟨[], rfl⟩
  | cons c text ih =>
    obtain ⟨v, hv⟩ := Option.isSome_iff_exists.1 (h c List.mem_cons_self)
    obtain ⟨vs, hvs⟩ := ih fun d hd => h d (List.mem_cons_of_mem c hd)
    exact ⟨v :: vs, by rw [List.mapM_cons, hv, hvs]; rfl⟩

theorem isSome_of_mapM_value? {text : List Char} {vs : List Nat} (h : text.mapM value? = some vs) :
    ∀ c ∈ text, (value? c).isSome = true := by
  obtain ⟨small, rfl⟩ := digits_of_mapM_value? h
  intro c hc
  obtain ⟨v, hv, rfl⟩ := List.mem_map.1 hc
  rw [value?_digit (small v hv)]
  rfl

/-! ### Groups of forty bits -/

/-- Five bytes are put together to forty bits and taken apart again. -/
theorem bytesOfGroup_number (a b c d e : UInt8) : number [a, b, c, d, e] < 1_099_511_627_776 ∧
    bytesOfGroup (number [a, b, c, d, e]) = [a, b, c, d, e] := by
  have ha := a.toNat_lt
  have hb := b.toNat_lt
  have hc := c.toNat_lt
  have hd := d.toNat_lt
  have he := e.toNat_lt
  simp only [bytesOfGroup, number, List.foldl_cons, List.foldl_nil, List.map_cons, List.map_nil,
    Nat.shiftRight_eq_div_pow, List.cons.injEq, and_true, ← UInt8.toNat_inj, UInt8.toNat_ofNat']
  omega

theorem group_valuesOfGroup {n : Nat} (h : n < 1_099_511_627_776) : group (valuesOfGroup n) = n := by
  simp only [group, valuesOfGroup, List.foldl_cons, List.foldl_nil, List.map_cons, List.map_nil,
    Nat.shiftRight_eq_div_pow]
  omega

theorem number_bytesOfGroup {n : Nat} (h : n < 1_099_511_627_776) : number (bytesOfGroup n) = n := by
  simp only [number, bytesOfGroup, List.foldl_cons, List.foldl_nil, List.map_cons, List.map_nil,
    Nat.shiftRight_eq_div_pow, UInt8.toNat_ofNat']
  omega

/-- Eight numbers of five bits are put together to forty bits and taken apart again. -/
theorem valuesOfGroup_group {a b c d e f g h : Nat} (small : ∀ v ∈ [a, b, c, d, e, f, g, h], v < 32) :
    group [a, b, c, d, e, f, g, h] < 1_099_511_627_776 ∧
      valuesOfGroup (group [a, b, c, d, e, f, g, h]) = [a, b, c, d, e, f, g, h] := by
  simp only [List.forall_mem_cons, List.not_mem_nil, false_implies, implies_true, and_true] at small
  simp only [group, valuesOfGroup, List.foldl_cons, List.foldl_nil, List.map_cons, List.map_nil,
    Nat.shiftRight_eq_div_pow, List.cons.injEq, and_true]
  omega

/-! ### Bytes and digits -/

theorem lt_of_mem_valuesOfGroup {n v : Nat} (h : v ∈ valuesOfGroup n) : v < 32 := by
  obtain ⟨k, -, rfl⟩ := List.mem_map.1 h
  exact Nat.mod_lt k (by decide)

theorem lt_of_mem_values {bytes : List UInt8} {v : Nat} (h : v ∈ values bytes) : v < 32 := by
  fun_induction values bytes with
  | case1 a b c d e rest ih => exact (List.mem_append.1 h).elim lt_of_mem_valuesOfGroup ih
  | case2 => cases h

theorem bytesOfValues?_values {bytes : List UInt8} (whole : bytes.length % 5 = 0) :
    bytesOfValues? (values bytes) = some bytes := by
  fun_induction values bytes with
  | case1 a b c d e rest ih =>
    have hrest : bytesOfValues? (values rest) = some rest := ih (by simp only [List.length_cons] at whole; omega)
    obtain ⟨hlt, hbytes⟩ := bytesOfGroup_number a b c d e
    have hgroup := group_valuesOfGroup hlt
    simp only [valuesOfGroup, List.map_cons, List.map_nil] at hgroup ⊢
    simp only [List.cons_append, List.nil_append, bytesOfValues?, hgroup, hrest, Option.map_some, hbytes]
  | case2 bytes hshort =>
    match bytes, whole with
    | [], _ => rfl
    | a :: b :: c :: d :: e :: rest, _ => exact absurd rfl (hshort a b c d e rest)

/-- What is read of numbers of five bits is written as them, and has five bytes for each eight. -/
theorem values_of_bytesOfValues? {vs : List Nat} {bytes : List UInt8} (h : bytesOfValues? vs = some bytes)
    (small : ∀ v ∈ vs, v < 32) : values bytes = vs ∧ 8 * bytes.length = 5 * vs.length := by
  fun_induction bytesOfValues? vs generalizing bytes with
  | case1 =>
    cases h
    exact ⟨rfl, rfl⟩
  | case2 a b c d e f g k rest ih =>
    obtain ⟨tail, htail, rfl⟩ := Option.map_eq_some_iff.1 h
    have hsplit : ∀ v ∈ [a, b, c, d, e, f, g, k] ++ rest, v < 32 := small
    rw [List.forall_mem_append] at hsplit
    obtain ⟨hlt, hgroup⟩ := valuesOfGroup_group hsplit.1
    obtain ⟨hvalues, hlength⟩ := ih htail hsplit.2
    have hnumber := number_bytesOfGroup hlt
    constructor
    · rw [show bytesOfGroup (group [a, b, c, d, e, f, g, k]) = _ :: _ :: _ :: _ :: _ :: [] from rfl] at hnumber ⊢
      rw [List.cons_append, List.cons_append, List.cons_append, List.cons_append, List.cons_append, values, hnumber,
        hgroup, List.nil_append, hvalues]
      rfl
    · simp only [List.length_append, List.length_cons, bytesOfGroup, List.map_cons, List.map_nil, List.length_nil]
      omega
  | case3 => cases h

theorem exists_bytesOfValues? {vs : List Nat} (whole : vs.length % 8 = 0) :
    ∃ bytes, bytesOfValues? vs = some bytes := by
  fun_induction bytesOfValues? vs with
  | case1 => exact ⟨[], rfl⟩
  | case2 a b c d e f g k rest ih =>
    obtain ⟨tail, htail⟩ := ih (by simp only [List.length_cons] at whole; omega)
    exact ⟨_, by rw [htail, Option.map_some]⟩
  | case3 vs hnil hshort =>
    match vs, whole with
    | [], _ => exact absurd rfl hnil
    | a :: b :: c :: d :: e :: f :: g :: k :: rest, _ => exact absurd rfl (hshort a b c d e f g k rest)

/-- **Bytes in whole groups are read back from their digits.** -/
theorem decode?_encode {bytes : List UInt8} (whole : bytes.length % 5 = 0) :
    decode? (encode bytes) = some bytes := by
  rw [decode?, encode, mapM_value?_digit fun _ hv => lt_of_mem_values hv, Option.bind_some,
    bytesOfValues?_values whole]

/-- **What is read is written as it stood.** -/
theorem encode_of_decode? {text : List Char} {bytes : List UInt8} (h : decode? text = some bytes) :
    encode bytes = text ∧ 8 * bytes.length = 5 * text.length := by
  obtain ⟨vs, hvs, hbytes⟩ := Option.bind_eq_some_iff.1 h
  obtain ⟨hlt, hdigits⟩ := digits_of_mapM_value? hvs
  obtain ⟨hvalues, hlength⟩ := values_of_bytesOfValues? hbytes hlt
  refine ⟨by rw [encode, hvalues, hdigits], ?_⟩
  rw [hlength, ← hdigits, List.length_map]

/-- Digits of either case are read in whole groups of eight. -/
theorem exists_decode? {text : List Char} (digits : ∀ c ∈ text, isDigit c = true) (whole : text.length % 8 = 0) :
    ∃ bytes, decode? (text.map upper) = some bytes := by
  have hvalues : ∀ c ∈ text.map upper, (value? c).isSome = true := by
    intro c hc
    obtain ⟨d, hd, rfl⟩ := List.mem_map.1 hc
    rw [isSome_value?_upper, digits d hd]
  obtain ⟨vs, hvs⟩ := exists_mapM_value? hvalues
  obtain ⟨-, hdigits⟩ := digits_of_mapM_value? hvs
  have hlength : vs.length % 8 = 0 := by
    rw [← List.length_map, hdigits, List.length_map, whole]
  obtain ⟨bytes, hbytes⟩ := exists_bytesOfValues? hlength
  exact ⟨bytes, by rw [decode?, hvs, Option.bind_some, hbytes]⟩

end Base32

end SwarmSampler.Text
