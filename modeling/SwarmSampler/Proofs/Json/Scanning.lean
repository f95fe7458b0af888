import SwarmSampler.Json.Read
import SwarmSampler.Json.Write
import SwarmSampler.Proofs.Text.Bytes
import SwarmSampler.Proofs.Text.Decimal

/-
The strings and numerals of JSON are read back as they were written. A string
ends at its own quote and not before; a numeral ends where something follows
that can go on no numeral.
-/

namespace SwarmSampler.Json

open Text

/-! ## Strings -/

/-- The characters that are escaped by a letter, each with its letter. -/
def letters : List (Char × Char) :=
  [('"', '"'), ('\\', '\\'), ('\n', 'n'), ('\r', 'r'), ('\t', 't'), ('\x08', 'b'), ('\x0c', 'f')]

/-- The piece a character of a string is written as. -/
def pieceOf (c : Char) : Piece :=
  if c ∉ letters.map (·.1) ∧ c.toNat < 0x20 then .unit c.toNat else .char c

theorem unit?_control {n : Nat} (h : n < 0x20) : unit? '0' '0' (hexDigit (n / 16)) (hexDigit (n % 16)) = some n := by
  have hzero : hexValue? '0' = some 0 := by decide
  have hsum : 0 * 4096 + 0 * 256 + n / 16 * 16 + n % 16 = n := by omega
  have hhigh : hexValue? (hexDigit (n / 16)) = some (n / 16) := hexValue?_hexDigit (by omega)
  have hlow : hexValue? (hexDigit (n % 16)) = some (n % 16) := hexValue?_hexDigit (Nat.mod_lt n (by decide))
  simp only [unit?, hzero, hhigh, hlow, Option.bind_eq_bind, Option.bind_some, hsum]

theorem escaped_letter : ∀ p ∈ letters, escaped p.1 = ['\\', p.2] ∧ p.2 ≠ 'u' ∧ escape? p.2 = some p.1 := by
  decide

theorem escaped_other {c : Char} (h : c ∉ letters.map (·.1)) :
    escaped c =
      if c.toNat < 0x20 then ['\\', 'u', '0', '0', hexDigit (c.toNat / 16), hexDigit (c.toNat % 16)] else [c] := by
  simp only [letters, List.map_cons, List.map_nil, List.mem_cons, List.not_mem_nil, or_false, not_or] at h
  simp only [escaped, beq_iff_eq, h, if_false]

/-- A character is read as its piece. -/
theorem readPieces_escaped (c : Char) (rest : List Char) :
    readPieces (escaped c ++ rest) = (readPieces rest).map fun p => (pieceOf c :: p.1, p.2) := by
  by_cases hletter : c ∈ letters.map (·.1)
  · obtain ⟨⟨c, letter⟩, hmem, rfl⟩ := List.mem_map.1 hletter
    obtain ⟨hescaped, hunit, hescape⟩ := escaped_letter _ hmem
    rw [hescaped, pieceOf, if_neg fun h => h.1 hletter, List.cons_append, List.cons_append, List.nil_append, readPieces,
      hescape]
    · cases readPieces rest <;> rfl
    · exact fun _ _ _ _ _ h => absurd h hunit
  · rw [escaped_other hletter, pieceOf]
    by_cases hcontrol : c.toNat < 0x20
    · rw [if_pos hcontrol, if_pos ⟨hletter, hcontrol⟩]
      simp only [List.cons_append, List.nil_append, readPieces, unit?_control hcontrol]
      cases readPieces rest <;> rfl
    · have hquote : c ≠ '"' := fun h => hletter (h ▸ by decide)
      have hslash : c ≠ '\\' := fun h => hletter (h ▸ by decide)
      rw [if_neg hcontrol, if_neg fun h => hcontrol h.2, List.singleton_append, readPieces,
        if_neg (by simp [hcontrol, hslash])]
      · cases readPieces rest <;> rfl
      · exact hquote
      · exact fun _ _ _ _ _ h => absurd h hslash
      · exact fun _ _ h => absurd h hslash

theorem assemble?_unit {n : Nat} (h : n < 0xD800) (rest : List Piece) :
    assemble? (.unit n :: rest) = (assemble? rest).map (Char.ofNat n :: ·) := by
  have hhalf : isHighHalf n = false ∧ isLowHalf n = false := by
    simp only [isHighHalf, isLowHalf, Bool.and_eq_false_iff, decide_eq_false_iff_not]
    omega
  rcases rest with _ | ⟨p, rest⟩
  · simp [assemble?, hhalf]
  · cases p <;> simp [assemble?, hhalf]

theorem assemble?_pieces (s : List Char) : assemble? (s.map pieceOf) = some s := by
  induction s with
  | nil => rfl
  | cons c s ih =>
    rw [List.map_cons, pieceOf]
    split
    · next h => rw [assemble?_unit (by omega), ih, Char.ofNat_toNat]; rfl
    · rw [assemble?, ih]; rfl

theorem readPieces_string (s rest : List Char) :
    readPieces (s.flatMap escaped ++ '"' :: rest) = some (s.map pieceOf, rest) := by
  induction s with
  | nil => rfl
  | cons c s ih => rw [List.flatMap_cons, List.append_assoc, readPieces_escaped, ih]; rfl

/-- **A string is read back as it was written**, whatever follows it. -/
theorem readString_write (s : String) (rest : List Char) :
    readString (s.toList.flatMap escaped ++ '"' :: rest) = some (some s, rest) := by
  rw [readString, readPieces_string]
  show some ((assemble? (s.toList.map pieceOf)).map String.ofList, rest) = _
  rw [assemble?_pieces, Option.map_some, String.ofList_toList]

/-! ## Numerals -/

/-- What follows begins with one of some characters, if anything does. -/
def Next (allowed rest : List Char) : Prop := ∀ c ∈ rest.head?, c ∈ allowed

/-- What follows a value in a text: the end, or what closes or goes on an array or an object. -/
abbrev Ends : List Char → Prop := Next [',', ']', '\x7d']

variable {digits rest : List Char}

theorem Next.not_isDigit {allowed : List Char} (h : Next allowed rest) (hallowed : allowed.any isDigit = false) :
    ∀ c ∈ rest.head?, isDigit c = false := fun c hc =>
  Bool.eq_false_iff.2 (List.any_eq_false.1 hallowed c (h c hc))

theorem readDigits1_append (hsome : digits ≠ []) (hdigits : ∀ c ∈ digits, isDigit c = true)
    (hrest : ∀ c ∈ rest.head?, isDigit c = false) : readDigits1 (digits ++ rest) = some (digits, rest) := by
  simp only [readDigits1, takeWhile_run hdigits hrest, dropWhile_run hdigits hrest, List.isEmpty_iff, hsome, if_false]

/-- A numeral that the grammar knows. -/
structure Regular (n : Numeral) : Prop where
  nonempty : n.whole ≠ []
  whole : ∀ c ∈ n.whole, isDigit c = true
  lead : n.whole.head? = some '0' → n.whole = ['0']
  fraction : ∀ c ∈ n.fraction, isDigit c = true

variable {n : Numeral}

theorem readWhole_append (hn : Regular n) (hrest : ∀ c ∈ rest.head?, isDigit c = false) :
    readWhole (n.whole ++ rest) = some (n.whole, rest) := by
  rw [readWhole, readDigits1_append hn.nonempty hn.whole hrest]
  show (if _ then none else some (n.whole, rest)) = _
  refine if_neg fun h => ?_
  simp only [Bool.and_eq_true, beq_iff_eq, decide_eq_true_eq] at h
  rw [hn.lead h.1] at h
  exact absurd h.2 (by decide)

def fractionPart (n : Numeral) : List Char := if n.fraction.isEmpty then [] else '.' :: n.fraction

def exponentPart (n : Numeral) : List Char :=
  match n.exponent with
  | none => []
  | some e => 'e' :: writeInt e

theorem readFraction_append (hn : Regular n) (hrest : Next ('e' :: [',', ']', '\x7d']) rest) :
    readFraction (fractionPart n ++ rest) = some (n.fraction, rest) := by
  unfold fractionPart
  split
  · next hnone =>
    rw [List.isEmpty_iff.1 hnone, List.nil_append, readFraction]
    rintro tail rfl
    exact absurd (hrest '.' rfl) (by decide)
  · next hsome =>
    exact readDigits1_append (fun h => hsome (List.isEmpty_iff.2 h)) hn.fraction (hrest.not_isDigit rfl)

theorem natAbs_of_neg {e : Int} (h : e < 0) : -(e.natAbs : Int) = e := by omega

theorem natAbs_of_not_neg {e : Int} (h : ¬ e < 0) : (e.natAbs : Int) = e := by omega

theorem readDigits1_decimal (m : Nat) (hrest : ∀ c ∈ rest.head?, isDigit c = false) :
    readDigits1 (decimal m ++ rest) = some (decimal m, rest) :=
  readDigits1_append Nat.toDigits_ne_nil (fun _ => isDigit_of_mem_decimal) hrest

/-- A text of digits begins with no other character. -/
theorem head_decimal {m : Nat} {c : Char} {tail : List Char} (h : decimal m ++ rest = c :: tail) :
    isDigit c = true := by
  obtain ⟨d, ds, hdecimal⟩ : ∃ d ds, decimal m = d :: ds := List.exists_cons_of_ne_nil Nat.toDigits_ne_nil
  rw [hdecimal, List.cons_append, List.cons.injEq] at h
  rw [← h.1]
  exact isDigit_of_mem_decimal (hdecimal ▸ List.mem_cons_self)

theorem readExponent_append (n : Numeral) (hrest : Ends rest) :
    readExponent (exponentPart n ++ rest) = some (n.exponent, rest) := by
  have hstop := hrest.not_isDigit rfl
  unfold exponentPart
  cases n.exponent with
  | none =>
    rw [List.nil_append]
    cases rest with
    | nil => rfl
    | cons c rest =>
      have hc := hrest c rfl
      exact if_neg (by simp only [Bool.or_eq_true, beq_iff_eq]; rintro (rfl | rfl) <;> revert hc <;> decide)
  | some e =>
    have hread := readDigits1_decimal e.natAbs hstop
    dsimp only
    rw [List.cons_append, writeInt]
    split
    · next hneg =>
      rw [List.cons_append, readExponent, if_pos (by decide), hread]
      show some (some (-(readDigits (decimal e.natAbs) : Int)), rest) = _
      rw [readDigits_decimal, natAbs_of_neg hneg]
    · next hpos =>
      rw [readExponent, if_pos (by decide), hread]
      · show some (some (readDigits (decimal e.natAbs) : Int), rest) = _
        rw [readDigits_decimal, natAbs_of_not_neg hpos]
      · exact fun _ h => absurd (head_decimal h) (by decide)
      · exact fun _ h => absurd (head_decimal h) (by decide)

theorem readUnsigned_append (hn : Regular n) (hrest : Ends rest) :
    readUnsigned n.negative (n.whole ++ (fractionPart n ++ (exponentPart n ++ rest))) = some (n, rest) := by
  have hexponent : Next ('e' :: [',', ']', '\x7d']) (exponentPart n ++ rest) := by
    unfold exponentPart
    split
    · exact fun c hc => .tail _ (hrest c hc)
    · exact fun c hc => by cases hc; exact .head _
  have hfraction : Next ('.' :: 'e' :: [',', ']', '\x7d']) (fractionPart n ++ (exponentPart n ++ rest)) := by
    unfold fractionPart
    split
    · exact fun c hc => .tail _ (hexponent c hc)
    · exact fun c hc => by cases hc; exact .head _
  rw [readUnsigned, readWhole_append hn (hfraction.not_isDigit rfl), Option.bind_eq_bind, Option.bind_some]
  dsimp only
  rw [readFraction_append hn hexponent, Option.bind_eq_bind, Option.bind_some]
  dsimp only
  rw [readExponent_append n hrest]
  rfl

/-- **A numeral is read back as it was written** where a value ends. -/
theorem readNumeral_write (hn : Regular n) (hrest : Ends rest) :
    readNumeral (writeNumeral n ++ rest) = some (n, rest) := by
  have hread := readUnsigned_append hn hrest
  have hwrite : writeNumeral n ++ rest =
      (if n.negative then ['-'] else []) ++ (n.whole ++ (fractionPart n ++ (exponentPart n ++ rest))) := by
    simp only [writeNumeral, List.append_assoc]
    rfl
  rw [hwrite]
  cases hsign : n.negative with
  | true =>
    rw [hsign] at hread
    exact hread
  | false =>
    rw [hsign] at hread
    obtain ⟨d, ds, hwhole⟩ := List.exists_cons_of_ne_nil hn.nonempty
    have hd : isDigit d = true := hn.whole d (hwhole ▸ List.mem_cons_self)
    rw [if_neg Bool.false_ne_true, List.nil_append, readNumeral, hread]
    intro tail h
    rw [hwhole, List.cons_append, List.cons.injEq] at h
    rw [h.1] at hd
    exact absurd hd (by decide)

end SwarmSampler.Json
