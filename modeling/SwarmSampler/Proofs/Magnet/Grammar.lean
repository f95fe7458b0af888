import SwarmSampler.Proofs.Magnet.Pattern
import SwarmSampler.Proofs.Text.Blank
import SwarmSampler.Proofs.Text.Bytes

/-
Which links have an info-hash, and which one. Blanks around a link do not count;
behind its scheme the leftmost topic decides that ends properly, by its value and
by nothing that follows: forty digits of sixteen values or thirty-two digits of
thirty-two, in either case. Any other link is at fault, in one of four ways.
-/

namespace SwarmSampler

namespace InfoHash

/-- The digits of a hash that has thirty-two of them. -/
def base32 (h : InfoHash) : List Char := Text.Base32.encode h.bytes

theorem ext {h other : InfoHash} (same : h.bytes = other.bytes) : h = other := by
  cases h
  cases other
  cases same
  rfl

theorem ofBytes?_eq_some_iff {bytes : List UInt8} {h : InfoHash} :
    ofBytes? bytes = some h ↔ h.bytes = bytes := by
  constructor
  · intro heq
    unfold ofBytes? at heq
    split at heq
    · cases heq
      rfl
    · cases heq
  · rintro rfl
    rw [ofBytes?, dif_pos h.length_eq]

theorem toList_text (h : InfoHash) : h.text.toList = h.digits := String.toList_ofList

@[simp] theorem length_digits (h : InfoHash) : h.digits.length = 40 := by
  rw [digits, Text.length_hexBytes, h.length_eq]

theorem digits_injective {h other : InfoHash} (same : h.digits = other.digits) : h = other :=
  ext (Text.hexBytes_injective same)

/-- Thirty-two digits stand for one hash. -/
theorem decode?_base32 (h : InfoHash) : Text.Base32.decode? h.base32 = some h.bytes :=
  Text.Base32.decode?_encode (by rw [h.length_eq])

theorem base32_injective {h other : InfoHash} (same : h.base32 = other.base32) : h = other := by
  have hread := h.decode?_base32
  rw [same, other.decode?_base32] at hread
  exact ext (Option.some.inj hread).symm

end InfoHash

namespace Magnet

open Text

/-- The query of a link: what follows the scheme, between the blanks around the link. -/
def IsQuery (link query : List Char) : Prop := Stripped link (scheme ++ query)

/-- Forty digits of sixteen values. -/
def IsHex (value : List Char) : Prop := value.length = 40 ∧ ∀ c ∈ value, isHexDigit c = true

/-- Thirty-two digits of thirty-two values. -/
def IsBase32 (value : List Char) : Prop := value.length = 32 ∧ ∀ c ∈ value, Base32.isDigit c = true

/-! ## The value of a topic -/

theorem isHex_iff {value : List Char} : IsHex value ↔ byteLength value = 40 ∧ value.all isHexDigit = true := by
  rw [IsHex, List.all_eq_true, and_congr_left_iff]
  intro digits
  rw [byteLength_eq_length fun c hc => toNat_lt_of_isHexDigit (digits c hc)]

theorem IsBase32.byteLength_eq {value : List Char} (h : IsBase32 value) : byteLength value = 32 := by
  rw [byteLength_eq_length fun c hc => Base32.toNat_lt_of_isDigit (h.2 c hc), h.1]

/-- Forty digits of sixteen values are those of one hash. -/
theorem hashOfTopic_of_isHex {value : List Char} (h : IsHex value) :
    ∃ hash, hashOfTopic value = .ok hash ∧ hash.digits = value.map lower := by
  obtain ⟨bytes, hbytes, hdigits⟩ := exists_bytesOfHex? h.2 (by rw [h.1])
  have hlength : bytes.length = 20 := by
    have htwo := length_hexBytes bytes
    rw [hdigits, List.length_map, h.1] at htwo
    omega
  refine ⟨⟨bytes, hlength⟩, ?_, hdigits⟩
  rw [hashOfTopic, if_pos (isHex_iff.1 h), hbytes, Option.bind_some, InfoHash.ofBytes?, dif_pos hlength]

/-- Thirty-two digits of thirty-two values are those of one hash. -/
theorem hashOfTopic_of_isBase32 {value : List Char} (h : IsBase32 value) :
    ∃ hash, hashOfTopic value = .ok hash ∧ hash.base32 = value.map upper := by
  obtain ⟨bytes, hbytes⟩ := Base32.exists_decode? h.2 (by rw [h.1])
  obtain ⟨hdigits, height⟩ := Base32.encode_of_decode? hbytes
  have hlength : bytes.length = 20 := by
    rw [List.length_map, h.1] at height
    omega
  have hnotHex : ¬ (byteLength value = 40 ∧ value.all isHexDigit = true) := fun hhex =>
    absurd (hhex.1.symm.trans h.byteLength_eq) (by decide)
  refine ⟨⟨bytes, hlength⟩, ?_, hdigits⟩
  rw [hashOfTopic, if_neg hnotHex, if_pos h.byteLength_eq, hbytes, Option.bind_some, InfoHash.ofBytes?, dif_pos hlength]

/-- Nothing else that has thirty-two bytes is read as digits of thirty-two values. -/
theorem isBase32_of_decode? {value : List Char} {hash : InfoHash}
    (h : (Base32.decode? (value.map upper)).bind InfoHash.ofBytes? = some hash) : IsBase32 value := by
  obtain ⟨bytes, hbytes, hhash⟩ := Option.bind_eq_some_iff.1 h
  obtain ⟨-, height⟩ := Base32.encode_of_decode? hbytes
  obtain ⟨vs, hvs, -⟩ := Option.bind_eq_some_iff.1 hbytes
  rw [← InfoHash.ofBytes?_eq_some_iff.1 hhash, hash.length_eq, List.length_map] at height
  refine ⟨by omega, fun c hc => ?_⟩
  rw [← Base32.isSome_value?_upper]
  exact Base32.isSome_of_mapM_value? hvs _ (List.mem_map_of_mem hc)

/-- Any other value is at fault, and which fault it is its length in bytes decides. -/
theorem hashOfTopic_of_neither {value : List Char} (notHex : ¬ IsHex value) (notBase32 : ¬ IsBase32 value) :
    hashOfTopic value = .error (if byteLength value = 32 then .badBase32 (String.ofList value)
      else .badLength (String.ofList value)) := by
  rw [hashOfTopic, if_neg (mt isHex_iff.2 notHex)]
  split
  · cases hdecode : (Base32.decode? (value.map upper)).bind InfoHash.ofBytes? with
    | none => rfl
    | some hash => exact absurd (isBase32_of_decode? hdecode) notBase32
  · rfl

/-! ## Links -/

theorem isQuery_iff {link query : List Char} :
    IsQuery link query ↔ dropPrefix? scheme (trimList link) = some query := by
  rw [IsQuery, ← trimList_eq_iff]
  constructor
  · intro h
    rw [h, dropPrefix?_append]
  · exact eq_append_of_dropPrefix?

/-- A link has one query. -/
theorem IsQuery.unique {link query other : List Char} (h : IsQuery link query) (h' : IsQuery link other) :
    query = other :=
  Option.some.inj ((isQuery_iff.1 h).symm.trans (isQuery_iff.1 h'))

theorem parseList_of_isQuery {link query : List Char} (h : IsQuery link query) :
    parseList link = (firstTopic? query).elim (.error .noTopic) hashOfTopic := by
  simp only [parseList, isQuery_iff.1 h]
  cases firstTopic? query with
  | none => rfl
  | some value => rfl

/-- The leftmost topic decides. -/
theorem parseList_of_firstTopic {link query value : List Char} {i : Nat} (h : IsQuery link query)
    (first : FirstTopic query i value) : parseList link = hashOfTopic value := by
  rw [parseList_of_isQuery h, firstTopic?_eq_some_iff.2 ⟨i, first⟩, Option.elim_some]

/-- What a link without a hash is at fault for. -/
inductive Faulty (link : List Char) : Fault → Prop
  | noScheme (without : ∀ query, ¬ IsQuery link query) : Faulty link .noScheme
  | noTopic {query : List Char} (isQuery : IsQuery link query) (without : ∀ i value, ¬ FirstTopic query i value) :
      Faulty link .noTopic
  /-- Thirty-two bytes, told by the value as it stands. -/
  | badBase32 {query value : List Char} {i : Nat} (isQuery : IsQuery link query) (first : FirstTopic query i value)
      (notBase32 : ¬ IsBase32 value) (length : byteLength value = 32) :
      Faulty link (.badBase32 (String.ofList value))
  | badLength {query value : List Char} {i : Nat} (isQuery : IsQuery link query) (first : FirstTopic query i value)
      (notHex : ¬ IsHex value) (length : byteLength value ≠ 32) : Faulty link (.badLength (String.ofList value))

/-- What a link names: the value of its leftmost topic is the hash's digits in some case. -/
def Names (link : List Char) (hash : InfoHash) : Prop :=
  ∃ query i value, IsQuery link query ∧ FirstTopic query i value ∧
    (IsHex value ∧ hash.digits = value.map lower ∨ IsBase32 value ∧ hash.base32 = value.map upper)

/-- A link that names a hash is read as it. -/
theorem Names.parseList_eq {link : List Char} {hash : InfoHash} (h : Names link hash) : parseList link = .ok hash := by
  obtain ⟨query, i, value, isQuery, first, ⟨isHex, digits⟩ | ⟨isBase32, digits⟩⟩ := h
  · obtain ⟨other, heq, hother⟩ := hashOfTopic_of_isHex isHex
    rw [parseList_of_firstTopic isQuery first, heq, InfoHash.digits_injective (digits.trans hother.symm)]
  · obtain ⟨other, heq, hother⟩ := hashOfTopic_of_isBase32 isBase32
    rw [parseList_of_firstTopic isQuery first, heq, InfoHash.base32_injective (digits.trans hother.symm)]

/-- Every link names a hash or is at fault, and is read so. -/
theorem parseList_cases (link : List Char) : (∃ hash, Names link hash ∧ parseList link = .ok hash) ∨
    ∃ fault, Faulty link fault ∧ parseList link = .error fault := by
  cases hquery : dropPrefix? scheme (trimList link) with
  | none =>
    have without : ∀ query, ¬ IsQuery link query := fun query h => by
      rw [isQuery_iff, hquery] at h
      cases h
    exact .inr ⟨_, .noScheme without, by rw [parseList, hquery]⟩
  | some query =>
    have isQuery : IsQuery link query := isQuery_iff.2 hquery
    cases htopic : firstTopic? query with
    | none =>
      have without : ∀ i value, ¬ FirstTopic query i value := fun i value h => by
        rw [firstTopic?_eq_some_iff.2 ⟨i, h⟩] at htopic
        cases htopic
      exact .inr ⟨_, .noTopic isQuery without, by rw [parseList_of_isQuery isQuery, htopic, Option.elim_none]⟩
    | some value =>
      obtain ⟨i, first⟩ := firstTopic?_eq_some_iff.1 htopic
      rw [parseList_of_firstTopic isQuery first]
      by_cases isHex : IsHex value
      · obtain ⟨hash, heq, digits⟩ := hashOfTopic_of_isHex isHex
        exact .inl ⟨hash, ⟨query, i, value, isQuery, first, .inl ⟨isHex, digits⟩⟩, heq⟩
      by_cases isBase32 : IsBase32 value
      · obtain ⟨hash, heq, digits⟩ := hashOfTopic_of_isBase32 isBase32
        exact .inl ⟨hash, ⟨query, i, value, isQuery, first, .inr ⟨isBase32, digits⟩⟩, heq⟩
      refine .inr ⟨_, ?_, hashOfTopic_of_neither isHex isBase32⟩
      split
      · next length => exact .badBase32 isQuery first isBase32 length
      · next length => exact .badLength isQuery first isHex length

theorem Faulty.parseList_eq {link : List Char} {fault : Fault} (h : Faulty link fault) :
    parseList link = .error fault := by
  cases h with
  | noScheme without =>
    cases hquery : dropPrefix? scheme (trimList link) with
    | none => rw [parseList, hquery]
    | some query => exact absurd (isQuery_iff.2 hquery) (without query)
  | noTopic isQuery without =>
    rename_i query
    cases htopic : firstTopic? query with
    | none => rw [parseList_of_isQuery isQuery, htopic, Option.elim_none]
    | some value =>
      obtain ⟨i, first⟩ := firstTopic?_eq_some_iff.1 htopic
      exact absurd first (without i value)
  | badBase32 isQuery first notBase32 length =>
    have notHex : ¬ IsHex _ := fun h => absurd ((isHex_iff.1 h).1.symm.trans length) (by decide)
    rw [parseList_of_firstTopic isQuery first, hashOfTopic_of_neither notHex notBase32, if_pos length]
  | badLength isQuery first notHex length =>
    rw [parseList_of_firstTopic isQuery first,
      hashOfTopic_of_neither notHex fun h => length h.byteLength_eq, if_neg length]

/-- A link names a hash just when it is read as that. -/
theorem parse_eq_ok_iff {link : String} {hash : InfoHash} :
    parse link = .ok hash ↔ Names link.toList hash := by
  refine ⟨fun h => ?_, Names.parseList_eq⟩
  rw [parse] at h
  obtain ⟨other, names, heq⟩ | ⟨fault, -, heq⟩ := parseList_cases link.toList <;> rw [heq] at h <;> cases h
  exact names

/-- A link is at fault just when it is refused for that. -/
theorem parse_eq_error_iff {link : String} {fault : Fault} :
    parse link = .error fault ↔ Faulty link.toList fault := by
  refine ⟨fun h => ?_, Faulty.parseList_eq⟩
  rw [parse] at h
  obtain ⟨hash, -, heq⟩ | ⟨other, faulty, heq⟩ := parseList_cases link.toList <;> rw [heq] at h <;> cases h
  exact faulty

/-- The first topic's value has to be digits of one of two kinds, and need not be more. -/
theorem exists_names_iff {link : List Char} : (∃ hash, Names link hash) ↔
    ∃ query i value, IsQuery link query ∧ FirstTopic query i value ∧ (IsHex value ∨ IsBase32 value) := by
  constructor
  · rintro ⟨hash, query, i, value, isQuery, first, digits⟩
    exact ⟨query, i, value, isQuery, first, digits.imp And.left And.left⟩
  · rintro ⟨query, i, value, isQuery, first, isHex | isBase32⟩
    · obtain ⟨hash, -, digits⟩ := hashOfTopic_of_isHex isHex
      exact ⟨hash, query, i, value, isQuery, first, .inl ⟨isHex, digits⟩⟩
    · obtain ⟨hash, -, digits⟩ := hashOfTopic_of_isBase32 isBase32
      exact ⟨hash, query, i, value, isQuery, first, .inr ⟨isBase32, digits⟩⟩

/-- **The grammar of links with an info-hash.** A link is read as a hash just when, blanks around it apart, it is
the scheme and a query whose leftmost topic has as its value forty digits of sixteen values, which are then the
hash's in some case, or thirty-two digits of thirty-two, in which its twenty bytes are written. That topic is what a
search for the pattern holds in its group. A hash's text is always forty digits in lower case. Any other link is
refused, for the one fault it has. -/
theorem parse_grammar (link : String) :
    ((∃ hash, parse link = .ok hash) ↔
      ∃ query i value, IsQuery link.toList query ∧ FirstTopic query i value ∧ (IsHex value ∨ IsBase32 value)) ∧
    (∀ hash, parse link = .ok hash ↔
      ∃ query i value, IsQuery link.toList query ∧ FirstTopic query i value ∧
        (IsHex value ∧ hash.text.toList = value.map lower ∨
          IsBase32 value ∧ Base32.encode hash.bytes = value.map upper ∧ hash.text.toList = hexBytes hash.bytes)) ∧
    (∀ hash : InfoHash, hash.text.toList.length = 40 ∧ hash.text.toList.all isLowerHexDigit = true) ∧
    (∀ query value, (∃ i, FirstTopic query i value) ↔ topicPattern.captured? query = some value) ∧
    ∀ fault, parse link = .error fault ↔ Faulty link.toList fault := by
  refine ⟨?_, fun hash => ?_, fun hash => ?_, fun query value => ?_, fun fault => parse_eq_error_iff⟩
  · simp only [parse_eq_ok_iff]
    exact exists_names_iff
  · rw [parse_eq_ok_iff, hash.toList_text]
    simp only [Names, InfoHash.base32, InfoHash.digits, and_true]
  · rw [hash.toList_text]
    exact ⟨hash.length_digits, List.all_eq_true.2 fun c hc => isLowerHexDigit_of_mem_hexBytes hc⟩
  · rw [captured?_topicPattern, firstTopic?_eq_some_iff]

/-- A topic without a proper end is passed over; the next one decides, in whatever case it is written. -/
example : (parse " magnet:?xt=urn:btih:abc.&XT=urn:BTIH:yex6dqdlxisuvhoj6um3gnnkpqjwpkek&dn=a\n").map (·.text) =
    .ok "c12fe1c06bba254a9dc9f519b335aa7c1367a88a" := by
  rfl

end Magnet
end SwarmSampler
