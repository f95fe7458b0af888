import SwarmSampler.Target
import SwarmSampler.Proofs.Magnet.Grammar

/-
Which links share an id. All spellings of one hash do, and no two hashes; a link
without a hash has an id of another form, made of its trimmed text and of nothing
else. So an id tells its hash, and whether there is one.
-/

namespace SwarmSampler

open Text

/-! ## Name-based ids -/

theorem Digest.length_nameIdBytes (name : List UInt8) : (nameIdBytes name).length = 16 := by
  rw [nameIdBytes, List.length_modify, List.length_modify, List.length_take, length_sha1]
  rfl

/-- Sixteen bytes make thirty-two digits and four hyphens. -/
theorem Digest.length_nameId (name : String) : (nameId name).toList.length = 36 := by
  have hdigits := length_hexBytes (nameIdBytes name.toUTF8.toList)
  rw [length_nameIdBytes] at hdigits
  rw [nameId, String.toList_ofList, hyphenated]
  simp only [List.length_append, List.length_cons, List.length_take, List.length_drop, hdigits]
  rfl

/-! ## Spellings of a hash -/

namespace Magnet

/-- The value is the hash's digits of one kind or the other, in any mixture of cases. -/
def Spells (value : List Char) (hash : InfoHash) : Prop :=
  value.map lower = hash.digits ∨ value.map upper = hash.base32

theorem isHex_of_lower {value : List Char} {hash : InfoHash} (h : value.map lower = hash.digits) : IsHex value := by
  refine ⟨by rw [← List.length_map lower, h, hash.length_digits], fun c hc => ?_⟩
  have hmem : lower c ∈ hash.digits := h ▸ List.mem_map_of_mem hc
  have hlower := isLowerHexDigit_of_mem_hexBytes hmem
  rw [← isHexDigit_lower, isHexDigit]
  rw [isLowerHexDigit] at hlower
  rw [hlower, Bool.true_or]

theorem isBase32_of_upper {value : List Char} {hash : InfoHash} (h : value.map upper = hash.base32) :
    IsBase32 value := by
  have hread : (Base32.decode? (value.map upper)).bind InfoHash.ofBytes? = some hash := by
    rw [h, hash.decode?_base32, Option.bind_some]
    exact InfoHash.ofBytes?_eq_some_iff.2 rfl
  exact isBase32_of_decode? hread

/-- A link whose leftmost topic spells a hash names it, whatever else is in its query. -/
theorem names_of_spells {link query value : List Char} {hash : InfoHash} {i : Nat} (isQuery : IsQuery link query)
    (first : FirstTopic query i value) (spells : Spells value hash) : Names link hash :=
  ⟨query, i, value, isQuery, first, spells.imp (fun h => ⟨isHex_of_lower h, h.symm⟩)
    fun h => ⟨isBase32_of_upper h, h.symm⟩⟩

end Magnet

/-! ## Ids -/

open Magnet

theorem targetId_of_names {link : String} {hash : InfoHash} (h : Names link.toList hash) :
    targetId link = hash.text := by
  rw [targetId, parse_eq_ok_iff.2 h]

theorem targetId_of_faulty {link : String} {fault : Fault} (h : Faulty link.toList fault) :
    targetId link = Digest.nameId (trim link) := by
  rw [targetId, parse_eq_error_iff.2 h]

/-- The id is that of the trimmed text. -/
theorem targetId_trim (link : String) : targetId (trim link) = targetId link := by
  rw [targetId, targetId, parse, parse, parseList, parseList, toList_trim, trimList_trimList, trim_trim]

/-- A target has the id of the magnet it is made of. -/
theorem id_ofRecord (r : TargetRecord) : (MonitoringTarget.ofRecord r).id = targetId r.magnet := by
  simp only [MonitoringTarget.ofRecord, targetId_trim]

theorem text_injective {hash other : InfoHash} (same : hash.text = other.text) : hash = other :=
  InfoHash.digits_injective (by rw [← hash.toList_text, same, other.toList_text])

/-- A hash's text is longer than any name-based id. -/
theorem text_ne_nameId (hash : InfoHash) (name : String) : hash.text ≠ Digest.nameId name := by
  intro h
  have hlength := congrArg (fun s => s.toList.length) h
  simp only [hash.toList_text, hash.length_digits, Digest.length_nameId] at hlength
  cases hlength

/-- **An id is that of a hash in all its spellings, or of a text without one.** A link whose leftmost topic spells
a hash in digits of either kind and of any case has the hash's text as its id, whatever else is in its query and
around it. Links with hashes share an id just when the hashes are one. A link without a hash has the name-based id
of its trimmed text, which is no id of a link with one. Links with one trimmed text share their id, and a target has
the id of the magnet it was made of. -/
theorem targetId_canonical :
    (∀ (hash : InfoHash) (link : String) (query value : List Char) (i : Nat), IsQuery link.toList query →
      FirstTopic query i value → Spells value hash → targetId link = hash.text) ∧
    (∀ (link other : String) (hash hash' : InfoHash), parse link = .ok hash → parse other = .ok hash' →
      (targetId link = targetId other ↔ hash = hash')) ∧
    (∀ (link other : String) (hash : InfoHash) (fault : Fault), parse link = .ok hash → parse other = .error fault →
      targetId link ≠ targetId other) ∧
    (∀ (link : String) (fault : Fault), parse link = .error fault → targetId link = Digest.nameId (trim link)) ∧
    (∀ link other : String, trim link = trim other → targetId link = targetId other) ∧
    ∀ r : TargetRecord, (MonitoringTarget.ofRecord r).id = targetId r.magnet := by
  refine ⟨fun hash link query value i isQuery first spells => ?_, fun link other hash hash' ok ok' => ?_,
    fun link other hash fault ok error => ?_, fun link fault error => ?_, fun link other same => ?_,
    id_ofRecord⟩
  · exact targetId_of_names (names_of_spells isQuery first spells)
  · rw [targetId_of_names (parse_eq_ok_iff.1 ok), targetId_of_names (parse_eq_ok_iff.1 ok')]
    exact ⟨text_injective, congrArg InfoHash.text⟩
  · rw [targetId_of_names (parse_eq_ok_iff.1 ok), targetId_of_faulty (parse_eq_error_iff.1 error)]
    exact text_ne_nameId hash (trim other)
  · exact targetId_of_faulty (parse_eq_error_iff.1 error)
  · rw [← targetId_trim link, same, targetId_trim]

/-- One hash in small digits of thirty-two values and in capital ones of sixteen, with other parameters and blanks
around, and a link whose value is one digit short. -/
theorem targetId_canonical_thrice :
    let bytes := [0xC1, 0x2F, 0xE1, 0xC0, 0x6B, 0xBA, 0x25, 0x4A, 0x9D, 0xC9, 0xF5, 0x19, 0xB3, 0x35, 0xAA, 0x7C, 0x13,
      0x67, 0xA8, 0x8A]
    let link := " magnet:?dn=a&xt=urn:btih:yex6dqdlxisuvhoj6um3gnnkpqjwpkek\n"
    let other := "magnet:?xt=urn:btih:C12FE1C06BBA254A9DC9F519B335AA7C1367A88A&dn=b"
    let short := "magnet:?xt=urn:btih:c12fe1c06bba254a9dc9f519b335aa7c1367a88"
    targetId link = String.ofList (hexBytes bytes) ∧ targetId other = String.ofList (hexBytes bytes) ∧
      (targetId link = targetId other ↔ (⟨bytes, rfl⟩ : InfoHash) = ⟨bytes, rfl⟩) ∧ targetId link ≠ targetId short ∧
      targetId short = Digest.nameId (trim short) ∧
      targetId (short ++ " ") = targetId short := by
  intro bytes link other short
  obtain ⟨spelled, shared, apart, nameless, trimmed, -⟩ := targetId_canonical
  let hash : InfoHash := ⟨bytes, rfl⟩
  obtain ⟨i, first⟩ := firstTopic?_eq_some_iff.1
    (rfl : firstTopic? "dn=a&xt=urn:btih:yex6dqdlxisuvhoj6um3gnnkpqjwpkek".toList =
      some "yex6dqdlxisuvhoj6um3gnnkpqjwpkek".toList)
  obtain ⟨j, first'⟩ := firstTopic?_eq_some_iff.1
    (rfl : firstTopic? "xt=urn:btih:C12FE1C06BBA254A9DC9F519B335AA7C1367A88A&dn=b".toList =
      some "C12FE1C06BBA254A9DC9F519B335AA7C1367A88A".toList)
  have isQuery : IsQuery link.toList "dn=a&xt=urn:btih:yex6dqdlxisuvhoj6um3gnnkpqjwpkek".toList :=
    isQuery_iff.2 (by unfold link; rfl)
  have isQuery' : IsQuery other.toList "xt=urn:btih:C12FE1C06BBA254A9DC9F519B335AA7C1367A88A&dn=b".toList :=
    isQuery_iff.2 (by unfold other; rfl)
  have spells : Spells _ hash := .inr (rfl : "yex6dqdlxisuvhoj6um3gnnkpqjwpkek".toList.map upper = hash.base32)
  have spells' : Spells _ hash := .inl (rfl : "C12FE1C06BBA254A9DC9F519B335AA7C1367A88A".toList.map lower = hash.digits)
  have hlink : parse link = .ok hash := parse_eq_ok_iff.2 (names_of_spells isQuery first spells)
  have hother : parse other = .ok hash := parse_eq_ok_iff.2 (names_of_spells isQuery' first' spells')
  have hshort : parse short = .error (.badLength (String.ofList "c12fe1c06bba254a9dc9f519b335aa7c1367a88".toList)) := by
    unfold short
    rfl
  have htrim : trim (short ++ " ") = trim short := by
    rw [trim, trim, String.toList_append]
    unfold short
    exact congrArg String.ofList rfl
  exact ⟨spelled hash link _ _ i isQuery first spells, spelled hash other _ _ j isQuery' first' spells',
    shared link other hash hash hlink hother, apart link short hash _ hlink hshort, nameless short _ hshort,
    trimmed _ _ htrim⟩

end SwarmSampler
