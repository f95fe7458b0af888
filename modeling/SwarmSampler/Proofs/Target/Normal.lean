import SwarmSampler.Proofs.Magnet.Identity

/-
A target is what its record comes to once its texts are trimmed, and there is no
more to come: made into a record and back it is the same target. The license's
marker begins and ends with a letter, so blanks around a license neither hide it
nor make one up, though there is a blank inside it.
-/

namespace SwarmSampler

open Text

/-- The texts of a target, as a record. -/
def MonitoringTarget.record (t : MonitoringTarget) : TargetRecord := ⟨t.url, t.license, t.magnet⟩

theorem holds_iff (part : List Char) (s : List Char) : holds part s = true ↔ part <:+: s := by
  induction s with
  | nil => rw [holds, List.isEmpty_iff, List.infix_nil]
  | cons c s ih => rw [holds, Bool.or_eq_true, List.isPrefixOf_iff_prefix, ih, List.infix_cons_iff]

/-- A record is eligible by what is left of its license and its magnet without the blanks around them. -/
theorem eligible_iff (r : TargetRecord) : r.eligible = true ↔
    licenseMarker <:+: trimList r.license.toList ∧ trimList r.magnet.toList ≠ [] := by
  rw [TargetRecord.eligible, Bool.and_eq_true, holds_iff, Bool.not_eq_true', List.isEmpty_eq_false_iff,
    infix_trimList ⟨'C', rfl, rfl⟩ ⟨'s', rfl, rfl⟩]

theorem eligible_trim (url license magnet : String) :
    (⟨url, trim license, trim magnet⟩ : TargetRecord).eligible = (⟨url, license, magnet⟩ : TargetRecord).eligible := by
  rw [Bool.eq_iff_iff, eligible_iff, eligible_iff, toList_trim, toList_trim, trimList_trimList, trimList_trimList]

/-- **Targets are made once.** The record of a target's own texts makes the same target again: the same id, the same
texts and the same eligibility. So a license and a magnet make a record eligible just when they do without the blanks
around them, and the id of the trimmed magnet, which is the target's, is that of the magnet as it came. -/
theorem ofRecord_record (r : TargetRecord) :
    MonitoringTarget.ofRecord (MonitoringTarget.ofRecord r).record = MonitoringTarget.ofRecord r ∧
      (⟨r.url, trim r.license, trim r.magnet⟩ : TargetRecord).eligible = r.eligible ∧
      targetId (trim r.magnet) = targetId r.magnet ∧ (MonitoringTarget.ofRecord r).id = targetId r.magnet := by
  have heligible (url : String) : (⟨url, trim r.license, trim r.magnet⟩ : TargetRecord).eligible = r.eligible :=
    eligible_trim url r.license r.magnet
  refine ⟨?_, heligible r.url, targetId_trim r.magnet, id_ofRecord r⟩
  simp only [MonitoringTarget.record, MonitoringTarget.ofRecord, trim_trim, heligible]

/-- Blanks of several kinds around a license and a magnet. -/
example : (⟨"", "\u3000Creative Commons BY\u00a0", " \u2003x\n"⟩ : TargetRecord).eligible = true ∧
    (⟨"", " \u3000Creative \u00a0", "x"⟩ : TargetRecord).eligible = false := by decide

end SwarmSampler
