import SwarmSampler.Proofs.Exchange.Documents
import SwarmSampler.Proofs.Time.SpanText
import SwarmSampler.Settings.Read
import SwarmSampler.Settings.Write

/-
Settings as a JSON value are read back as they are, field by field: the spans
through their texts, the selection through its tag, the targets one by one.
-/

namespace SwarmSampler.Settings

open Document Json

theorem span?_ofSpan (s : Span) : span? (ofSpan s) = some s := Span.ofText?_text s

theorem path?_optional (path : Option String) : path? (Json.optional .text path) = some path := by
  cases path <;> rfl

theorem records?_array (targets : List TargetRecord) :
    records? (Json.array (targets.map Exchange.ofTargetRecord)) = some targets := by
  show (targets.map Exchange.ofTargetRecord).mapM Exchange.targetRecord? = some targets
  induction targets with
  | nil => rfl
  | cons r targets ih => rw [List.map_cons, List.mapM_cons, Exchange.targetRecord?_ofTargetRecord, ih]; rfl

/-- **Settings as a value are read back as they are.** -/
theorem ofDocument?_toJson (s : Settings) : ofDocument? s.toJson = some s := by
  refine (slots?_record (by rfl) _).trans ?_
  simp only [List.map_cons, List.map_nil, defaulted?, span?_ofSpan, path?_optional, records?_array, count32?_int,
    count64?_int, Exchange.selection?_ofSelection, Exchange.text?_text, Option.bind_eq_bind, Option.bind_some]

end SwarmSampler.Settings
