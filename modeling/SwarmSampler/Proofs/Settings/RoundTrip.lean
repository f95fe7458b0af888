import SwarmSampler.Proofs.Exchange.RoundTrip
import SwarmSampler.Proofs.Files.Written
import SwarmSampler.Proofs.Settings.Documents
import SwarmSampler.Settings.Load

/-
Settings that keep their bounds, written as JSON into a file that is named for
it, are loaded from the file as they are. Each layer gives back what it was
given: the file its bytes, the bytes their text, the text its value and the
value the settings.
-/

namespace SwarmSampler.Text

/-- The bytes of a text are read as the text. -/
theorem ofBytes?_toUTF8 (s : String) : ofBytes? s.toUTF8.data.toList = some s := by
  show String.fromUTF8? s.toUTF8 = some s
  unfold String.fromUTF8?
  rw [String.toUTF8_eq_toByteArray, dif_pos s.isValidUTF8]
  rfl

end SwarmSampler.Text

namespace SwarmSampler.Settings

open Json

variable {s : Settings} {path text : String} {files written : Files}

/-- What is written of settings has only strings with texts and numerals as the grammar has them. -/
theorem writable_toJson (s : Settings) : Writable s.toJson := by
  have hspan : ∀ span, Writable (ofSpan span) := fun span => .text _
  have htargets : Writable (.array (s.targets.map Exchange.ofTargetRecord)) := by
    refine .array fun v hv => ?_
    obtain ⟨r, -, rfl⟩ := List.mem_map.1 hv
    exact Exchange.writable_ofTargetRecord r
  exact .record (by simp [hspan, htargets])

/-- Whatever text stands for the value of some settings loads as the settings. -/
theorem ofJson_of_read? (h : Json.read? text = some s.toJson) : ofJson text = .ok s := by
  rw [ofJson, h, Option.bind_some, ofDocument?_toJson]
  rfl

/-- **Settings that keep their bounds are loaded from a file they were written to** under a name that ends in `.json`,
in whatever letters. -/
theorem load_written (hvalid : s.fault? = none) (hname : Path.hasExtension path.toList "json".toList = true)
    (hwrite : files.write path.toList (Json.write s.toJson).toUTF8.data.toList = .ok written) :
    load written path = .ok s := by
  have htext : readText written path = .ok (Json.write s.toJson) := by
    rw [readText, Files.read_write hwrite]
    dsimp only
    rw [Text.ofBytes?_toUTF8]
  have hjson : ofText path (Json.write s.toJson) = .ok s := by
    rw [ofText, if_pos hname]
    exact ofJson_of_read? (read?_write (writable_toJson s))
  rw [load, htext]
  dsimp only
  rw [hjson]
  dsimp only
  rw [hvalid]

/-- Settings that leave little as it is by default, in a file of the working directory. -/
def unusual : Settings :=
  { standard with
    logDir := some "logs\n", backoff := Span.ofMillis 3_599_999, storeRetryDelay := ⟨34_187_695_001_002_003, by decide⟩,
    selection := .randomSubset 2, historyDepth := 18_446_744_073_709_551_615,
    targets := [⟨"https://example.org", "\"CC\"", "magnet:?xt=urn:btih:0"⟩] }

theorem load_written_unusual : unusual.fault? = none ∧ ∃ written,
    Files.empty.write "sampler.Json".toList (Json.write unusual.toJson).toUTF8.data.toList = .ok written ∧
      load written "sampler.Json" = .ok unusual := by
  have hvalid : unusual.fault? = none := by decide
  have hwrite : Files.empty.write "sampler.Json".toList (Json.write unusual.toJson).toUTF8.data.toList =
      .ok (Files.empty.put ["sampler.Json".toList] (.file (Json.write unusual.toJson).toUTF8.data.toList)) := rfl
  exact ⟨hvalid, _, hwrite, load_written hvalid (by decide) hwrite⟩

end SwarmSampler.Settings
