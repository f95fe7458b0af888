import SwarmSampler.Digest.NameId
import SwarmSampler.Magnet

/-
What is offered for monitoring and what is monitored. A record counts as
eligible when its license says so and it has a magnet; a target is a record
with its texts trimmed and an id that every spelling of one info-hash shares.
-/

namespace SwarmSampler

/-- A record as it comes in. -/
structure TargetRecord where
  url : String
  license : String
  magnet : String
  deriving DecidableEq, Repr

structure MonitoringTarget where
  id : String
  url : String
  license : String
  magnet : String
  eligible : Bool
  deriving DecidableEq, Repr, Inhabited

/-- What an open license says. -/
def licenseMarker : List Char := "Creative Commons".toList

/-- Whether a text holds another somewhere. -/
def holds (part : List Char) : List Char → Bool
  | [] => part.isEmpty
  | c :: s => part.isPrefixOf (c :: s) || holds part s

/-- The license names the marker and the magnet is more than blanks. -/
def TargetRecord.eligible (r : TargetRecord) : Bool :=
  holds licenseMarker r.license.toList && !(Text.trimList r.magnet.toList).isEmpty

/-- The id of a link: its info-hash, or an identifier of the trimmed text if it has none. -/
def targetId (link : String) : String :=
  match Magnet.parse link with
  | .ok hash => hash.text
  | .error _ => Digest.nameId (Text.trim link)

def MonitoringTarget.ofRecord (r : TargetRecord) : MonitoringTarget :=
  ⟨targetId (Text.trim r.magnet), Text.trim r.url, Text.trim r.license, Text.trim r.magnet, r.eligible⟩

end SwarmSampler
