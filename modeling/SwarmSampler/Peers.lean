import SwarmSampler.Time.Span

/-
What a query brings back: counts of peers, or why there are none.
-/

namespace SwarmSampler

/-- Numbers of peers with the whole content and of peers still loading it. -/
structure PeerCounts where
  seeders : UInt32
  leechers : UInt32
  deriving DecidableEq, Repr

namespace PeerCounts

def none : PeerCounts := ⟨0, 0⟩

instance : Inhabited PeerCounts := ⟨none⟩

/-- All peers, or the largest count there is. -/
def total (c : PeerCounts) : UInt32 :=
  UInt32.ofNat (min (c.seeders.toNat + c.leechers.toNat) 4_294_967_295)

theorem toNat_total (c : PeerCounts) :
    c.total.toNat = min (c.seeders.toNat + c.leechers.toNat) 4_294_967_295 := by
  have hsize : UInt32.size = 4_294_967_296 := rfl
  exact UInt32.toNat_ofNat_of_lt (by omega)

end PeerCounts

/-- Why a query has no counts. -/
inductive QueryError
  | invalidMagnet (detail : String)
  | unreachable (detail : String)
  | timeout (after : Span)
  deriving DecidableEq

namespace QueryError

def message : QueryError → String
  | invalidMagnet detail => "invalid magnet: " ++ detail
  | unreachable detail => "swarm unreachable: " ++ detail
  | timeout after => "query timed out after " ++ after.label

/-- Whether another try may fare better. -/
def retryable : QueryError → Bool
  | invalidMagnet _ => false
  | _ => true

end QueryError

abbrev QueryResult := Except QueryError PeerCounts

instance : DecidableEq QueryResult := fun a b =>
  match a, b with
  | .ok x, .ok y => if h : x = y then isTrue (h ▸ rfl) else isFalse (fun e => h (by cases e; rfl))
  | .error x, .error y =>
    if h : x = y then isTrue (h ▸ rfl) else isFalse (fun e => h (by cases e; rfl))
  | .ok _, .error _ => isFalse (fun e => by cases e)
  | .error _, .ok _ => isFalse (fun e => by cases e)

/-- What an engine knows of a swarm's peers. -/
structure PeerTable where
  hasMetadata : Bool
  listSeeds : UInt32
  listPeers : UInt32
  deriving DecidableEq, Inhabited

/-- The seeds, and the peers listed beyond them. -/
def PeerTable.counts (t : PeerTable) : PeerCounts :=
  ⟨t.listSeeds, if t.listSeeds ≤ t.listPeers then t.listPeers - t.listSeeds else 0⟩

end SwarmSampler
