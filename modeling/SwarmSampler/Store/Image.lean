import SwarmSampler.Store.Refusal

/-
The beginning of a store's file. It says how large the pages are, what may be
done with the file, and in which format it is; then the first page follows,
which holds the list of tables. Only a file without tables can become a store.
Bytes beyond the end count as zero.
-/

namespace SwarmSampler.Store.Image

def byteAt (bytes : List UInt8) (n : Nat) : Nat := ((bytes[n]?).map UInt8.toNat).getD 0

/-- Some bytes of a file, read as one number with the high byte first. -/
def numberAt (bytes : List UInt8) (n width : Nat) : Nat :=
  (List.range' n width).foldl (fun v i => 256 * v + byteAt bytes i) 0

/-- The bytes a store's file starts with. -/
def signature : List UInt8 := "SQLite format 3\x00".toUTF8.toList

def pageSize (bytes : List UInt8) : Nat := 256 * byteAt bytes 16 + 65536 * byteAt bytes 17

def pageSizes : List Nat := [512, 1024, 2048, 4096, 8192, 16384, 32768, 65536]

/-- The bytes of a page that are in use. -/
def usableSize (bytes : List UInt8) : Nat := pageSize bytes - byteAt bytes 20

/-- Whether the file starts as a store's does, up to the size of its pages. -/
def hasHead (bytes : List UInt8) : Bool :=
  bytes.take 16 = signature && byteAt bytes 19 ≤ 2 && numberAt bytes 21 3 = 0x402020 &&
    pageSizes.contains (pageSize bytes)

/-- Whether the file says that it has more pages than it has. -/
def isCutOff (bytes : List UInt8) : Bool :=
  let size := pageSize bytes
  let there := (bytes.length + size - 1) / size
  numberAt bytes 24 4 = numberAt bytes 92 4 && there < numberAt bytes 28 4

/-- Whether the first page holds an empty list of tables. -/
def hasNoTables (bytes : List UInt8) : Bool := byteAt bytes 100 = 13 && numberAt bytes 103 2 = 0

/-- Whether the free room of the first page lies within it. -/
def hasSoundRoom (bytes : List UInt8) : Bool :=
  let start := numberAt bytes 105 2
  let room := (if start = 0 then 65536 else start) + byteAt bytes 107
  108 ≤ room && room ≤ usableSize bytes

/-- Whether the file is not to be written to. -/
def isLocked (bytes : List UInt8) : Bool := 2 < byteAt bytes 18

/-- What is looked at when the file is first read. -/
def readChecks (bytes : List UInt8) : List (Bool × Refusal) :=
  [(!hasHead bytes, .notStore), (isCutOff bytes, .malformed), (usableSize bytes < 480, .notStore),
   (4 < byteAt bytes 47, .unsupported), (!hasNoTables bytes, .malformed)]

end SwarmSampler.Store.Image
