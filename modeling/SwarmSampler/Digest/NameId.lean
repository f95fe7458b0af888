import SwarmSampler.Text.Hex
import SwarmSampler.Digest.Sha1

/-
Name-based identifiers: sixteen bytes of a SHA-1 digest over a name space and
a name, with the version and variant bits set, in the hyphenated form of
8-4-4-4-12 lower-case digits.
-/

namespace SwarmSampler.Digest

def addressSpace : List UInt8 :=
  [0x6b, 0xa7, 0xb8, 0x11, 0x9d, 0xad, 0x11, 0xd1, 0x80, 0xb4, 0x00, 0xc0, 0x4f, 0xd4, 0x30, 0xc8]

/-- Marks the seventh byte with version five. -/
def stampVersion (b : UInt8) : UInt8 := (b &&& 0x0f) ||| 0x50

/-- Marks the ninth byte with the variant bits one, zero. -/
def stampVariant (b : UInt8) : UInt8 := (b &&& 0x3f) ||| 0x80

def nameIdBytes (name : List UInt8) : List UInt8 :=
  (((sha1 (addressSpace ++ name)).take 16).modify 6 stampVersion).modify 8 stampVariant

/-- Groups of 8, 4, 4, 4 and 12 digits joined by hyphens. -/
def hyphenated (bytes : List UInt8) : List Char :=
  let digits := Text.hexBytes bytes
  (digits.take 8) ++ '-' :: (digits.drop 8).take 4 ++ '-' :: (digits.drop 12).take 4 ++
    '-' :: (digits.drop 16).take 4 ++ '-' :: digits.drop 20

def nameId (name : String) : String :=
  String.ofList (hyphenated (nameIdBytes name.toUTF8.toList))

end SwarmSampler.Digest
