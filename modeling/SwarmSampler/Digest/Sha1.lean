/-
SHA-1 over lists of bytes: padding to whole blocks of sixteen words, a
schedule of eighty words, eighty rounds a block. The digest is always twenty
bytes (`length_sha1`).
-/

namespace SwarmSampler.Digest

def rotate (w : UInt32) (k : UInt32) : UInt32 := (w <<< k) ||| (w >>> (32 - k))

/-- A word's four bytes, the highest first. -/
def bytesOfWord (w : UInt32) : List UInt8 :=
  [(w >>> 24).toUInt8, (w >>> 16).toUInt8, (w >>> 8).toUInt8, w.toUInt8]

/-- A number's eight bytes, the highest first. -/
def bytesOfLength (n : Nat) : List UInt8 :=
  [56, 48, 40, 32, 24, 16, 8, 0].map fun k => UInt8.ofNat ((n >>> k) % 256)

/-- The message, a one bit, zeros to eight bytes short of a block, and the length in bits. -/
def pad (message : List UInt8) : List UInt8 :=
  let zeros := (119 - message.length % 64) % 64
  message ++ 0x80 :: List.replicate zeros 0 ++ bytesOfLength (8 * message.length)

/-- Words from bytes, four at a time; a tail of fewer than four bytes is dropped. -/
def wordsOfBytes : List UInt8 → List UInt32
  | a :: b :: c :: d :: rest =>
    ((a.toUInt32 <<< 24) ||| (b.toUInt32 <<< 16) ||| (c.toUInt32 <<< 8) ||| d.toUInt32)
      :: wordsOfBytes rest
  | _ => []

/-- Continues a schedule, whose words are held newest first. -/
def extend : Nat → List UInt32 → List UInt32
  | 0, words => words
  | n + 1, words =>
    let word (i : Nat) := words.getD (i - 1) 0
    extend n (rotate (word 3 ^^^ word 8 ^^^ word 14 ^^^ word 16) 1 :: words)

/-- The eighty words of a block's sixteen. -/
def schedule (block : List UInt32) : List UInt32 := (extend 64 block.reverse).reverse

/-- The five words carried from block to block. -/
structure State where
  a : UInt32
  b : UInt32
  c : UInt32
  d : UInt32
  e : UInt32

def State.initial : State := ⟨0x67452301, 0xEFCDAB89, 0x98BADCFE, 0x10325476, 0xC3D2E1F0⟩

/-- The mixing function and the constant of a round. -/
def roundMix (i : Nat) (s : State) : UInt32 × UInt32 :=
  if i < 20 then ((s.b &&& s.c) ||| (~~~s.b &&& s.d), 0x5A827999)
  else if i < 40 then (s.b ^^^ s.c ^^^ s.d, 0x6ED9EBA1)
  else if i < 60 then ((s.b &&& s.c) ||| (s.b &&& s.d) ||| (s.c &&& s.d), 0x8F1BBCDC)
  else (s.b ^^^ s.c ^^^ s.d, 0xCA62C1D6)

def round (i : Nat) (s : State) (word : UInt32) : State :=
  let (mix, constant) := roundMix i s
  ⟨rotate s.a 5 + mix + s.e + constant + word, s.a, rotate s.b 30, s.c, s.d⟩

/-- All rounds of a block from round `i` on. -/
def rounds : Nat → List UInt32 → State → State
  | _, [], s => s
  | i, w :: ws, s => rounds (i + 1) ws (round i s w)

def compress (s : State) (block : List UInt32) : State :=
  let t := rounds 0 (schedule block) s
  ⟨s.a + t.a, s.b + t.b, s.c + t.c, s.d + t.d, s.e + t.e⟩

/-- Takes `n` blocks of sixteen words. -/
def absorb : Nat → List UInt32 → State → State
  | 0, _, s => s
  | n + 1, words, s => absorb n (words.drop 16) (compress s (words.take 16))

def State.bytes (s : State) : List UInt8 :=
  [s.a, s.b, s.c, s.d, s.e].flatMap bytesOfWord

def sha1 (message : List UInt8) : List UInt8 :=
  let words := wordsOfBytes (pad message)
  (absorb (words.length / 16) words .initial).bytes

theorem length_sha1 (message : List UInt8) : (sha1 message).length = 20 := rfl

end SwarmSampler.Digest
