/-
How long text is in UTF-8, and reading bytes as UTF-8. Lengths are added up
character by character, so they can be reasoned about without the bytes.
-/

namespace SwarmSampler.Text

def byteLength (s : List Char) : Nat := s.foldr (fun c n => c.utf8Size + n) 0

/-- The text some bytes encode, none if they are no UTF-8. -/
def ofBytes? (bytes : List UInt8) : Option String :=
  String.fromUTF8? (ByteArray.mk bytes.toArray)

@[simp] theorem byteLength_nil : byteLength [] = 0 := rfl

@[simp] theorem byteLength_cons (c : Char) (s : List Char) :
    byteLength (c :: s) = c.utf8Size + byteLength s := by
  simp [byteLength]

theorem length_le_byteLength (s : List Char) : s.length ≤ byteLength s := by
  induction s with
  | nil => simp
  | cons c r ih =>
    have := Char.utf8Size_pos c
    simp
    omega

end SwarmSampler.Text
