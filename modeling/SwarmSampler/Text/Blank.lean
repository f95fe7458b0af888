/-
White space as Unicode's White_Space property lists it, and trimming by it.
-/

namespace SwarmSampler.Text

/-- Exactly the characters with the Unicode property White_Space. -/
def isBlank (c : Char) : Bool :=
  let n := c.toNat
  (0x09 ≤ n && n ≤ 0x0D) || n == 0x20 || n == 0x85 || n == 0xA0 || n == 0x1680 ||
  (0x2000 ≤ n && n ≤ 0x200A) || n == 0x2028 || n == 0x2029 || n == 0x202F ||
  n == 0x205F || n == 0x3000

def trimStartList (s : List Char) : List Char := s.dropWhile isBlank

def trimEndList (s : List Char) : List Char := (s.reverse.dropWhile isBlank).reverse

def trimList (s : List Char) : List Char := trimEndList (trimStartList s)

def trim (s : String) : String := String.ofList (trimList s.toList)

end SwarmSampler.Text
