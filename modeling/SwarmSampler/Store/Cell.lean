import SwarmSampler.Store.Numeral

/-
The cells of a table. A column prefers text or whole numbers and turns what it
is given into that where nothing is lost; other values stay as they are. Cells
of any kind are in one order: nothing, numbers, texts by their bytes, blobs.
-/

namespace SwarmSampler

/-- What a cell holds. -/
inductive Cell
  | null
  | integer (n : Int)
  | real (x : Float)
  | text (s : String)
  | blob (bytes : List UInt8)

namespace Cell

def leastInteger : Int := -9_223_372_036_854_775_808

def greatestInteger : Int := 9_223_372_036_854_775_807

/-- Whether a number fits a cell. -/
def fits (n : Int) : Bool := leastInteger ≤ n && n ≤ greatestInteger

def kindName : Cell → String
  | null => "Null"
  | integer _ => "Integer"
  | real _ => "Real"
  | text _ => "Text"
  | blob _ => "Blob"

/-- Where a kind of cell stands in the order. -/
def rank : Cell → Nat
  | null => 0
  | integer _ => 1
  | real _ => 1
  | text _ => 2
  | blob _ => 3

/-- Whether a list of numbers comes before another. -/
def listBefore : List Nat → List Nat → Bool
  | [], [] => false
  | [], _ :: _ => true
  | _ :: _, [] => false
  | a :: as, b :: bs => if a < b then true else if b < a then false else listBefore as bs

/-- Whether a text comes before another by its bytes, which is by its characters. -/
def textBefore (a b : String) : Bool :=
  listBefore (a.toList.map (·.toNat)) (b.toList.map (·.toNat))

/-- Whether a cell comes before another. -/
def before (a b : Cell) : Bool :=
  match a, b with
  | integer m, integer n => m < n
  | integer m, real y => Float.ofInt m < y
  | real x, integer n => x < Float.ofInt n
  | real x, real y => x < y
  | text s, text t => textBefore s t
  | blob s, blob t => listBefore (s.map (·.toNat)) (t.map (·.toNat))
  | a, b => a.rank < b.rank

/-- Whether two cells hold the same value. An empty cell is not the same as any. -/
def same (a b : Cell) : Bool :=
  match a, b with
  | integer m, integer n => m == n
  | integer m, real y => Float.ofInt m == y
  | real x, integer n => x == Float.ofInt n
  | real x, real y => x == y
  | text s, text t => s == t
  | blob s, blob t => s == t
  | _, _ => false

/-- A real as a whole number where it is one that fits, the least and the greatest aside. -/
def wholeReal (x : Float) : Cell :=
  if x.floor == x && -9223372036854775808.0 < x && x < 9223372036854775808.0 then
    if x < 0 then integer (-(-x).toUInt64.toNat) else integer x.toUInt64.toNat
  else real x

/-- A whole number, or the real that it is when it does not fit. -/
def wholeOr (n : Int) (x : Float) : Cell := if fits n then integer n else real x

/-- A cell as a column of whole numbers keeps it: a text that is a number becomes one. -/
def asInteger : Cell → Cell
  | text s =>
    let n := Store.Numeral.ofText s.toList
    if n.isNumber then
      if n.isPlain && fits n.wholeValue then integer n.wholeValue else wholeReal n.real
    else text s
  | real x => wholeReal x
  | c => c

/-- A cell as a column of texts keeps it: a whole number becomes its digits. -/
def asText : Cell → Cell
  | integer n => text (toString n)
  | c => c

/-- The number at the front of a text: a real where it counts as one, else the whole number before
the point. -/
def ofNumeral (n : Store.Numeral) : Cell :=
  if n.isReal then real n.real else wholeOr n.wholeValue n.real

/-- A cell as a number, of which a text has the one at its front and bytes that of their text. -/
def asNumber : Cell → Cell
  | null => null
  | integer n => integer n
  | real x => real x
  | text s => ofNumeral (Store.Numeral.ofText s.toList)
  | blob bytes => ofNumeral (Store.Numeral.ofText (bytes.map fun b => Char.ofNat b.toNat))

/-- One more than a cell as a column of whole numbers keeps it. -/
def increment (c : Cell) : Cell :=
  match c.asNumber with
  | integer n => if fits (n + 1) then integer (n + 1) else wholeReal (Float.ofInt n + 1)
  | real x => wholeReal (x + 1)
  | c => c

end Cell

end SwarmSampler
