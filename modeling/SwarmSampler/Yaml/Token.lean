import SwarmSampler.Text.Ascii
import SwarmSampler.Text.Utf8

/-
The characters and tokens of YAML. A cursor is a place in the text; it counts
lines and columns, which the structure of a document depends on, and bytes,
which limit how long a key may be.
-/

namespace SwarmSampler.Yaml

/-- A character that ends a line. -/
def isBreak (c : Char) : Bool :=
  c == '\r' || c == '\n' || c == '\u0085' || c == '\u2028' || c == '\u2029'

def isBlank (c : Char) : Bool := c == ' ' || c == '\t'

def isNameChar (c : Char) : Bool := Text.isDigit c || Text.isLetter c || c == '_' || c == '-'

/-- Characters a document may hold. -/
def isPrintable (c : Char) : Bool :=
  let n := c.toNat
  n == 0x09 || n == 0x0A || n == 0x0D || (0x20 ≤ n && n ≤ 0x7E) || n == 0x85 ||
    (0xA0 ≤ n && n ≤ 0xD7FF) || (0xE000 ≤ n && n ≤ 0xFFFD) || 0x10000 ≤ n

inductive Style
  | plain | quoted | literal | folded
  deriving DecidableEq, Repr

inductive Token
  | version (major minor : Nat)
  | tagDirective (handle : String) (start : List UInt8)
  | documentStart
  | documentEnd
  | blockSequence
  | blockMapping
  | blockEnd
  | openBracket
  | closeBracket
  | openBrace
  | closeBrace
  | blockEntry
  | flowEntry
  | key
  | value
  | alias (name : String)
  | anchor (name : String)
  | tag (handle : String) (suffix : List UInt8)
  | scalar (style : Style) (text : String)
  deriving DecidableEq, Repr

/-- A place in the text. -/
structure Cursor where
  rest : List Char
  /-- The bytes before it. -/
  index : Nat
  line : Nat
  column : Nat

namespace Cursor

def start (text : List Char) : Cursor := ⟨text, 0, 0, 0⟩

/-- The character some places on. -/
def peek (c : Cursor) (n : Nat) : Option Char := c.rest[n]?

def sees (c : Cursor) (x : Char) : Bool := c.rest.head? == some x

/-- Whether the text ends, or a blank or a line break stands, some places on. -/
def gapAt (c : Cursor) (n : Nat) : Bool :=
  match c.peek n with
  | none => true
  | some x => isBlank x || isBreak x

def onBlank (c : Cursor) : Bool := c.rest.head?.any isBlank

def onBreak (c : Cursor) : Bool := c.rest.head?.any isBreak

def skip (c : Cursor) : Cursor :=
  match c.rest with
  | [] => c
  | x :: rest => ⟨rest, c.index + x.utf8Size, c.line, c.column + 1⟩

def skipBy (c : Cursor) (n : Nat) : Cursor :=
  ⟨c.rest.drop n, c.index + Text.byteLength (c.rest.take n), c.line, c.column + n⟩

def skipLine (c : Cursor) : Cursor :=
  match c.rest with
  | '\r' :: '\n' :: rest => ⟨rest, c.index + 2, c.line + 1, 0⟩
  | x :: rest => ⟨rest, c.index + x.utf8Size, c.line + 1, 0⟩
  | [] => c

/-- The line break here as text keeps it: a line feed, unless it separates lines or paragraphs. -/
def lineBreak (c : Cursor) : List Char :=
  match c.rest with
  | [] => []
  | x :: _ => if x == '\u2028' || x == '\u2029' then [x] else if isBreak x then ['\n'] else []

/-- Skips characters of the line while they satisfy a test. -/
def skipWhile (c : Cursor) (p : Char → Bool) : Cursor :=
  c.skipBy (c.rest.takeWhile p).length

/-- Skips a mark of the byte order at the start of a line, where it still counts as a column. -/
def skipOrderMark (c : Cursor) : Cursor := if c.column == 0 && c.sees '\uFEFF' then c.skip else c

def skipToBreak (c : Cursor) : Cursor := c.skipWhile fun x => !isBreak x

/-- Whether a line starts here that marks the start or end of a document. -/
def onDocumentMark (c : Cursor) : Bool :=
  c.column == 0 && (c.rest.take 3 == ['-', '-', '-'] || c.rest.take 3 == ['.', '.', '.']) &&
    c.gapAt 3

end Cursor

end SwarmSampler.Yaml
