import SwarmSampler.Text.Utf8
import SwarmSampler.Yaml.Token

/-
Scanning the scalars of YAML: plain ones, quoted ones and blocks. Lines are
folded: a single line break becomes a space, of several the first is dropped.
Each scan takes fuel for the characters it passes and fails without it.
-/

namespace SwarmSampler.Yaml

/-- Blanks and breaks passed inside a scalar. -/
structure Gap where
  /-- Blanks before the first break. -/
  blanks : List Char
  /-- Whether a break was passed. -/
  broken : Bool
  /-- The first break. -/
  first : List Char
  /-- The further breaks. -/
  further : List Char

def Gap.none : Gap := ⟨[], false, [], []⟩

def Gap.text (g : Gap) : List Char :=
  if g.broken then
    if g.first == ['\n'] then (if g.further.isEmpty then [' '] else g.further)
    else g.first ++ g.further
  else g.blanks

/-- Passes blanks and breaks. A tab before the given column is refused once a line was broken. -/
def passGap (column : Nat) : Nat → Gap → Cursor → Option (Gap × Cursor)
  | 0, _, _ => .none
  | fuel + 1, g, c =>
    match c.rest with
    | [] => some (g, c)
    | x :: _ =>
      if isBlank x then
        if g.broken then
          if x == '\t' && c.column < column then .none
          else passGap column fuel g c.skip
        else passGap column fuel ⟨g.blanks ++ [x], false, [], []⟩ c.skip
      else if isBreak x then
        if g.broken then passGap column fuel ⟨[], true, g.first, g.further ++ c.lineBreak⟩ c.skipLine
        else passGap column fuel ⟨[], true, c.lineBreak, []⟩ c.skipLine
      else some (g, c)

/-- Whether a plain scalar ends before the character here. -/
def endsPlain (inFlow : Bool) (c : Cursor) : Bool :=
  match c.rest with
  | [] => true
  | x :: _ =>
    (x == ':' && c.gapAt 1) ||
      (inFlow && (x == ',' || x == '[' || x == ']' || x == '\x7b' || x == '\x7d'))

/-- Whether a colon stands here that must not stand inside brackets. -/
def strayColon (inFlow : Bool) (c : Cursor) : Bool :=
  inFlow && c.sees ':' &&
    (c.peek 1).any fun x => x == ',' || x == '?' || x == '[' || x == ']' || x == '\x7b' || x == '\x7d'

/-- Reads the characters of a plain scalar up to a gap or its end. -/
def plainWord (inFlow : Bool) : Nat → List Char → Cursor → Option (List Char × Cursor)
  | 0, _, _ => none
  | fuel + 1, text, c =>
    if c.gapAt 0 then some (text, c)
    else if strayColon inFlow c then none
    else if endsPlain inFlow c then some (text, c)
    else
      match c.rest with
      | [] => some (text, c)
      | x :: _ => plainWord inFlow fuel (text ++ [x]) c.skip

/-- Reads a plain scalar. Answers its text, whether a line was broken after it, and where it
ends. -/
def plainScalar (inFlow : Bool) (column : Nat) :
    Nat → List Char → Gap → Cursor → Option (List Char × Bool × Cursor)
  | 0, _, _, _ => none
  | fuel + 1, text, gap, c =>
    if c.onDocumentMark || c.sees '#' then some (text, gap.broken, c)
    else do
      let (word, next) ← plainWord inFlow (fuel + 1) [] c
      let text' := if word.isEmpty then text else text ++ gap.text ++ word
      let gap' := if word.isEmpty then gap else Gap.none
      if next.onBlank || next.onBreak then
        let (gap', next) ← passGap column (fuel + 1) gap' next
        if !inFlow && next.column < column then some (text', gap'.broken, next)
        else plainScalar inFlow column fuel text' gap' next
      else some (text', gap'.broken, next)

def escapedChar? (digits : List Char) : Option Char := do
  let values ← digits.mapM Text.hexValue?
  let n := values.foldl (fun n d => 16 * n + d) 0
  if (0xD800 ≤ n ∧ n ≤ 0xDFFF) ∨ 0x10FFFF < n then none else some (Char.ofNat n)

/-- The number of digits of a numeric escape. -/
def escapeWidth? (c : Char) : Option Nat :=
  if c == 'x' then some 2 else if c == 'u' then some 4 else if c == 'U' then some 8 else none

/-- The character an escape of one letter stands for. -/
def escape? (c : Char) : Option Char :=
  [('0', '\x00'), ('a', '\x07'), ('b', '\x08'), ('t', '\t'), ('\t', '\t'), ('n', '\n'),
   ('v', '\x0b'), ('f', '\x0c'), ('r', '\r'), ('e', '\x1b'), (' ', ' '), ('"', '"'), ('/', '/'),
   ('\\', '\\'), ('N', '\u0085'), ('_', '\u00a0'), ('L', '\u2028'), ('P', '\u2029')].lookup c

/-- Reads the characters of a quoted scalar up to a gap or its end. Answers whether an escaped
line break was passed, which leaves no space. -/
def quotedWord (double : Bool) : Nat → List Char → Cursor → Option (List Char × Bool × Cursor)
  | 0, _, _ => none
  | fuel + 1, text, c =>
    if c.gapAt 0 then some (text, false, c)
    else
      match c.rest with
      | '\x27' :: '\x27' :: _ =>
        if double then quotedWord double fuel (text ++ ['\x27']) c.skip
        else quotedWord double fuel (text ++ ['\x27']) (c.skipBy 2)
      | '\\' :: x :: more =>
        if !double then quotedWord double fuel (text ++ ['\\']) c.skip
        else if isBreak x then some (text, true, c.skip.skipLine)
        else
          match escapeWidth? x with
          | some width => do
            let digits := more.take width
            if digits.length < width then none
            else
              let y ← escapedChar? digits
              quotedWord double fuel (text ++ [y]) (c.skipBy (2 + width))
          | none => do
            let y ← escape? x
            quotedWord double fuel (text ++ [y]) (c.skipBy 2)
      | x :: _ =>
        if x == (if double then '"' else '\x27') then some (text, false, c)
        else quotedWord double fuel (text ++ [x]) c.skip
      | [] => none

/-- Reads a quoted scalar after its opening quote. -/
def quotedScalar (double : Bool) : Nat → List Char → Cursor → Option (List Char × Cursor)
  | 0, _, _ => none
  | fuel + 1, text, c =>
    if c.onDocumentMark || c.rest.isEmpty then none
    else do
      let (text, escaped, c) ← quotedWord double (fuel + 1) text c
      if c.sees (if double then '"' else '\x27') then some (text, c.skip)
      else
        let (gap, c) ← passGap 0 (fuel + 1) ⟨[], escaped, [], []⟩ c
        quotedScalar double fuel (text ++ gap.text) c

/-- What to do with the breaks after a block. -/
inductive Chomping
  | strip | clip | keep
  deriving DecidableEq

/-- The signs after a block's indicator: chomping and indentation in either order. -/
def blockHeader (c : Cursor) : Option (Chomping × Nat × Cursor) :=
  let sign? (x : Char) : Option Chomping :=
    if x == '+' then some .keep else if x == '-' then some .strip else none
  let digit? (x : Char) : Option Nat := if Text.isDigit x then some (Text.digitValue x) else none
  match (c.peek 0).bind sign? with
  | some chomping =>
    match (c.peek 1).bind digit? with
    | some 0 => none
    | some n => some (chomping, n, c.skipBy 2)
    | none => some (chomping, 0, c.skip)
  | none =>
    match (c.peek 0).bind digit? with
    | some 0 => none
    | some n =>
      match (c.peek 1).bind sign? with
      | some chomping => some (chomping, n, c.skipBy 2)
      | none => some (.clip, n, c.skip)
    | none => some (.clip, 0, c)

/-- Passes empty lines of a block. Answers the breaks and the widest indentation seen. A block
whose indentation is still unknown has it zero. -/
def blockBreaks (indent : Nat) : Nat → List Char → Nat → Cursor → Option (List Char × Nat × Cursor)
  | 0, _, _, _ => none
  | fuel + 1, breaks, widest, c =>
    let spaces := (c.rest.takeWhile (· == ' ')).length
    let passed := if indent = 0 then spaces else min spaces (indent - c.column)
    let c := c.skipBy passed
    let widest := max widest c.column
    if (indent = 0 || c.column < indent) && c.sees '\t' then none
    else if c.onBreak then blockBreaks indent fuel (breaks ++ c.lineBreak) widest c.skipLine
    else some (breaks, widest, c)

def blockLines (literal : Bool) (indent : Nat) :
    Nat → List Char → List Char → List Char → Bool → Cursor →
      Option (List Char × List Char × List Char × Cursor)
  | 0, _, _, _, _, _ => none
  | fuel + 1, text, leading, trailing, leadingBlank, c =>
    if c.column == indent && !c.rest.isEmpty then do
      let blank := c.onBlank
      let joined :=
        if !literal && leading == ['\n'] && !leadingBlank && !blank then
          (if trailing.isEmpty then [' '] else [])
        else leading
      let line := c.rest.takeWhile fun x => !isBreak x
      let c := c.skipToBreak
      let leading := c.lineBreak
      let c := if c.onBreak then c.skipLine else c
      let (trailing', _, c) ← blockBreaks indent (fuel + 1) [] 0 c
      blockLines literal indent fuel (text ++ joined ++ trailing ++ line) leading trailing' blank c
    else some (text, leading, trailing, c)

/-- Reads a block scalar after its indicator, below a given indentation. -/
def blockScalar (literal : Bool) (parent : Int) (fuel : Nat) (c : Cursor) :
    Option (List Char × Cursor) := do
  let (chomping, increment, c) ← blockHeader c
  let c := c.skipWhile isBlank
  let c := if c.sees '#' then c.skipToBreak else c
  if !c.onBreak && !c.rest.isEmpty then none
  else
    let c := if c.onBreak then c.skipLine else c
    let given : Nat := if increment = 0 then 0 else (max parent 0).toNat + increment
    let (trailing, widest, c) ← blockBreaks given fuel [] 0 c
    let indent := if given = 0 then max widest (max (parent + 1).toNat 1) else given
    let (text, leading, trailing, c) ← blockLines literal indent fuel [] [] trailing false c
    let text := if chomping = .strip then text else text ++ leading
    let text := if chomping = .keep then text ++ trailing else text
    some (text, c)

end SwarmSampler.Yaml
