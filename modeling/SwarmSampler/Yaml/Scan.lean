import SwarmSampler.Yaml.Scalar

/-
Scanning YAML into tokens. Blocks are opened and closed by indentation, and a
scalar may turn out to have been a key only at the colon after it: the place
where its key token belongs is remembered until then.
-/

namespace SwarmSampler.Yaml

/-- A token that may turn out to start a key. -/
structure PendingKey where
  possible : Bool
  required : Bool
  /-- Where among the tokens it stands. -/
  position : Nat
  index : Nat
  line : Nat
  column : Nat

def PendingKey.none : PendingKey := ⟨false, false, 0, 0, 0, 0⟩

/-- The state of scanning. -/
structure Scanner where
  cursor : Cursor
  tokens : Array Token
  /-- The column of the innermost block, -1 outside. -/
  indent : Int
  /-- The columns of the blocks around it. -/
  indents : List Int
  keyAllowed : Bool
  /-- The pending key of each open bracket, the innermost first, and of the blocks outside. -/
  keys : List PendingKey

abbrev Scan := StateT Scanner Option

namespace Scan

def start (text : List Char) : Scanner := ⟨Cursor.start text, #[], -1, [], true, [PendingKey.none]⟩

/-- Whether a bracket is open. -/
def inFlow (s : Scanner) : Bool := 1 < s.keys.length

def emit (t : Token) : Scan Unit := modify fun s => { s with tokens := s.tokens.push t }

def move (f : Cursor → Cursor) : Scan Unit := modify fun s => { s with cursor := f s.cursor }

/-- Whether a key may start from here on. -/
def allowKey (b : Bool) : Scan Unit := modify fun s => { s with keyAllowed := b }

def setPending (k : PendingKey) : Scan Unit :=
  modify fun s => { s with keys := k :: s.keys.drop 1 }

def pending : Scan PendingKey := do
  let s ← get
  return s.keys.headD PendingKey.none

/-- Gives up the innermost pending key, which fails when one is required. -/
def dropPending : Scan Unit := do
  let k ← pending
  if k.possible && k.required then failure
  setPending PendingKey.none

/-- Remembers that the token to come may start a key. -/
def savePending : Scan Unit := do
  let s ← get
  if s.keyAllowed then
    dropPending
    let c := s.cursor
    let required := !inFlow s && s.indent == (c.column : Int)
    setPending ⟨true, required, s.tokens.size, c.index, c.line, c.column⟩

/-- Gives up a pending key on another line or too far back. -/
def stale? (c : Cursor) (k : PendingKey) : Option PendingKey :=
  if k.possible && (k.line < c.line || k.index + 1024 < c.index) then
    if k.required then none else some PendingKey.none
  else some k

/-- Gives up the pending keys that can no longer be keys. -/
def dropStale : Scan Unit := do
  let s ← get
  let keys ← (s.keys.mapM (stale? s.cursor) : Option (List PendingKey))
  set { s with keys := keys }

/-- Opens a block at a column if it is deeper, its token at a given place. -/
def openBlock (column : Nat) (position : Nat) (t : Token) : Scan Unit :=
  modify fun s =>
    if inFlow s || (column : Int) ≤ s.indent then s
    else { s with
      indent := column
      indents := s.indent :: s.indents
      tokens := s.tokens.insertIdxIfInBounds position t }

/-- The blocks left open at a column, and how many are closed. -/
def closeCount (column : Int) : Int → List Int → Int × List Int × Nat
  | indent, [] => (indent, [], 0)
  | indent, outer :: rest =>
    if column < indent then
      let (indent, rest, n) := closeCount column outer rest
      (indent, rest, n + 1)
    else (indent, outer :: rest, 0)

/-- Closes the blocks that are deeper than a column. -/
def closeBlocks (column : Int) : Scan Unit :=
  modify fun s =>
    if inFlow s then s
    else
      let (indent, indents, n) := closeCount column s.indent s.indents
      { s with
        indent := indent
        indents := indents
        tokens := s.tokens ++ Array.replicate n Token.blockEnd }

/-- Passes blanks, comments and line breaks up to the next token. -/
def passBlanks : Nat → Scan Unit
  | 0 => failure
  | fuel + 1 => do
    let s ← get
    let c := s.cursor.skipOrderMark.skipWhile fun x =>
      x == ' ' || ((inFlow s || !s.keyAllowed) && x == '\t')
    let c := if c.sees '#' then c.skipToBreak else c
    if c.onBreak then
      set { s with cursor := c.skipLine, keyAllowed := s.keyAllowed || !inFlow s }
      passBlanks fuel
    else set { s with cursor := c }

/-- A name of letters, digits, hyphens and underlines. -/
def name : Scan String := do
  let s ← get
  let text := s.cursor.rest.takeWhile isNameChar
  move (·.skipBy text.length)
  return String.ofList text

/-- An anchor or an alias after its sign. -/
def anchorName : Scan String := do
  move Cursor.skip
  let text ← name
  let s ← get
  let ends := s.cursor.gapAt 0 || (s.cursor.peek 0).any fun x =>
    x == '?' || x == ':' || x == ',' || x == ']' || x == '\x7d' || x == '%' || x == '@' || x == '\x60'
  if text = "" || !ends then failure
  return text

/-- A character of a tag; some only stand in a tag that is written out. -/
def isTagChar (full : Bool) (c : Char) : Bool :=
  isNameChar c || ";/?:@&=+$.!~*'()%".toList.contains c || (full && [',', '[', ']'].contains c)

/-- How many bytes have to follow a byte that starts a character. -/
def bytesAfter? (lead : Nat) : Option Nat :=
  if lead < 0x80 then some 0
  else if 0xC0 ≤ lead ∧ lead < 0xE0 then some 1
  else if 0xE0 ≤ lead ∧ lead < 0xF0 then some 2
  else if 0xF0 ≤ lead ∧ lead < 0xF8 then some 3
  else none

/-- The bytes of a tag, in which a per cent sign and two digits stand for a byte. The bytes of one
character, of which some are `owed` yet, stand together. -/
def tagBytes? (owed : Nat) : List Char → Option (List UInt8)
  | [] => if owed = 0 then some [] else none
  | '%' :: a :: b :: rest => do
    let n := 16 * (← Text.hexValue? a) + (← Text.hexValue? b)
    let owed ←
      match owed with
      | 0 => bytesAfter? n
      | owed + 1 => if 0x80 ≤ n ∧ n < 0xC0 then some owed else none
    (tagBytes? owed rest).map (UInt8.ofNat n :: ·)
  | c :: rest =>
    if owed ≠ 0 ∨ c = '%' then none else (tagBytes? 0 rest).map (UInt8.ofNat c.toNat :: ·)

/-- The rest of a tag, and whether anything was written. A zero byte ends it early. -/
def tagText (full : Bool) : Scan (List UInt8 × Bool) := do
  let s ← get
  let text := s.cursor.rest.takeWhile (isTagChar full)
  move (·.skipBy text.length)
  let bytes ← (tagBytes? 0 text : Option (List UInt8))
  return (bytes.takeWhile (· ≠ 0), !text.isEmpty)

/-- The bytes of a part of a tag that is plainly written. -/
def plainBytes (s : List Char) : List UInt8 := s.map fun c => UInt8.ofNat c.toNat

/-- The handle of a tag: an exclamation mark, and a name with another one if it is complete. -/
def tagHandle : Scan (List Char) := do
  let s ← get
  if !s.cursor.sees '!' then failure
  let body := (s.cursor.rest.drop 1).takeWhile isNameChar
  let closed := s.cursor.peek (1 + body.length) == some '!'
  let handle := '!' :: body ++ (if closed then ['!'] else [])
  move (·.skipBy handle.length)
  return handle

def tag : Scan Token := do
  let s ← get
  let token ←
    if s.cursor.peek 1 == some '<' then do
      move (·.skipBy 2)
      let (suffix, written) ← tagText true
      let s ← get
      if !written || !s.cursor.sees '>' then failure
      move Cursor.skip
      pure (Token.tag "" suffix)
    else do
      let handle ← tagHandle
      let (suffix, written) ← tagText false
      if 1 < handle.length && handle.getLast? == some '!' then
        if !written then failure
        pure (Token.tag (String.ofList handle) suffix)
      else
        let suffix := plainBytes (handle.drop 1) ++ suffix
        pure (if suffix = [] then Token.tag "" (plainBytes ['!']) else Token.tag "!" suffix)
  let s ← get
  if !(inFlow s && s.cursor.sees ',') && !s.cursor.gapAt 0 then failure
  return token

/-- A number of a version, at most nine digits. -/
def versionNumber : Scan Nat := do
  let s ← get
  let digits := s.cursor.rest.takeWhile Text.isDigit
  if digits.isEmpty || 9 < digits.length then failure
  move (·.skipBy digits.length)
  return Text.readDigits digits

def directive : Scan Token := do
  move Cursor.skip
  let kind ← name
  let s ← get
  if kind = "" || !s.cursor.gapAt 0 then failure
  move (·.skipWhile isBlank)
  let token ←
    if kind = "YAML" then do
      let major ← versionNumber
      let s ← get
      if !s.cursor.sees '.' then failure
      move Cursor.skip
      let minor ← versionNumber
      pure (Token.version major minor)
    else if kind = "TAG" then do
      let handle ← tagHandle
      if 1 < handle.length && handle.getLast? != some '!' then failure
      let s ← get
      if !s.cursor.onBlank then failure
      move (·.skipWhile isBlank)
      let (start, written) ← tagText true
      let s ← get
      if !written || !s.cursor.gapAt 0 then failure
      pure (Token.tagDirective (String.ofList handle) start)
    else failure
  move (·.skipWhile isBlank)
  let s ← get
  let c := if s.cursor.sees '#' then s.cursor.skipToBreak else s.cursor
  if !c.onBreak && !c.rest.isEmpty then failure
  set { s with cursor := if c.onBreak then c.skipLine else c }
  return token

def openFlow (t : Token) : Scan Unit := do
  savePending
  modify fun s => { s with keys := PendingKey.none :: s.keys, keyAllowed := true }
  move Cursor.skip
  emit t

def closeFlow (t : Token) : Scan Unit := do
  dropPending
  modify fun s => { s with keys := if inFlow s then s.keys.drop 1 else s.keys, keyAllowed := false }
  move Cursor.skip
  emit t

/-- Outside brackets, a place for a new key or entry, which opens a block if it is deeper. -/
def enterBlock (t : Token) : Scan Unit := do
  let s ← get
  if !inFlow s then
    if !s.keyAllowed then failure
    openBlock s.cursor.column s.tokens.size t

/-- A hyphen before an entry. -/
def blockEntry : Scan Unit := do
  enterBlock .blockSequence
  dropPending
  allowKey true
  move Cursor.skip
  emit .blockEntry

/-- A question mark before a key. -/
def explicitKey : Scan Unit := do
  enterBlock .blockMapping
  dropPending
  modify fun s => { s with keyAllowed := !inFlow s }
  move Cursor.skip
  emit .key

/-- A colon before a value, which makes the pending token a key. -/
def valueSign : Scan Unit := do
  let k ← pending
  if k.possible then
    modify fun s => { s with tokens := s.tokens.insertIdxIfInBounds k.position .key }
    openBlock k.column k.position .blockMapping
    setPending PendingKey.none
    allowKey false
  else
    enterBlock .blockMapping
    modify fun s => { s with keyAllowed := !inFlow s }
  move Cursor.skip
  emit .value

def quoted (double : Bool) (fuel : Nat) : Scan Unit := do
  savePending
  allowKey false
  let s ← get
  let (text, c) ← (quotedScalar double fuel [] s.cursor.skip : Option _)
  move fun _ => c
  emit (.scalar .quoted (String.ofList text))

def block (literal : Bool) (fuel : Nat) : Scan Unit := do
  dropPending
  allowKey true
  let s ← get
  let (text, c) ← (blockScalar literal s.indent fuel s.cursor.skip : Option _)
  move fun _ => c
  emit (.scalar (if literal then .literal else .folded) (String.ofList text))

/-- A plain scalar. A key may follow it if a line was broken. -/
def plain (fuel : Nat) : Scan Unit := do
  savePending
  allowKey false
  let s ← get
  let (text, broken, c) ←
    (plainScalar (inFlow s) (s.indent + 1).toNat fuel [] Gap.none s.cursor : Option _)
  set { s with cursor := c, keyAllowed := broken }
  emit (.scalar .plain (String.ofList text))

def startsPlain (s : Scanner) : Bool :=
  match s.cursor.rest with
  | [] => false
  | x :: _ =>
    let indicator := "-?:,[]\x7b\x7d#&*!|>'\"%@\x60".toList.contains x
    (!s.cursor.gapAt 0 && !indicator) ||
      (x == '-' && !(s.cursor.peek 1).any isBlank) ||
      (!inFlow s && (x == '?' || x == ':') && !s.cursor.gapAt 1)

def documentMark : Scan Unit := do
  closeBlocks (-1)
  dropPending
  allowKey false
  let s ← get
  move (·.skipBy 3)
  emit (if s.cursor.sees '-' then .documentStart else .documentEnd)

/-- One token, whose first character is given, somewhere in a line. -/
def tokenAt (fuel : Nat) (x : Char) : Scan Unit := do
  let s ← get
  let gapNext := s.cursor.gapAt 1
  if x == '[' then openFlow .openBracket
  else if x == '\x7b' then openFlow .openBrace
  else if x == ']' then closeFlow .closeBracket
  else if x == '\x7d' then closeFlow .closeBrace
  else if x == ',' then
    dropPending
    allowKey true
    move Cursor.skip
    emit .flowEntry
  else if x == '-' && gapNext then blockEntry
  else if x == '?' && (inFlow s || gapNext) then explicitKey
  else if x == ':' && (inFlow s || gapNext) then valueSign
  else if x == '*' then
    savePending
    allowKey false
    emit (.alias (← anchorName))
  else if x == '&' then
    savePending
    allowKey false
    emit (.anchor (← anchorName))
  else if x == '!' then
    savePending
    allowKey false
    emit (← tag)
  else if x == '|' && !inFlow s then block true fuel
  else if x == '>' && !inFlow s then block false fuel
  else if x == '\x27' then quoted false fuel
  else if x == '"' then quoted true fuel
  else if startsPlain s then plain fuel
  else failure

/-- Goes on to the next token, unless the text ends first. Answers whether it does. -/
def step (whole : Nat) : Scan Bool := do
  passBlanks whole
  dropStale
  closeBlocks (← get).cursor.column
  let s ← get
  match s.cursor.rest with
  | [] =>
    closeBlocks (-1)
    dropPending
    return true
  | x :: _ =>
    if s.cursor.column == 0 && x == '%' then
      closeBlocks (-1)
      dropPending
      allowKey false
      emit (← directive)
    else if s.cursor.onDocumentMark then documentMark
    else tokenAt whole x
    return false

def all (whole : Nat) : Nat → Scan Unit
  | 0 => failure
  | fuel + 1 => do
    if !(← step whole) then all whole fuel

/-- The tokens up to the end, or up to the first that cannot be read. -/
def leading (whole : Nat) : Nat → Scanner → Array Token
  | 0, s => s.tokens
  | fuel + 1, s =>
    match (step whole).run s with
    | some (false, s) => leading whole fuel s
    | some (true, s) => s.tokens
    | none => s.tokens

end Scan

def tokens? (text : List Char) : Option (List Token) :=
  if text.all isPrintable then
    let fuel := text.length + 2
    ((Scan.all fuel fuel).run (Scan.start text)).map fun r => r.2.tokens.toList
  else none

/-- The tokens of a text up to the first that cannot be read. -/
def leadingTokens (text : List Char) : List Token :=
  let fuel := text.length + 2
  if text.all isPrintable then (Scan.leading fuel fuel (Scan.start text)).toList else []

end SwarmSampler.Yaml
