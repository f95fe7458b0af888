import SwarmSampler.Yaml.Scan

/-
Parsing the tokens of YAML into one document. An alias names its node by a
number, since a document may give one name to several nodes; the nodes that
aliases name are kept beside the document, which may so contain itself.
-/

namespace SwarmSampler.Yaml

/-- The bytes of a tag. -/
abbrev Tag := List UInt8

/-- A node of a document, with its tag if it has one. -/
inductive Node
  | scalar (tag : Option Tag) (style : Style) (text : String)
  | sequence (tag : Option Tag) (items : List Node)
  | mapping (tag : Option Tag) (entries : List (Node × Node))
  /-- An alias, by the number of the node it stands for. -/
  | alias (number : Nat)

def Node.empty : Node := .scalar none .plain ""

/-- The state of parsing. -/
structure Parser where
  tokens : List Token
  /-- The handles of tags and what they stand for. -/
  handles : List (String × Tag)
  /-- The anchors by name, each with its number. -/
  anchors : List (String × Nat)
  /-- The nodes with an anchor in the order they begin, each with its anchor's number. -/
  anchored : Array (Nat × Node)

abbrev Parse := StateT Parser Option

namespace Parse

def peek : Parse (Option Token) := do
  let s ← get
  return s.tokens.head?

def next : Parse Unit := modify fun s => { s with tokens := s.tokens.drop 1 }

/-- Whether the next token is one of some, or there is none. -/
def atAny (list : List Token) : Parse Bool := do
  match ← peek with
  | none => return true
  | some t => return list.contains t

def resolveTag (handle : String) (suffix : Tag) : Parse Tag := do
  if handle = "" then return suffix
  let s ← get
  match s.handles.lookup handle with
  | some start => return start ++ suffix
  | none => failure

/-- Binds an anchor, whose node begins here. Its number is how many names there were before, so
that a name used again may share its number with the next new name. Answers the node's place. -/
def bindAnchor (name : String) : Parse Nat := do
  let s ← get
  let n := s.anchors.length
  set { s with
    anchors := (name, n) :: s.anchors.filter (·.1 ≠ name)
    anchored := s.anchored.push (n, Node.empty) }
  return s.anchored.size

/-- Keeps a finished node at its place among those with an anchor. -/
def keepNode (place : Nat) (node : Node) : Parse Unit :=
  modify fun s => { s with
    anchored := s.anchored.modify place fun entry => (entry.1, node) }

/-- An anchor and a tag in either order. -/
def properties : Parse (Option Nat × Option Tag) := do
  match ← peek with
  | some (.anchor name) =>
    next
    let n ← bindAnchor name
    match ← peek with
    | some (.tag handle suffix) =>
      next
      return (some n, some (← resolveTag handle suffix))
    | _ => return (some n, none)
  | some (.tag handle suffix) =>
    next
    match ← peek with
    | some (.anchor name) =>
      next
      let n ← bindAnchor name
      return (some n, some (← resolveTag handle suffix))
    | _ => return (none, some (← resolveTag handle suffix))
  | _ => return (none, none)

mutual

/-- A node. Blocks may only stand where `block` says so, and a sequence no deeper than its key
where `indentless` does. -/
def node : Nat → Bool → Bool → Parse Node
  | 0, _, _ => failure
  | fuel + 1, block, indentless => do
    match ← peek with
    | some (.alias name) =>
      next
      match (← get).anchors.lookup name with
      | none => failure
      | some n => return .alias n
    | _ =>
      let (anchor, tag) ← properties
      let content ← nodeContent fuel block indentless (anchor.isSome || tag.isSome) tag
      match anchor with
      | none => pure ()
      | some place => keepNode place content
      return content

/-- A node after its properties, which may stand for an empty one alone. -/
def nodeContent : Nat → Bool → Bool → Bool → Option Tag → Parse Node
  | 0, _, _, _, _ => failure
  | fuel + 1, block, indentless, marked, tag => do
    match ← peek with
    | some .blockEntry =>
      if indentless then return .sequence tag (← indentlessItems fuel)
      else if marked then return .scalar tag .plain ""
      else failure
    | some (.scalar style text) =>
      next
      return .scalar tag style text
    | some .openBracket =>
      next
      return .sequence tag (← flowItems fuel true)
    | some .openBrace =>
      next
      return .mapping tag (← flowEntries fuel true)
    | some .blockSequence =>
      if block then
        next
        return .sequence tag (← blockItems fuel)
      else if marked then return .scalar tag .plain ""
      else failure
    | some .blockMapping =>
      if block then
        next
        return .mapping tag (← blockEntries fuel)
      else if marked then return .scalar tag .plain ""
      else failure
    | _ => if marked then return .scalar tag .plain "" else failure

def blockItems : Nat → Parse (List Node)
  | 0 => failure
  | fuel + 1 => do
    match ← peek with
    | some .blockEntry =>
      next
      let item ←
        if ← atAny [.blockEntry, .blockEnd] then pure Node.empty else node fuel true false
      return item :: (← blockItems fuel)
    | some .blockEnd =>
      next
      return []
    | _ => failure

/-- The items of a sequence that is no deeper than its key. -/
def indentlessItems : Nat → Parse (List Node)
  | 0 => failure
  | fuel + 1 => do
    match ← peek with
    | some .blockEntry =>
      next
      let item ←
        if ← atAny [.blockEntry, .key, .value, .blockEnd] then pure Node.empty
        else node fuel true false
      return item :: (← indentlessItems fuel)
    | _ => return []

/-- The next entry of a block mapping, none at its end. -/
def blockEntry : Nat → Parse (Option (Node × Node))
  | 0 => failure
  | fuel + 1 => do
    match ← peek with
    | some .key =>
      next
      let key ←
        if ← atAny [.key, .value, .blockEnd] then pure Node.empty else node fuel true true
      let value ←
        if (← peek) == some .value then do
          next
          if ← atAny [.key, .value, .blockEnd] then pure Node.empty else node fuel true true
        else pure Node.empty
      return some (key, value)
    | some .blockEnd =>
      next
      return none
    | _ => failure

def blockEntries : Nat → Parse (List (Node × Node))
  | 0 => failure
  | fuel + 1 => do
    match ← blockEntry fuel with
    | some entry => return entry :: (← blockEntries fuel)
    | none => return []

/-- The items of a sequence in brackets up to its end; a pair counts as a mapping. Where a question
mark is followed by no key, the sign after it is passed with it. -/
def flowItems : Nat → Bool → Parse (List Node)
  | 0, _ => failure
  | fuel + 1, first => do
    if (← peek) == some .closeBracket then
      next
      return []
    if !first then
      if (← peek) == some .flowEntry then next else failure
    match ← peek with
    | some .closeBracket =>
      next
      return []
    | some .key =>
      next
      let key ←
        if ← atAny [.value, .flowEntry, .closeBracket] then do
          next
          pure Node.empty
        else node fuel false false
      let value ←
        if (← peek) == some .value then do
          next
          if ← atAny [.flowEntry, .closeBracket] then pure Node.empty else node fuel false false
        else pure Node.empty
      return .mapping none [(key, value)] :: (← flowItems fuel false)
    | _ =>
      let item ← node fuel false false
      return item :: (← flowItems fuel false)

/-- The next entry of a mapping in braces, none at its end. -/
def flowEntry : Nat → Bool → Parse (Option (Node × Node))
  | 0, _ => failure
  | fuel + 1, first => do
    if (← peek) == some .closeBrace then
      next
      return none
    if !first then
      if (← peek) == some .flowEntry then next else failure
    match ← peek with
    | some .closeBrace =>
      next
      return none
    | some .key =>
      next
      let key ←
        if ← atAny [.value, .flowEntry, .closeBrace] then pure Node.empty
        else node fuel false false
      let value ←
        if (← peek) == some .value then do
          next
          if ← atAny [.flowEntry, .closeBrace] then pure Node.empty else node fuel false false
        else pure Node.empty
      return some (key, value)
    | _ =>
      let key ← node fuel false false
      return some (key, Node.empty)

/-- The entries of a mapping in braces up to its end. -/
def flowEntries : Nat → Bool → Parse (List (Node × Node))
  | 0, _ => failure
  | fuel + 1, first => do
    match ← flowEntry fuel first with
    | some entry => return entry :: (← flowEntries fuel false)
    | none => return []

end

/-- The directives before a document: at most one version, which is 1.1 or 1.2, and each handle
once. -/
def directives : Nat → Bool → Parse Bool
  | 0, _ => failure
  | fuel + 1, versioned => do
    match ← peek with
    | some (.version major minor) =>
      if versioned || major != 1 || (minor != 1 && minor != 2) then failure
      next
      let _ ← directives fuel true
      return true
    | some (.tagDirective handle start) =>
      let s ← get
      if (s.handles.lookup handle).isSome then failure
      set { s with handles := (handle, start) :: s.handles }
      next
      let _ ← directives fuel versioned
      return true
    | _ => return false

/-- The handles that need no directive. -/
def standardHandles : List (String × Tag) :=
  [("!", Scan.plainBytes ['!']), ("!!", Scan.plainBytes "tag:yaml.org,2002:".toList)]

/-- Adds the handles that need no directive where none was given. -/
def addStandardHandles : Parse Unit :=
  modify fun s =>
    { s with handles := s.handles ++ standardHandles.filter fun h => (s.handles.lookup h.1).isNone }

/-- The content of a document after its start was marked. -/
def markedContent (fuel : Nat) : Parse Node := do
  match ← peek with
  | none | some .documentStart | some .documentEnd | some (.version _ _)
  | some (.tagDirective _ _) => return Node.empty
  | _ => node fuel true false

def passEnds : Parse Unit :=
  modify fun s => { s with tokens := s.tokens.dropWhile (· == .documentEnd) }

/-- What stands before a document's content. Answers whether its start was marked. -/
def opening (fuel : Nat) : Parse Bool := do
  let directed ← directives fuel false
  addStandardHandles
  if (← peek) == some .documentStart then
    next
    return true
  if directed then failure
  return false

/-- The only document, none if there is no text at all. -/
def document (fuel : Nat) : Parse (Option Node) := do
  if (← peek).isNone then return none
  let content ← if ← opening fuel then markedContent fuel else node fuel true false
  passEnds
  if (← peek).isSome then failure
  return some content

/-- Entries up to the last, or up to the first that cannot be read. The flag of an entry says
whether it is the first of its mapping. -/
def leadingEntries (entry : Bool → Parse (Option (Node × Node))) :
    Nat → Bool → Parser → List (Node × Node) × Parser
  | 0, _, s => ([], s)
  | fuel + 1, first, s =>
    match (entry first).run s with
    | some (some e, s) =>
      let (rest, s) := leadingEntries entry fuel false s
      (e :: rest, s)
    | some (none, s) => ([], s)
    | none => ([], s)

/-- The beginning of the first document if it is a mapping: what tells how to read its entries. -/
def outermost (fuel : Nat) : Parse (Bool → Parse (Option (Node × Node))) := do
  let _ ← opening fuel
  let _ ← properties
  match ← peek with
  | some .blockMapping =>
    next
    return fun _ => blockEntry fuel
  | some .openBrace =>
    next
    return flowEntry fuel
  | _ => failure

end Parse

mutual

/-- How many events a node takes: one for a scalar or an alias, two around items. -/
def Node.size : Node → Nat
  | .scalar _ _ _ => 1
  | .alias _ => 1
  | .sequence _ items => 2 + sizeOfItems items
  | .mapping _ entries => 2 + sizeOfEntries entries

def sizeOfItems : List Node → Nat
  | [] => 0
  | v :: rest => v.size + sizeOfItems rest

def sizeOfEntries : List (Node × Node) → Nat
  | [] => 0
  | (k, v) :: rest => k.size + v.size + sizeOfEntries rest

end

/-- A node where it stands in its document. -/
structure Place where
  node : Node
  /-- The nodes with an anchor by their numbers; of those with one number the last to begin comes
  first. -/
  anchored : List (Nat × Node)
  /-- How many events the whole document takes. -/
  size : Nat

def Parser.start (tokens : List Token) : Parser := ⟨tokens, [], [], #[]⟩

/-- More than enough steps for some tokens. -/
def Parser.steps (tokens : List Token) : Nat := 3 * tokens.length + 4

/-- The outermost node of a document that was parsed. -/
def Parser.root (s : Parser) (root : Node) : Place :=
  ⟨root, s.anchored.toList.reverse, root.size⟩

/-- Parses a text that holds one document at most. -/
def parse? (text : String) : Option (Option Place) := do
  let tokens ← tokens? text.toList
  let (document, s) ← (Parse.document (Parser.steps tokens)).run (Parser.start tokens)
  return document.map s.root

/-- The entries of the outermost mapping of a text up to the first that cannot be read. -/
def leadingEntries (text : String) : List (Node × Node) × Parser :=
  let tokens := leadingTokens text.toList
  let steps := Parser.steps tokens
  match (Parse.outermost steps).run (Parser.start tokens) with
  | none => ([], Parser.start [])
  | some (entry, s) => Parse.leadingEntries entry steps true s

end SwarmSampler.Yaml
