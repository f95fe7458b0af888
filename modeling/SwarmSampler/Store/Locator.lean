import SwarmSampler.Store.Refusal
import SwarmSampler.Text.Ascii
import SwarmSampler.Text.Utf8

/-
What a store's path says. A path that starts with `file:` is a locator: after
an authority, which can only be this machine, comes the name of a file, and
options may follow a question mark. Every other path is a name itself. In a
locator a percent sign with two digits stands for a byte, and a zero byte ends
the part it is in.
-/

namespace SwarmSampler.Store

/-- How a store may be used. -/
inductive Access
  | readOnly | readWrite | create | memory
  deriving DecidableEq

namespace Access

def names : List (String × Access) :=
  [("ro", readOnly), ("rw", readWrite), ("rwc", create), ("memory", memory)]

def rank : Access → Nat
  | memory => 0
  | readOnly => 1
  | readWrite => 2
  | create => 3

/-- Whether a mode may give way to another: to one that asks for no more, or any after memory. -/
def admits (now asked : Access) : Bool := now = memory || asked.rank ≤ now.rank

end Access

/-- What a store's path says. -/
structure Locator where
  name : List Char
  access : Access
  /-- Whether a store in memory is the same for all who open it. -/
  shared : Bool
  /-- Whether the file is said never to change. -/
  frozen : Option Bool
  /-- The named way to reach files. -/
  system : Option String

namespace Locator

/-- The locator of a name without options. -/
def ofName (name : List Char) : Locator := ⟨name, .create, false, none, none⟩

/-- The bytes a part stands for, up to a zero byte. -/
def decodedBytes : List Char → List UInt8
  | [] => []
  | '%' :: a :: b :: rest =>
    match Text.hexValue? a, Text.hexValue? b with
    | some high, some low =>
      if high = 0 && low = 0 then [] else UInt8.ofNat (16 * high + low) :: decodedBytes rest
    | _, _ => String.utf8EncodeChar '%' ++ decodedBytes (a :: b :: rest)
  | c :: rest => String.utf8EncodeChar c ++ decodedBytes rest

/-- The text a part stands for. Bytes that are no UTF-8 stand for a character each. -/
def decoded (part : List Char) : String :=
  let bytes := decodedBytes part
  (Text.ofBytes? bytes).getD (String.ofList (bytes.map fun b => Char.ofNat b.toNat))

/-- What comes before a sign, and what after it if it is there. -/
def cutAt (sign : Char) (s : List Char) : List Char × Option (List Char) :=
  match s.dropWhile (· ≠ sign) with
  | [] => (s, none)
  | _ :: rest => (s.takeWhile (· ≠ sign), some rest)

/-- The options of a query. Those without a name count for nothing. -/
def options (query : List Char) : List (String × String) :=
  ((query.splitOn '&').map fun part =>
    let (name, value) := cutAt '=' part
    (decoded name, decoded (value.getD []))).filter (·.1 ≠ "")

/-- Whether an option's value means yes. -/
def isYes (value : List Char) : Bool :=
  let digits := value.takeWhile Text.isDigit
  if digits ≠ [] then Text.readDigits digits % 256 ≠ 0
  else ["on", "yes", "true"].any fun word => Text.sameFolded value word.toList

def withOption (l : Locator) (o : String × String) : Except Refusal Locator :=
  let (name, value) := o
  if name = "vfs" then .ok { l with system := some value }
  else if name = "cache" then
    if value = "shared" then .ok { l with shared := true }
    else if value = "private" then .ok { l with shared := false }
    else .error (.unknownCache value)
  else if name = "mode" then
    match Access.names.lookup value with
    | none => .error (.unknownAccess value)
    | some asked =>
      if l.access.admits asked then .ok { l with access := asked }
      else .error (.accessNotAllowed value)
  else if name = "immutable" then .ok { l with frozen := l.frozen.or (some (isYes value.toList)) }
  else .ok l

/-- The ways to reach files that have a name. -/
def systems : List String := ["unix", "unix-none", "unix-dotfile", "unix-excl", "memdb"]

/-- What follows the authority, if there is one. -/
def withoutAuthority (s : List Char) : Except Refusal (List Char) :=
  match Text.dropPrefix? "//".toList s with
  | none => .ok s
  | some rest =>
    let authority := String.ofList (rest.takeWhile (· ≠ '/'))
    if authority = "" || authority = "localhost" then .ok (rest.dropWhile (· ≠ '/'))
    else .error (.foreignAuthority authority)

def read (path : List Char) : Except Refusal Locator :=
  match Text.dropPrefix? "file:".toList path with
  | none => .ok (ofName path)
  | some rest => do
    let (name, query) := cutAt '?' (cutAt '#' (← withoutAuthority rest)).1
    let l ← (options (query.getD [])).foldlM withOption (ofName (decoded name).toList)
    match l.system with
    | none => return l
    | some system => if systems.contains system then return l else throw (.unknownSystem system)

/-- Whether the store is kept in memory. -/
def isTransient (l : Locator) : Bool :=
  l.name = [] || l.name = ":memory:".toList || l.access = .memory || l.system = some "memdb"

/-- Whether a store in memory is there for all who open it. -/
def isCommon (l : Locator) : Bool :=
  l.name ≠ [] &&
    (l.shared || (l.system = some "memdb" && l.name.head? = some '/' && l.name ≠ ['/']))

def isWritable (l : Locator) : Bool := l.access ≠ .readOnly && l.frozen ≠ some true

end Locator

end SwarmSampler.Store
