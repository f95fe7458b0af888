import SwarmSampler.Files
import SwarmSampler.Store
import SwarmSampler.Store.Image
import SwarmSampler.Store.Locator

/-
Opening a store at a path. The directories that lead to it are made first. A
file that is no store of this kind is refused; one of a single byte or none
counts as new. A store that is kept in memory is gone when it is opened again,
and nobody else sees it, unless it is said to be there for all.
-/

namespace SwarmSampler.Store

/-- Where a store is. -/
structure Home where
  path : String
  /-- Whether nobody else can open it. -/
  isPrivate : Bool

/-- A store and where it is. -/
structure Opened where
  home : Home
  store : Store

/-- Makes the directory a path's file is to stand in. -/
def makeParent (files : Files) (path : String) : Except Failure Files :=
  match files.makeDirectory (Path.parent path.toList) with
  | .ok files => .ok files
  | .error fault => .error ⟨.io, fault.message⟩

/-- The bytes the working directory's own path is taken to have. -/
def rootLength : Nat := 15

/-- The storage takes paths of no more than this many bytes. -/
def longestPath : Nat := 512

/-- The bytes of the longest ending of a file beside a store's own. -/
def endingLength : Nat := 8

/-- The bytes of the whole path of a place. -/
def pathLength (root : Nat) (place : List (List Char)) : Nat :=
  place.foldl (fun n name => n + 1 + Text.byteLength name) root

/-- Whether the storage can take one more step to a place. -/
def isReachable (files : Files) (root : Nat) (place : List (List Char)) : Bool :=
  pathLength root place ≤ longestPath && (place.getLast?).all (Text.byteLength · ≤ Files.longestName) &&
    (place = [] || files.isDirectoryAt place.dropLast || (files.at? place.dropLast).isNone)

/-- The place of a file by the text of its name, none if the storage cannot go there. -/
def place? (files : Files) (name : List Char) : Option (List (List Char)) := do
  let root := if name.head? = some '/' then 0 else rootLength
  let place ← (Path.parts name).foldlM (fun place part =>
    let next := Path.enter place part
    if isReachable files root next then some next else none) []
  if pathLength root place + endingLength ≤ longestPath then some place else none

/-- Whether a directory stands beside a file, where its name with an ending is looked for. -/
def isBlocked (files : Files) (place : List (List Char)) (ending : String) : Bool :=
  files.isDirectoryAt (place.dropLast ++ [(place.getLast?).getD [] ++ ending.toList])

/-- Whether the name of a file is too long for an ending. -/
def isLong (place : List (List Char)) : Bool :=
  Files.longestName < Text.byteLength ((place.getLast?).getD []) + endingLength

/-- What is looked at in turn when a file becomes a store. -/
def fileChecks (files : Files) (place : List (List Char)) (bytes : List UInt8) (writable : Bool) :
    List (Bool × Refusal) :=
  let blocked := isBlocked files place
  if bytes.length ≤ 1 then
    [(blocked "-wal", .ioFault), (!writable, .readOnly),
     (blocked "-journal" || isLong place, .cannotOpenBeside), (blocked "-shm", .readOnly)]
  else
    [(blocked "-journal", .ioFault), (blocked "-wal", .cannotOpenBeside)] ++
      Image.readChecks bytes ++
      [(!writable || Image.isLocked bytes, .readOnly), (isLong place, .cannotOpenBeside),
       (blocked "-shm", .readOnly), (!Image.hasSoundRoom bytes, .malformed)]

def openFile (files : Files) (path : String) (l : Locator) : Except Refusal Files := do
  match place? files l.name with
  | none => throw (.cannotOpen path)
  | some place =>
    match files.at? place with
    | some .directory => throw (if l.access = .readOnly then .ioFault else .cannotOpen path)
    | some (.file bytes) =>
      match firstRefusal? (fileChecks files place bytes l.isWritable) with
      | some refusal => throw refusal
      | none => return files
    | none =>
      if l.access = .create && files.isDirectoryAt place.dropLast then
        match firstRefusal? (fileChecks files place [] l.isWritable) with
        | some refusal => throw refusal
        | none => return files.put place (.file [])
      else throw (.cannotOpen path)

/-- Opens what a path says, once its directories are there. -/
def openPath (files : Files) (path : String) : Except Refusal (Files × Home) := do
  let before := path.toList.takeWhile (· ≠ '\x00')
  if before.length < path.length then throw (.nulByte (Text.byteLength before))
  let l ← Locator.read path.toList
  if l.isTransient then
    if l.access = .readOnly then throw .readOnly
    return (files, ⟨path, !l.isCommon⟩)
  return (← openFile files path l, ⟨path, false⟩)

def openAt (files : Files) (path : String) : Except Failure (Files × Opened) := do
  match openPath (← makeParent files path) path with
  | .ok (files, home) => return (files, ⟨home, empty⟩)
  | .error refusal => throw ⟨.store, refusal.message⟩

/-- Opens a store again at the same path. -/
def Opened.reopen (o : Opened) : Opened := if o.home.isPrivate then { o with store := empty } else o

/-- Lets another program that opens the same path do something to one of the tables. It finds none
where a store is private. -/
def Opened.fromOutside (o : Opened) (table : String)
    (body : Store → Except Violation Nat × Store) : Except Violation Nat × Opened :=
  if o.home.isPrivate then (.error (.noTable table), o)
  else
    let (result, store) := body o.store
    (result, { o with store := store })

end SwarmSampler.Store
