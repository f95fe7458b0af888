import SwarmSampler.Failure
import SwarmSampler.Files.Path
import SwarmSampler.Text.Utf8

/-
A directory with files below it, as far as the program uses one: directories
are made along a path, and files are looked at. The system follows a path part
by part, and each part but the last must be a directory that is there.
-/

namespace SwarmSampler

/-- What stands at a place. -/
inductive FileEntry
  | directory
  | file (bytes : List UInt8)
  deriving DecidableEq

/-- The entries by their places, the latest first. -/
structure Files where
  entries : List (List (List Char) × FileEntry)

namespace Files

/-- What the system says when something cannot be done. -/
inductive Fault
  | missing | exists | notDirectory | isDirectory | nameTooLong | nulByte
  deriving DecidableEq

def Fault.message : Fault → String
  | missing => "No such file or directory (os error 2)"
  | .exists => "File exists (os error 17)"
  | notDirectory => "Not a directory (os error 20)"
  | isDirectory => "Is a directory (os error 21)"
  | nameTooLong => "File name too long (os error 36)"
  | nulByte => "file name contained an unexpected NUL byte"

/-- A working directory with nothing in it. -/
def empty : Files := ⟨[]⟩

/-- What stands at a place. The working directory and those above it are always there. -/
def at? (files : Files) (place : List (List Char)) : Option FileEntry :=
  if place.all (· = ['.', '.']) then some .directory else files.entries.lookup place

def isDirectoryAt (files : Files) (place : List (List Char)) : Bool :=
  files.at? place = some .directory

/-- Puts an entry at a place, with the directories that lead to it. -/
def put (files : Files) (place : List (List Char)) (entry : FileEntry) : Files :=
  ⟨(place, entry) :: (Path.beginnings place.dropLast).map (·, .directory) ++ files.entries⟩

/-- A name has no more than this many bytes. -/
def longestName : Nat := 255

/-- A path has no more than this many bytes. -/
def longestPath : Nat := 4095

/-- What is wrong with a path as a text. -/
def textFault? (path : List Char) : Option Fault :=
  if path.contains '\x00' then some .nulByte
  else if path = [] then some .missing
  else if longestPath < Text.byteLength path then some .nameTooLong
  else none

/-- Follows the parts of a path from a place. What they lead to in the end need not be there. -/
def follow (files : Files) : List (List Char) → List (List Char) →
    Except Fault (List (List Char))
  | [], place => .ok place
  | part :: rest, place =>
    match files.at? place with
    | none => .error .missing
    | some (.file _) => .error .notDirectory
    | some .directory =>
      if longestName < Text.byteLength part then .error .nameTooLong
      else follow files rest (Path.enter place part)

def find (files : Files) (path : List Char) : Except Fault (List (List Char)) :=
  match textFault? path with
  | some fault => .error fault
  | none => files.follow (Path.parts path) []

def isDirectory (files : Files) (path : List Char) : Bool :=
  match files.find path with
  | .ok place => files.isDirectoryAt place
  | .error _ => false

/-- Makes a directory in one that is there. -/
def makeOne (files : Files) (path : List Char) : Except Fault Files := do
  let place ← files.find path
  if (files.at? place).isSome then .error .exists else .ok (files.put place .directory)

/-- Sees to it that a directory is there, in one that is. -/
def ensure (files : Files) (path : List Char) : Except Fault Files :=
  match files.makeOne path with
  | .error .exists => if files.isDirectory path then .ok files else .error .exists
  | made => made

/-- Sees to it that the first of some paths is a directory. Each leads to the one before it and is
made only if that one has no place otherwise. -/
def ensureAll (files : Files) : List (List Char) → Except Fault Files
  | [] => .ok files
  | path :: rest =>
    match files.ensure path with
    | .error .missing => do (← files.ensureAll rest).ensure path
    | made => made

/-- Makes a directory and those that lead to it, unless they are there. -/
def makeDirectory (files : Files) (path : List Char) : Except Fault Files :=
  if Path.components path = [] then .ok files else files.ensureAll (Path.ancestry path)

def read (files : Files) (path : List Char) : Except Fault (List UInt8) := do
  let place ← files.find path
  match files.at? place with
  | some (.file bytes) => if path.getLast? = some '/' then .error .notDirectory else .ok bytes
  | some .directory => .error .isDirectory
  | none => .error .missing

/-- Puts bytes into a file, in place of what was in it, or makes one in a directory that is there. -/
def write (files : Files) (path : List Char) (bytes : List UInt8) : Except Fault Files := do
  let place ← files.find path
  if files.isDirectoryAt place ∨ path.getLast? = some '/' then .error .isDirectory
  else .ok (files.put place (.file bytes))

end Files

end SwarmSampler
