import SwarmSampler.Text.Ascii

/-
Paths as texts with slashes. A path is taken in two ways: by its components,
among which `.` means nothing, and by the place it leads to, where `..` goes up.
Places are lists of names from the working directory down, after as many `..`
as it takes to get above it.
-/

namespace SwarmSampler.Path

def parts (path : List Char) : List (List Char) := (path.splitOn '/').filter (· ≠ [])

def components (path : List Char) : List (List Char) := (parts path).filter (· ≠ ['.'])

def ofComponents (names : List (List Char)) : List Char := ['/'].intercalate names

def parent (path : List Char) : List Char := ofComponents (components path).dropLast

def above (place : List (List Char)) : List (List Char) :=
  match place.getLast? with
  | none => [['.', '.']]
  | some name => if name = ['.', '.'] then place ++ [name] else place.dropLast

/-- Where a part of a path leads from a place. -/
def enter (place : List (List Char)) (part : List Char) : List (List Char) :=
  if part = ['.'] then place else if part = ['.', '.'] then above place else place ++ [part]

/-- The place a path leads to by its text alone. -/
def place (path : List Char) : List (List Char) := (parts path).foldl enter []

/-- All beginnings of a list, the shortest first, without the empty one. -/
def beginnings {α : Type} (path : List α) : List (List α) :=
  (List.range path.length).map fun n => path.take (n + 1)

/-- A path and the paths of what leads to it, the nearest first. -/
def ancestry (path : List Char) : List (List Char) :=
  path :: (beginnings (components path).dropLast).reverse.map ofComponents

/-- What follows the last point of the last component, none if nothing comes before it. -/
def extension? (path : List Char) : Option (List Char) :=
  match (components path).getLast? with
  | none => none
  | some name =>
    let back := name.reverse
    let ending := back.takeWhile (· ≠ '.')
    match back.drop ending.length with
    | _ :: _ :: _ => if name = ['.', '.'] then none else some ending.reverse
    | _ => none

/-- Whether the extension is a given one in any letter case. -/
def hasExtension (path : List Char) (extension : List Char) : Bool :=
  match extension? path with
  | none => false
  | some e => Text.sameFolded e extension

end SwarmSampler.Path
