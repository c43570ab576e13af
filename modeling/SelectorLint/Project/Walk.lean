import SelectorLint.Files.System
import SelectorLint.Log.Logged

/-!
# Walking a project

The walk through a project is depth first. The entries of a directory come in the
order of the bytes of their names, and what lies below a directory comes right after
it. A path that is listed to be left out is passed over, with all that lies below it.
Links are neither followed nor stylesheets, but may be listed. The first directory that
is to be read and cannot be ends the walk.
-/

namespace SelectorLint.Project

open Files Log Text

/-- What the walk met at a path. -/
structure Visit where
  /-- The path from the root, with slashes between its names. -/
  path : String
  /-- Whether it is a regular file. -/
  isFile : Bool
  /-- Whether the path is listed to be left out. -/
  isListed : Bool
  /-- Why what lies below it could not be read, if it was to be. -/
  fault : Option FileError := none
  deriving DecidableEq, Repr

/-- Whether a name comes before another, or is the same, by their bytes. -/
def nameLe (first second : Bytes × Entry) : Bool := decide (first.1 ≤ second.1)

mutual

/-- An entry with every directory in it in the order of names. -/
def inOrder : Entry → Entry
  | .file => .file
  | .link => .link
  | .directory entries => .directory ((eachInOrder entries).mergeSort nameLe)
  | .unreadable cause => .unreadable cause

/-- Entries with every directory in them in the order of names. -/
def eachInOrder : List (Bytes × Entry) → List (Bytes × Entry)
  | [] => []
  | (name, entry) :: rest => (name, inOrder entry) :: eachInOrder rest

end

mutual

/-- Visits an entry: first itself, then what lies below it unless it is listed. -/
def visit (listed : String → Bool) (path : String) : Entry → List Visit
  | .file => [{ path, isFile := true, isListed := listed path }]
  | .link => [{ path, isFile := false, isListed := listed path }]
  | .directory entries =>
    { path, isFile := false, isListed := listed path }
      :: if listed path then [] else visitEach listed (path ++ "/") entries
  | .unreadable cause =>
    [{ path, isFile := false, isListed := listed path
       fault := if listed path then none else some cause }]

/-- Visits entries whose paths begin with the same text. -/
def visitEach (listed : String → Bool) (front : String) : List (Bytes × Entry) → List Visit
  | [] => []
  | (name, entry) :: rest =>
    visit listed (front ++ String.ofList (Utf8.decodeLossy name)) entry
      ++ visitEach listed front rest

end

/-- Everything that the walk below a root meets, in order. -/
def walk (listed : String → Bool) (entries : List (Bytes × Entry)) : List Visit :=
  visitEach listed "" ((eachInOrder entries).mergeSort nameLe)

/-- Whether a path is named like a stylesheet. -/
def isSheetName (path : String) : Bool := ".css".toList.isSuffixOf path.toList

/-- Whether a visit found a stylesheet. -/
def Visit.isSheet (visit : Visit) : Bool :=
  !visit.isListed && visit.isFile && isSheetName visit.path

/-- The end of the walk at a visit, if it ends there. -/
def Visit.error? (visit : Visit) : Option WalkError :=
  visit.fault.map fun cause => { path := visit.path, cause }

/-- The stylesheets below a root, in the order of the walk, unless the walk ends early. Each
    path that is passed over is logged, and behind a whole walk each listed path that it did
    not meet. -/
def gather (listed : List String) (entries : List (Bytes × Entry)) :
    Logged (Except WalkError (List String)) :=
  let visits := walk (fun path => listed.contains path) entries
  let reached := visits.takeWhile fun visit => visit.fault.isNone
  let met := (reached.filter (·.isListed)).map (·.path)
  match visits.findSome? Visit.error? with
  | some error => { value := .error error, log := met.map Event.ignoring }
  | none =>
    { value := .ok ((visits.filter Visit.isSheet).map (·.path))
      log := met.map Event.ignoring
        ++ (listed.filter fun entry => !met.contains entry).map Event.unmatchedIgnore }

end SelectorLint.Project
