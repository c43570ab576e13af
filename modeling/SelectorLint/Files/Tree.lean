import SelectorLint.Files.System

/-!
# File systems in memory

A tree of named files, directories and links answers like a file system. A path is
followed name by name; a link on the way is replaced by its target, at most forty
times; a path that ends in a slash must lead to a directory.
-/

namespace SelectorLint.Files

open Text

/-- A file, a link or a directory. -/
inductive Tree where
  /-- A file with its contents. -/
  | file (contents : Bytes)
  /-- A link with the path that it stands for. -/
  | link (target : Bytes)
  /-- A directory with its entries by name. -/
  | directory (entries : List (Bytes × Tree))

/-- The directories and the name that lead from the top to a place. -/
abbrev Location := List Bytes

namespace Tree

/-- The slash. -/
def slash : UInt8 := 0x2F

/-- The name of the directory itself. -/
def here : Bytes := Utf8.encode "."

/-- The name of the directory around a directory. -/
def parent : Bytes := Utf8.encode ".."

/-- The names of a path. A path that ends in a slash goes on into the directory
    itself, which only a directory allows. -/
def names (path : Bytes) : List Bytes :=
  let parts := (path.splitOn slash).filter (! ·.isEmpty)
  if path.getLast? = some slash then parts ++ [here] else parts

/-- The place that a relative path starts from, for a path that begins with a slash
    or not. -/
def startOf (location : Location) (path : Bytes) : Location :=
  if path.head? = some slash then [] else location

/-- What a directory holds under a name. -/
def child? : Tree → Bytes → Option Tree
  | directory entries, name => entries.lookup name
  | _, _ => none

/-- What stands at a place. -/
def at? (tree : Tree) (location : Location) : Option Tree :=
  location.foldlM child? tree

/-- Follows names from a place. A link hands over the place it stands in and the names
    still to follow, those of its target in front. -/
def follow (tree : Tree) (redirect : Location → List Bytes → Except FileError Location) :
    Location → List Bytes → Except FileError Location
  | location, [] => .ok location
  | location, name :: rest =>
    match tree.at? location with
    | none => .error .notFound
    | some (.directory entries) =>
      if name = here then follow tree redirect location rest
      else if name = parent then follow tree redirect location.dropLast rest
      else if 255 < name.length then .error .nameTooLong
      else
        match entries.lookup name with
        | none => .error .notFound
        | some (.link target) => redirect (startOf location target) (names target ++ rest)
        | some _ => follow tree redirect (location ++ [name]) rest
    | some _ => .error .notDirectory

/-- Follows names through fewer than `bound` links. -/
def followWithin (tree : Tree) : Nat → Location → List Bytes → Except FileError Location
  | 0 => fun _ _ => .error .tooManyLinks
  | bound + 1 => follow tree (followWithin tree bound)

/-- The number of links that a path may go through. -/
def linkLimit : Nat := 40

/-- The number of bytes from which on a path is too long. -/
def pathLimit : Nat := 4096

/-- What a path leads to, from a working directory. -/
def resolve (tree : Tree) (directory : Location) (path : String) : Except FileError Tree := do
  let bytes := Utf8.encode path
  if 0 ∈ bytes then throw .nulInPath
  if bytes.isEmpty then throw .notFound
  if pathLimit ≤ bytes.length then throw .nameTooLong
  let location ← tree.followWithin (linkLimit + 1) (startOf directory bytes) (names bytes)
  match tree.at? location with
  | some found => return found
  | none => throw .notFound

mutual

/-- A tree as a walk sees it. -/
def toEntry : Tree → Entry
  | file _ => .file
  | link _ => .link
  | directory entries => .directory (toEntries entries)

/-- Entries as a walk sees them. -/
def toEntries : List (Bytes × Tree) → List (Bytes × Entry)
  | [] => []
  | (name, tree) :: rest => (name, toEntry tree) :: toEntries rest

end

/-- The file system of a tree, with paths relative to a working directory. -/
def fileSystem (tree : Tree) (directory : Location) : FileSystem where
  read path :=
    match tree.resolve directory path with
    | .ok (.file contents) => .ok contents
    | .ok _ => .error .isDirectory
    | .error error => .error error
  isDirectory path :=
    match tree.resolve directory path with
    | .ok (.directory _) => true
    | _ => false
  entries path :=
    match tree.resolve directory path with
    | .ok (.directory entries) => .ok (toEntries entries)
    | .ok _ => .ok []
    | .error error => .error error

/-- Puts a tree at a place, with the directories on the way. A directory that is
    already there stays as it is. -/
def put (leaf : Tree) : Location → Option Tree → Tree
  | [], some (directory entries) =>
    match leaf with
    | directory _ => directory entries
    | _ => leaf
  | [], _ => leaf
  | name :: rest, some (directory entries) =>
    let inner := put leaf rest (entries.lookup name)
    if (entries.lookup name).isSome then
      directory (entries.map fun entry => if entry.1 = name then (name, inner) else entry)
    else directory (entries ++ [(name, inner)])
  | name :: rest, _ => directory [(name, put leaf rest none)]

/-- The tree that holds the given trees at the given paths, put there in order. -/
def ofPaths (paths : List (Bytes × Tree)) : Tree :=
  paths.foldl (fun tree entry => put entry.2 (names entry.1) (some tree)) (directory [])

end Tree

end SelectorLint.Files
