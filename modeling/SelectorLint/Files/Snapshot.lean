import SelectorLint.Files.Tree

/-!
# File systems from recorded answers

The program asks the system once for every path that a run may look at and keeps the
answers. The run then sees a file system that has these answers and no other.
-/

namespace SelectorLint.Files

open Text

/-- What the system answered when a path was read. A directory answers that it is
    one. -/
structure Snapshot where
  /-- Each path with its answer. -/
  answers : List (String × Except FileError Bytes) := []

namespace Snapshot

/-- The answer for a path. -/
def answer (snapshot : Snapshot) (path : String) : Except FileError Bytes :=
  (snapshot.answers.lookup path).getD (.error .notFound)

/-- Whether an answer is that of a directory. -/
def saysDirectory : Except FileError Bytes → Bool
  | .error .isDirectory => true
  | _ => false

/-- The recorded path below a root, without the root, and what stands there. -/
def below? (root : String) (entry : String × Except FileError Bytes) : Option (Bytes × Tree) :=
  let front := Utf8.encode (join root "")
  let path := Utf8.encode entry.1
  if front.isPrefixOf path && front.length < path.length then
    let tree := match entry.2 with
      | .ok contents => Tree.file contents
      | .error error => if error = .isDirectory then .directory [] else .link []
    some (path.drop front.length, tree)
  else none

/-- The file system with the recorded answers. -/
def fileSystem (snapshot : Snapshot) : FileSystem where
  read := snapshot.answer
  isDirectory path := saysDirectory (snapshot.answer path)
  entries root :=
    match snapshot.answer root with
    | .ok _ => .ok []
    | .error .isDirectory =>
      match Tree.ofPaths (snapshot.answers.filterMap (below? root)) with
      | .directory entries => .ok (Tree.toEntries entries)
      | _ => .ok []
    | .error error => .error error

end Snapshot

end SelectorLint.Files
