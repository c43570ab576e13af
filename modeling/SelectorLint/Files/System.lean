import SelectorLint.Text.Utf8

/-!
# File systems as a run sees them

A run reads files, asks whether a path is a directory and lists what lies below a
directory. These answers are all that it depends on, so a file system is given by
them.
-/

namespace SelectorLint.Files

open Text

/-- Why a path could not be read. -/
inductive FileError where
  /-- There is nothing at the path. -/
  | notFound
  /-- Something on the way is not a directory. -/
  | notDirectory
  /-- A directory was to be read as a file. -/
  | isDirectory
  /-- A name, or the whole path, is too long. -/
  | nameTooLong
  /-- Following links does not come to an end. -/
  | tooManyLinks
  /-- The path holds the character NUL. -/
  | nulInPath
  /-- The contents are not text. -/
  | invalidText
  /-- Any other failure, in the words of the system. -/
  | other (text : String)
  deriving DecidableEq, Repr

/-- The text of a failure. -/
def FileError.message : FileError → String
  | notFound => "No such file or directory (os error 2)"
  | notDirectory => "Not a directory (os error 20)"
  | isDirectory => "Is a directory (os error 21)"
  | nameTooLong => "File name too long (os error 36)"
  | tooManyLinks => "Too many levels of symbolic links (os error 40)"
  | nulInPath => "file name contained an unexpected NUL byte"
  | invalidText => "stream did not contain valid UTF-8"
  | other text => text

/-- The failure of a number and a text that the system gives. -/
def FileError.ofCode (code : Nat) (text : String) : FileError :=
  match code with
  | 2 => notFound
  | 20 => notDirectory
  | 21 => isDirectory
  | 36 => nameTooLong
  | 40 => tooManyLinks
  | _ => other (text ++ " (os error " ++ code.repr ++ ")")

/-- What lies below a directory. Links are not followed. -/
inductive Entry where
  /-- A regular file. -/
  | file
  /-- A link, or anything else that is neither a file nor a directory. -/
  | link
  /-- A directory, with its entries by name in any order. -/
  | directory (entries : List (Bytes × Entry))
  /-- A directory whose entries cannot be read. -/
  | unreadable (cause : FileError)

/-- Why a walk ended early: a directory on its way whose entries could not be read. -/
structure WalkError where
  /-- The directory. -/
  path : String
  /-- Why it could not be read. -/
  cause : FileError
  deriving DecidableEq, Repr

/-- The text of the end of a walk. -/
def WalkError.message (error : WalkError) : String :=
  "IO error for operation on " ++ error.path ++ ": " ++ error.cause.message

/-- The answers of a file system. -/
structure FileSystem where
  /-- The contents of the file at a path. -/
  read : String → Except FileError Bytes
  /-- Whether a path leads to a directory. -/
  isDirectory : String → Bool
  /-- The entries of the directory that a path leads to, none if it leads to
      something else. -/
  entries : String → Except FileError (List (Bytes × Entry))

/-- A path below another: a slash joins them unless the first is empty or ends in
    one. A second path that begins at the top stands for itself. -/
def join (root path : String) : String :=
  if path.toList.head? = some '/' then path
  else if root.isEmpty ∨ root.toList.getLast? = some '/' then root ++ path
  else root ++ "/" ++ path

end SelectorLint.Files
