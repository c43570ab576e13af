import SelectorLint.CommandLine
import SelectorLint.Files.Snapshot

/-!
# The command

Reads what a run may look at, runs the program on it and writes the outcome. The paths
below the root of a project are read from the input, one on each line, as a listing of
the root prints them; an input that is a terminal lists none. About a configuration that
is no document the command has only its own words.
-/

namespace SelectorLint.CommandLine

open Files

/-- The failure that the system reports. Its number may come with the sign turned. -/
def fileError : IO.Error → FileError
  | .noFileOrDirectory _ code text | .interrupted _ code text
  | .alreadyExists _ code text | .invalidArgument _ code text
  | .permissionDenied _ code text | .resourceExhausted _ code text
  | .inappropriateType _ code text | .noSuchThing _ code text
  | .otherError code text | .resourceBusy code text | .resourceVanished code text
  | .unsupportedOperation code text | .hardwareFault code text
  | .unsatisfiedConstraints code text | .illegalOperation code text
  | .protocolError code text | .timeExpired code text =>
    FileError.ofCode (min code.toNat (0 - code).toNat) text
  | .unexpectedEof => .other "unexpected end of file"
  | .userError text => .other text

/-- The answer of the system for a path. -/
def ask (path : String) : IO (String × Except FileError Text.Bytes) := do
  if path.toList.contains '\x00' then return (path, .error .nulInPath)
  try
    let contents ← IO.FS.readBinFile path
    return (path, .ok contents.data.toList)
  catch error => return (path, .error (fileError error))

/-- The lines of the input, none if it is a terminal. -/
partial def inputLines (input : IO.FS.Stream) : IO (List String) := do
  if ← input.isTty then return []
  let line ← input.getLine
  if line.isEmpty then return []
  let text := if line.endsWith "\n" then (line.dropEnd 1).toString else line
  return text :: (← inputLines input)

/-- What the system answers about the paths of a run. -/
def snapshot (arguments : List String) : IO Snapshot := do
  match Options.parse arguments with
  | .error _ => return {}
  | .ok options =>
    let listed ← inputLines (← IO.getStdin)
    return { answers := ← (consulted options ++ listed).mapM ask }

/-- The command's own words about a text that is no document, the same for every text:
    reading does not tell where it stopped. -/
def ownComplaint (_ : List Char) : String := "not a TOML document\n"

end SelectorLint.CommandLine

open SelectorLint CommandLine in
/-- The command. -/
def main (arguments : List String) : IO UInt32 := do
  let files := (← snapshot arguments).fileSystem
  let terminal ← (← IO.getStderr).isTty
  match execute ownComplaint files terminal arguments with
  | .ok outcome =>
    IO.print outcome.stdout
    IO.eprint outcome.stderr
    return outcome.code.toUInt32
  | .error refusal =>
    IO.eprint (refusalText refusal)
    return 2
