import SelectorLint.Text.Quoted
import SelectorLint.Toml.Document

/-!
# Configuration

A configuration lists the paths that a project run leaves out, under the name
`ignore` or `Ignore`. Every other name is refused, and so is a list that is not made
of strings. A refusal points at the place in the text that it is about.

A text that is no TOML document at all is refused too. The words for that, with their
position and reason, are those of the TOML parser that a program uses. They are not made
up here: the complaint about each text is a parameter of everything that shows a refusal.
-/

namespace SelectorLint

open Text Toml

/-- The settings of a project run. -/
structure Config where
  /-- Paths that are left out, relative to the root of the project. -/
  ignore : List String := []
  deriving DecidableEq, Repr

namespace Config

/-- Why a document is no configuration. -/
inductive Misfit where
  /-- A name that means nothing. -/
  | unknownField (name : List Char)
  /-- Both spellings of the one name. -/
  | duplicateField
  /-- The list is not an array. -/
  | notSequence (found : String)
  /-- An item of the list is not a string. -/
  | notString (found : String)
  deriving DecidableEq, Repr

/-- The text of a misfit. -/
def Misfit.text : Misfit → String
  | unknownField name =>
    "unknown field `" ++ String.ofList name ++ "`, expected `Ignore` or `ignore`"
  | duplicateField => "duplicate field `ignore`"
  | notSequence found => "invalid type: " ++ found ++ ", expected a sequence"
  | notString found => "invalid type: " ++ found ++ ", expected a string"

/-- Why a text is no configuration. -/
inductive Fault where
  /-- It is not a document. -/
  | malformed
  /-- It is a document that does not fit, at a place. -/
  | misfit (reason : Misfit) (extent : Extent)
  deriving DecidableEq, Repr

/-- What an item is, in the words of a misfit. -/
def describe : Item → String
  | .string _ value => "string " ++ Quoted.encode value
  | .integer _ value => "integer `" ++ value.repr ++ "`"
  | .float _ value => "floating point `" ++ String.ofList value.render ++ "`"
  | .boolean _ value => "boolean `" ++ (if value then "true" else "false") ++ "`"
  | .array _ _ | .tables _ => "sequence"
  | .moment _ | .table _ _ _ => "map"

/-- The string that an item of the list is. The place of a misfit is the item, or the
    list where the item has no place of its own. -/
def entry (list : Extent) : Item → Except Fault String
  | .string _ value => .ok (String.ofList value)
  | item => .error (.misfit (.notString (describe item)) (item.extent?.getD list))

/-- The strings of the list. -/
def list (key : Key) (item : Item) : Except Fault (List String) :=
  let extent := item.extent?.getD key.extent
  match item with
  | .array _ items | .tables items => items.mapM (entry extent)
  | item => .error (.misfit (.notSequence (describe item)) extent)

/-- Takes in one entry of a document. The list is absent until its name has come. A
    second list is reported at the place of the document itself. -/
def field (document : Extent) (ignore : Option (List String)) (entry : Key × Item) :
    Except Fault (Option (List String)) :=
  if entry.1.name = "ignore".toList ∨ entry.1.name = "Ignore".toList then
    if ignore.isSome then .error (.misfit .duplicateField document)
    else some <$> list entry.1 entry.2
  else .error (.misfit (.unknownField entry.1.name) entry.1.extent)

/-- The configuration that a document gives. The first misfit in the order of its
    entries is the one reported. -/
def ofDocument (document : Document) : Except Fault Config := do
  let ignore ← document.entries.foldlM (field document.extent) none
  return { ignore := ignore.getD [] }

/-- The configuration that a text gives. -/
def ofText (text : List Char) : Except Fault Config :=
  match Toml.read? text with
  | none => .error .malformed
  | some document => ofDocument document

/-- Whether a path is listed, letter for letter. -/
def lists (config : Config) (path : String) : Bool := config.ignore.any (· == path)

/-! ## Refusals -/

/-- The place of a refusal in its text. -/
structure Excerpt where
  /-- The line, counted from 1. -/
  line : Nat
  /-- The characters in front of the place on its line. -/
  before : Nat
  /-- The text of the line. -/
  content : List Char
  /-- The marks under the place: one for each byte, as far as the line goes, and
      at least one. -/
  marks : Nat
  deriving DecidableEq, Repr

/-- The place of an extent in a text. -/
def Excerpt.ofExtent (text : List Char) (extent : Extent) : Excerpt :=
  let parts := (splitAtByte? extent.first text).getD ([], text)
  let start := (parts.1.reverse.takeWhile (· ≠ '\n')).reverse
  let content := start ++ parts.2.takeWhile (· ≠ '\n')
  { line := parts.1.count '\n' + 1
    before := start.length
    content
    marks := max 1 (min (extent.stop - extent.first) (byteLength content - start.length)) }

/-- A refusal shown under the line that it is about. -/
def Excerpt.render (excerpt : Excerpt) (reason : String) : String :=
  let gutter := String.ofList (List.replicate (Nat.toDigits 10 excerpt.line).length ' ') ++ " |"
  "TOML parse error at line " ++ excerpt.line.repr ++ ", column " ++ (excerpt.before + 1).repr
    ++ "\n" ++ gutter ++ "\n"
    ++ excerpt.line.repr ++ " | " ++ String.ofList excerpt.content ++ "\n"
    ++ gutter ++ " " ++ String.ofList (List.replicate excerpt.before ' ')
    ++ String.ofList (List.replicate excerpt.marks '^') ++ "\n"
    ++ reason ++ "\n"

/-- The text of a fault of a text, with the complaint about a text that is no
    document. -/
def Fault.message (complaint : List Char → String) (text : List Char) : Fault → String
  | malformed => complaint text
  | misfit reason extent => (Excerpt.ofExtent text extent).render reason.text

end Config

end SelectorLint
