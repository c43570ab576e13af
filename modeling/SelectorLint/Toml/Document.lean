import SelectorLint.Toml.Scalar

/-!
# Documents

A document is a sequence of lines: pairs, and headers that open the table for the
pairs below them. Reading gives the lines; building puts their pairs into tables. A
text that is no document, or that gives a name twice, has no tables.
-/

namespace SelectorLint.Toml

/-- The greatest number of names in a key, and of arrays and tables around a value. -/
def depthLimit : Nat := 79

/-! ## Keys -/

/-- A character of a key without quotes. -/
def isBareChar (c : Char) : Bool := c.isAlphanum || c == '-' || c == '_'

/-- Reads one name. -/
def simpleKey : Reader Key := do
  let (name, extent) ← Reader.withExtent <|
    basicString <|> literalString <|> Reader.takeWhile1 isBareChar
  pure ⟨name, extent⟩

/-- Reads names with dots between them, and the blanks around them. The last name
    comes apart from the path in front of it. -/
def key : Reader (List Key × Key) := do
  let name : Reader Key := do
    white
    Reader.followedBy simpleKey white
  let first ← name
  let rest ← Reader.many do
    Reader.char '.'
    name
  let names := first :: rest
  if names.length ≤ depthLimit then pure (names.dropLast, names.getLastD first) else failure

/-! ## Values -/

/-- Reads a truth value. -/
def boolean : Reader Bool :=
  (do Reader.literal "true".toList; pure true)
    <|> (do Reader.literal "false".toList; pure false)

/-- Reads a value that is a single token. -/
def scalar : Reader Item :=
  (do
    let (value, extent) ← Reader.withExtent string
    pure (.string extent value))
  <|> (do
    let (_, extent) ← Reader.withExtent moment
    pure (.moment extent))
  <|> (do
    let (value, extent) ← Reader.withExtent float
    pure (.float extent value))
  <|> (do
    let (value, extent) ← Reader.withExtent integer
    pure (.integer extent value))
  <|> (do
    let (value, extent) ← Reader.withExtent boolean
    pure (.boolean extent value))

/-- Reads the values of an array. A comma may follow the last. -/
def arrayItems (value : Reader Item) : Reader (List Item) := do
  Reader.char '['
  filler
  let items ← match ← Reader.optional value with
    | none => pure []
    | some first =>
      let rest ← Reader.many do
        filler
        Reader.char ','
        filler
        value
      filler
      let _ ← Reader.optional (Reader.char ',')
      pure (first :: rest)
  filler
  Reader.char ']'
  pure items

/-- Reads a pair: a key, the equals sign and a value. -/
def pair (value : Reader Item) : Reader ((List Key × Key) × Item) := do
  let key ← key
  Reader.char '='
  white
  return (key, ← value)

/-- Reads the entries of a table between braces, all on one line. -/
def inlineEntries (value : Reader Item) : Reader Entries := do
  Reader.char '{'
  white
  let pairs ← match ← Reader.optional (pair value) with
    | none => pure []
    | some first =>
      let rest ← Reader.many do
        white
        Reader.char ','
        pair value
      pure (first :: rest)
  white
  Reader.char '}'
  let add (entries : Entries) (pair : (List Key × Key) × Item) : Option Entries :=
    entries.addPair? .inline pair.1.1 pair.1.2 pair.2
  StateT.lift (pairs.foldlM add [])

/-- Reads a value with at most `depth` arrays and tables around each of its parts. -/
def value : Nat → Reader Item
  | 0 => scalar
  | depth + 1 =>
    scalar
      <|> (do
        let (items, extent) ← Reader.withExtent (arrayItems (value depth))
        pure (.array extent items))
      <|> (do
        let (entries, extent) ← Reader.withExtent (inlineEntries (value depth))
        pure (.table .inline (some extent) entries))

/-! ## Lines -/

/-- A line of a document that is not empty. -/
inductive Line where
  /-- A pair. -/
  | pair (path : List Key) (key : Key) (item : Item)
  /-- A header that opens a table. -/
  | header (path : List Key) (key : Key) (extent : Extent)
  /-- A header that opens one more table of a name. -/
  | arrayHeader (path : List Key) (key : Key) (extent : Extent)

/-- Reads a header between given brackets. -/
def headerBetween (opening closing : List Char) : Reader ((List Key × Key) × Extent) :=
  Reader.withExtent do
    Reader.literal opening
    Reader.followedBy key (Reader.literal closing)

/-- Reads what stands on a line, if it is not empty. -/
def lineBody : Reader (Option Line) := do
  match ← Reader.peek? with
  | some '#' =>
    Reader.followedBy (pure none) lineEnd
  | some '\n' | some '\r' =>
    Reader.followedBy (pure none) newline
  | some '[' =>
    let line ← (do
        let ((path, key), extent) ← headerBetween ['[', '['] [']', ']']
        pure (Line.arrayHeader path key extent))
      <|> (do
        let ((path, key), extent) ← headerBetween ['['] [']']
        pure (Line.header path key extent))
    Reader.followedBy (pure (some line)) lineEnd
  | _ =>
    let ((path, key), item) ← pair (value depthLimit)
    Reader.followedBy (pure (some (.pair path key item))) lineEnd

/-- Reads the lines of a whole document. A byte order mark may stand in front. -/
def lines : Reader (List Line) := do
  let _ ← Reader.optional (Reader.char '\uFEFF')
  let lines ← Reader.many do
    white
    lineBody
  white
  Reader.atEnd
  pure (lines.filterMap id)

/-! ## Tables -/

/-- A table under construction: the tables that are complete, and the one that takes
    the pairs of the lines to come. -/
structure Builder where
  /-- The complete part of the document. -/
  root : Entries := []
  /-- The name of the open table and the path in front of it; nothing for the
      document itself. -/
  name? : Option (List Key × Key) := none
  /-- Whether the open table is one of several with its name. -/
  several : Bool := false
  /-- From the header to the last value of the open table. -/
  extent : Extent := ⟨0, 0⟩
  /-- The entries of the open table. -/
  entries : Entries := []

namespace Builder

/-- Puts the open table into its place. -/
def close? (builder : Builder) : Option Entries := do
  match builder.name? with
  | none => return builder.entries
  | some (path, key) =>
    let table : Item := .table .header (some builder.extent) builder.entries
    let put (_ : Origin) (entries : Entries) : Option (Entries × Unit) :=
      match builder.several, entries.find? key.name with
      | true, none => some (entries ++ [(key, .tables [table])], ())
      | true, some (.tables items) =>
        some (entries.replace key.name (.tables (items ++ [table])), ())
      | false, none => some (entries ++ [(key, table)], ())
      | _, some _ => none
    let (root, _) ← Entries.modify? .byHeader put path .header builder.root
    return root

/-- Opens a table. One that was only named on the way to another keeps its entries
    and moves behind the tables opened before. -/
def openTable? (root : Entries) (path : List Key) (key : Key) (extent : Extent) :
    Option Builder := do
  let take (_ : Origin) (entries : Entries) : Option (Entries × Entries) :=
    match entries.find? key.name with
    | none => some (entries, [])
    | some (.table .onTheWay _ inner) => some (entries.erase key.name, inner)
    | some _ => none
  let (root, entries) ← Entries.modify? .byHeader take path .header root
  return { root, name? := some (path, key), extent, entries }

/-- Opens one more table of a name. -/
def openTables? (root : Entries) (path : List Key) (key : Key) (extent : Extent) :
    Option Builder := do
  let allow (_ : Origin) (entries : Entries) : Option (Entries × Unit) :=
    match entries.find? key.name with
    | none | some (.tables _) => some (entries, ())
    | some _ => none
  let (root, _) ← Entries.modify? .byHeader allow path .header root
  return { root, name? := some (path, key), several := true, extent }

/-- Takes in one line. -/
def add? (builder : Builder) : Line → Option Builder
  | .pair path key item => do
    let entries ← builder.entries.addPair? .header path key item
    let stop := (item.extent?.map (·.stop)).getD builder.extent.stop
    return { builder with entries, extent := ⟨builder.extent.first, stop⟩ }
  | .header path key extent => do openTable? (← builder.close?) path key extent
  | .arrayHeader path key extent => do openTables? (← builder.close?) path key extent

end Builder

/-- What a text gives: named items, and the stretch of its own pairs. -/
structure Document where
  /-- The items, in the order in which they were added. -/
  entries : Entries := []
  /-- From the start of the text to the end of the last value in front of every
      header. -/
  extent : Extent := ⟨0, 0⟩

/-- The end of the value of a line, if the line is a pair. -/
def Line.stop? : Line → Option Nat
  | pair _ _ item => item.extent?.map (·.stop)
  | header _ _ _ | arrayHeader _ _ _ => none

/-- From the start of the text to the end of the last value in front of every header. -/
def ownExtent (lines : List Line) : Extent :=
  ⟨0, ((lines.map Line.stop?).takeWhile (·.isSome)).getLast?.join.getD 0⟩

/-- The document that a text gives, or nothing for a text that is none. -/
def read? (text : List Char) : Option Document := do
  let (lines, _) ← lines.run { rest := text }
  let builder ← lines.foldlM Builder.add? {}
  return { entries := ← builder.close?, extent := ownExtent lines }

end SelectorLint.Toml
