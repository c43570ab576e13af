import SelectorLint.Decimal.Binary64
import SelectorLint.Toml.Reader

/-!
# Items of a configuration document

A document is a table of named items. A table can come about in four ways, which
decide what may still be added to it: written out between braces it is closed; opened
by a header it takes the pairs below the header; named on the way to another table it
may be opened by one header of its own; made by a dotted key it takes further dotted
keys only. A name is given once.
-/

namespace SelectorLint.Toml

open Decimal

/-- How a table came about. -/
inductive Origin where
  /-- Written between braces. -/
  | inline
  /-- Opened by a header, or the document itself. -/
  | header
  /-- Named on the way to another table. -/
  | onTheWay
  /-- Made by a dotted key. -/
  | dotted
  deriving DecidableEq, Repr

/-- A name, and where it was first written. -/
structure Key where
  /-- The name, without its quotes. -/
  name : List Char
  /-- Where it stands, with its quotes. -/
  extent : Extent
  deriving DecidableEq, Repr

/-- A value of a document, with the stretch it was written in. -/
inductive Item where
  /-- A string. -/
  | string (extent : Extent) (value : List Char)
  /-- A whole number. -/
  | integer (extent : Extent) (value : Int)
  /-- A floating-point number. -/
  | float (extent : Extent) (value : Binary64)
  /-- A truth value. -/
  | boolean (extent : Extent) (value : Bool)
  /-- A date, a time, or both. -/
  | moment (extent : Extent)
  /-- Values between square brackets. -/
  | array (extent : Extent) (items : List Item)
  /-- Named values. A table that no token of its own stands for has no extent. -/
  | table (origin : Origin) (extent : Option Extent) (entries : List (Key × Item))
  /-- Tables opened by headers of one name. -/
  | tables (items : List Item)

/-- Named items, in the order in which they were added. -/
abbrev Entries := List (Key × Item)

/-- The stretch that an item was written in, if it has one. -/
def Item.extent? : Item → Option Extent
  | string extent _ | integer extent _ | float extent _ | boolean extent _ | moment extent
  | array extent _ => some extent
  | table _ extent _ => extent
  | tables _ => none

namespace Entries

/-- The item of a name. -/
def find? (entries : Entries) (name : List Char) : Option Item :=
  (List.find? (fun entry => entry.1.name == name) entries).map (·.2)

/-- The entries without a name. -/
def erase (entries : Entries) (name : List Char) : Entries :=
  entries.filter fun entry => entry.1.name != name

/-- The entries with another item for a name that they hold. -/
def replace (entries : Entries) (name : List Char) (item : Item) : Entries :=
  entries.map fun entry => if entry.1.name == name then (entry.1, item) else entry

/-- Whether the tables on a path come from a header or from a dotted key. -/
inductive Descent where
  /-- The path is part of a header. -/
  | byHeader
  /-- The path is the front of a dotted key. -/
  | byDottedKey
  deriving DecidableEq, Repr

/-- How a table comes about that a path names first. -/
def Descent.origin : Descent → Origin
  | byHeader => .onTheWay
  | byDottedKey => .dotted

/-- Whether a path may go through a table: a dotted key may not go through a table
    that a header opened, and no path goes through one written between braces. -/
def Descent.enters (descent : Descent) : Origin → Bool
  | .inline => false
  | .header => descent = .byHeader
  | .onTheWay | .dotted => true

/-- Changes the table at the end of a path, making the tables on the way that are not
    there yet. Of tables with one name the path goes through the last. There is no
    answer when the path meets anything else, or when the change is refused. -/
def modify? (descent : Descent) (change : Origin → Entries → Option (Entries × α)) :
    List Key → Origin → Entries → Option (Entries × α)
  | [], origin, entries => change origin entries
  | key :: path, _, entries =>
    match entries.find? key.name with
    | none => do
      let (inner, result) ← modify? descent change path descent.origin []
      return (entries ++ [(key, .table descent.origin none inner)], result)
    | some (.table origin extent inner) => do
      guard (descent.enters origin)
      let (inner, result) ← modify? descent change path origin inner
      return (entries.replace key.name (.table origin extent inner), result)
    | some (.tables items) =>
      match items.getLast? with
      | some (.table origin extent inner) => do
        let (inner, result) ← modify? descent change path origin inner
        let items := items.dropLast ++ [.table origin extent inner]
        return (entries.replace key.name (.tables items), result)
      | _ => none
    | some _ => none

/-- Adds a pair whose key has a path in front of its last name. The path must lead to
    a table made by dotted keys, and the name must be new. -/
def addPair? (entries : Entries) (origin : Origin) (path : List Key) (key : Key) (item : Item) :
    Option Entries := do
  let add (origin : Origin) (entries : Entries) : Option (Entries × Unit) := do
    guard (decide (origin = .dotted) == !path.isEmpty)
    guard (entries.find? key.name).isNone
    return (entries ++ [(key, item)], ())
  let (entries, _) ← modify? .byDottedKey add path origin entries
  return entries

end Entries

end SelectorLint.Toml
