import SelectorLint.Text.ControlSequence

/-!
# Command-line options

Arguments are read from left to right. A value is taken in when the next option or the
end comes, so an argument that is unknown wins over a bad value just in front of it.
Help and version end the reading where they stand; options that exclude each other are
looked for at the end. A refusal shows what was given without control sequences.
-/

namespace SelectorLint.CommandLine

open Text

/-- The forms of a report. -/
inductive Format where
  /-- Lines for people. -/
  | text
  /-- An array for programs. -/
  | json
  deriving DecidableEq, Repr

/-- The form of a name. -/
def Format.ofName? (name : String) : Option Format :=
  if name = "text" then some .text else if name = "json" then some .json else none

/-- Options that take a value. -/
inductive Setting where
  /-- The configuration to use. -/
  | config
  /-- The form of the report. -/
  | format
  deriving DecidableEq, Repr

/-- How refusals write a setting. -/
def Setting.usage : Setting → String
  | config => "--config <FILE>"
  | format => "--format <FORMAT>"

/-- Options that take no value. -/
inductive Switch where
  /-- No colors. -/
  | noColor
  /-- Log more. -/
  | verbose
  /-- Log nothing. -/
  | quiet
  /-- Show help. -/
  | help
  /-- Show the version. -/
  | version
  deriving DecidableEq, Repr

/-- How refusals write a switch. -/
def Switch.usage : Switch → String
  | noColor => "--no-color"
  | verbose => "--verbose..."
  | quiet => "--quiet"
  | help => "--help"
  | version => "--version"

/-- An option. -/
inductive Flag where
  /-- One that takes a value. -/
  | setting (setting : Setting)
  /-- One that takes no value. -/
  | switch (switch : Switch)
  deriving DecidableEq, Repr

/-- The option of a name behind two dashes. -/
def Flag.ofLong? (name : String) : Option Flag :=
  [("config", setting .config), ("format", setting .format), ("no-color", switch .noColor),
   ("verbose", switch .verbose), ("quiet", switch .quiet), ("help", switch .help),
   ("version", switch .version)].lookup name

/-- The option of a letter behind one dash. -/
def Flag.ofShort? (letter : Char) : Option Flag :=
  [('c', setting .config), ('v', switch .verbose), ('q', switch .quiet), ('h', switch .help),
   ('V', switch .version)].lookup letter

/-- How refusals write the paths. -/
def pathsUsage : String := "[PATH]..."

/-- Why arguments are refused. -/
inductive Refusal where
  /-- An option that does not exist. -/
  | unexpectedArgument (argument : String)
  /-- A value for an option that takes none. -/
  | unexpectedValue (value : String) (usage : String)
  /-- No value, or an empty one. -/
  | missingValue (usage : String)
  /-- A form of report that does not exist. -/
  | invalidFormat (value : String)
  /-- An option that was given before. -/
  | repeated (usage : String)
  /-- Two options that exclude each other, in the order in which each was given last. -/
  | conflict (first second : String)
  deriving DecidableEq, Repr

/-- The text of a refusal. -/
def Refusal.message : Refusal → String
  | unexpectedArgument argument =>
    "unexpected argument '" ++ withoutControls argument ++ "' found"
  | unexpectedValue value usage =>
    "unexpected value '" ++ withoutControls value ++ "' for '" ++ usage
      ++ "' found; no more were expected"
  | missingValue usage => "a value is required for '" ++ usage ++ "' but none was supplied"
  | invalidFormat value =>
    "invalid value '" ++ withoutControls value ++ "' for '" ++ Setting.format.usage ++ "'"
  | repeated usage => "the argument '" ++ usage ++ "' cannot be used multiple times"
  | conflict first second =>
    "the argument '" ++ first ++ "' cannot be used with '" ++ second ++ "'"

/-- Why reading arguments ended without options for a run. -/
inductive Halt where
  /-- They are refused. -/
  | refused (refusal : Refusal)
  /-- Help was asked for, in its long or its short form. -/
  | help (long : Bool)
  /-- The version was asked for. -/
  | version
  deriving DecidableEq, Repr

/-- The options of a run. -/
structure Options where
  /-- The paths, in order. -/
  paths : List String := []
  /-- The configuration, if one was given. -/
  config : Option String := none
  /-- The form of the report, if one was given. -/
  format : Option Format := none
  /-- Whether colors were forbidden. -/
  noColor : Bool := false
  /-- How often more logging was asked for. -/
  verbose : Nat := 0
  /-- Whether no logging was asked for. -/
  quiet : Bool := false
  deriving DecidableEq, Repr

/-- What was read but not yet taken in. -/
inductive Pending where
  /-- Nothing. -/
  | nothing
  /-- A setting, with its value once that was read. -/
  | setting (setting : Setting) (value : Option String)
  /-- Paths, in order. -/
  | paths (paths : List String)
  deriving DecidableEq, Repr

/-- The state between two arguments. -/
structure Reading where
  /-- What was taken in. -/
  options : Options := {}
  /-- What was not yet taken in. -/
  pending : Pending := .nothing
  /-- Whether more logging was asked for after quiet was. -/
  verboseLast : Bool := false
  /-- Whether every further argument is a path. -/
  onlyPaths : Bool := false
  deriving DecidableEq, Repr

namespace Reading

/-- Ends the reading with a refusal. -/
def refuse (refusal : Refusal) : Except Halt α := .error (.refused refusal)

/-- Takes in the value of a setting. -/
def set (options : Options) (setting : Setting) (value : String) : Except Halt Options :=
  match setting with
  | .config =>
    if options.config.isSome then refuse (.repeated setting.usage)
    else if value.isEmpty then refuse (.missingValue setting.usage)
    else .ok { options with config := some value }
  | .format =>
    if options.format.isSome then refuse (.repeated setting.usage)
    else if value.isEmpty then refuse (.missingValue setting.usage)
    else
      match Format.ofName? value with
      | none => refuse (.invalidFormat value)
      | some format => .ok { options with format := some format }

/-- Takes in what is pending. -/
def settle (reading : Reading) : Except Halt Reading := do
  let options ← match reading.pending with
    | .nothing => pure reading.options
    | .setting setting none => refuse (.missingValue setting.usage)
    | .setting setting (some value) => set reading.options setting value
    | .paths paths =>
      if paths.any (·.isEmpty) then refuse (.missingValue pathsUsage)
      else pure { reading.options with paths := reading.options.paths ++ paths }
  return { reading with options, pending := .nothing }

/-- Takes in a switch. The form of help depends on how it was written. -/
def turn (reading : Reading) (switch : Switch) (long : Bool) : Except Halt Reading := do
  let reading ← reading.settle
  let options := reading.options
  match switch with
  | .noColor =>
    if options.noColor then refuse (.repeated switch.usage)
    return { reading with options := { options with noColor := true } }
  | .verbose =>
    return { reading with
      options := { options with verbose := options.verbose + 1 }, verboseLast := options.quiet }
  | .quiet =>
    if options.quiet then refuse (.repeated switch.usage)
    return { reading with options := { options with quiet := true } }
  | .help => .error (.help long)
  | .version => .error .version

/-- Takes in a setting, with its value if that was attached to it. -/
def begin (reading : Reading) (setting : Setting) (value : Option String) :
    Except Halt Reading := do
  let reading ← reading.settle
  let reading := { reading with pending := .setting setting value }
  if value.isSome then reading.settle else return reading

/-- Takes in an option written by its name, with the value behind an equals sign. -/
def readLong (reading : Reading) (name : String) (value : Option String) : Except Halt Reading :=
  match Flag.ofLong? name, value with
  | none, _ => refuse (.unexpectedArgument ("--" ++ name))
  | some (.setting setting), value => reading.begin setting value
  | some (.switch switch), none => reading.turn switch true
  | some (.switch switch), some value => refuse (.unexpectedValue value switch.usage)

/-- Takes in options written by their letters. What follows the letter of a setting is
    its value, with or without an equals sign. -/
def readShort (reading : Reading) : List Char → Except Halt Reading
  | [] => .ok reading
  | letter :: rest =>
    match Flag.ofShort? letter with
    | none => refuse (.unexpectedArgument (String.ofList ['-', letter]))
    | some (.switch switch) => do
      let reading ← reading.turn switch false
      readShort reading rest
    | some (.setting setting) =>
      match rest with
      | [] => reading.begin setting none
      | '=' :: value => reading.begin setting (some (String.ofList value))
      | value => reading.begin setting (some (String.ofList value))

/-- Takes in an argument that is no option: the value of the setting in front of it,
    or else a path. -/
def readPlain (reading : Reading) (argument : String) : Except Halt Reading := do
  match reading.pending, reading.onlyPaths with
  | .setting setting none, false =>
    return { reading with pending := .setting setting (some argument) }
  | .paths paths, _ => return { reading with pending := .paths (paths ++ [argument]) }
  | _, _ =>
    let reading ← reading.settle
    return { reading with pending := .paths [argument] }

/-- Takes in an argument. -/
def read (reading : Reading) (argument : String) : Except Halt Reading :=
  if reading.onlyPaths then reading.readPlain argument
  else
    match argument.toList with
    | ['-', '-'] => .ok { reading with onlyPaths := true }
    | '-' :: '-' :: rest =>
      let name := rest.takeWhile (· ≠ '=')
      let value := (rest.drop name.length).tail?.map String.ofList
      reading.readLong (String.ofList name) value
    | '-' :: letter :: rest => reading.readShort (letter :: rest)
    | _ => reading.readPlain argument

/-- The options, once every argument was taken in. -/
def finish (reading : Reading) : Except Halt Options := do
  let reading ← reading.settle
  if reading.options.quiet ∧ 0 < reading.options.verbose then
    refuse <| if reading.verboseLast then .conflict Switch.quiet.usage Switch.verbose.usage
      else .conflict Switch.verbose.usage Switch.quiet.usage
  return reading.options

end Reading

/-- The options that arguments give. -/
def Options.parse (arguments : List String) : Except Halt Options := do
  let reading ← arguments.foldlM Reading.read {}
  reading.finish

end SelectorLint.CommandLine
