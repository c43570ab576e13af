import SelectorLint.Text.Utf8

/-!
# Text without terminal control sequences

A stream that is no terminal shows text without the control functions in it. Outside a
sequence, controls are left out except the blanks among them. An escape character begins
a sequence: a short one ends with its first letter, a control sequence with the first
character of the last rows of ASCII, a device control string or an application string
with the string terminator, and an operating system command with the bell. Whatever is
not ended runs to the end of the text.

A blank within a short sequence or a control sequence is shown, and what follows it is
shown as well, until a control makes the sequence go on.
-/

namespace SelectorLint.Text

/-- How far a control function has been read. -/
inductive Sequence where
  /-- None has begun. -/
  | idle
  /-- The escape character was read. -/
  | escape
  /-- A short sequence that only its last character can end. -/
  | intermediate
  /-- A control sequence. -/
  | control
  /-- A device control string of which nothing was read. -/
  | device
  /-- The parameters of a device control string. -/
  | deviceParameters
  /-- What stands between the parameters and the text of a device control string. -/
  | deviceIntermediate
  /-- The text of a device control string, or an application string. -/
  | string
  /-- An operating system command. -/
  | command
  deriving DecidableEq, Repr

namespace Sequence

/-- The escape character, which begins a sequence from anywhere. -/
def opener : Char := '\x1b'

/-- Whether a character cancels any sequence. -/
def cancels (c : Char) : Bool := c == '\x18' || c == '\x1a'

/-- Whether a character is a control that is also a blank. -/
def isBlankControl (c : Char) : Bool := c == '\t' || c == '\n' || c == '\x0c' || c == '\r'

/-- Whether a character is shown outside sequences. -/
def isShown (c : Char) : Bool := isBlankControl c || (' ' ≤ c && c != '\x7f')

/-- Whether one of the bytes of a character is the string terminator. -/
def terminates (c : Char) : Bool := (Utf8.encode (String.singleton c)).contains 0x9C

/-- Whether a blank within the sequence is shown. -/
def showsBlanks : Sequence → Bool
  | escape | intermediate | control => true
  | _ => false

/-- The sequence after one more character that neither opens nor cancels one. -/
def next : Sequence → Char → Sequence
  | idle, _ => idle
  | escape, c =>
    if c = '[' then control
    else if c = ']' then command
    else if c = 'P' then device
    else if c = 'X' ∨ c = '^' ∨ c = '_' then string
    else if ' ' ≤ c ∧ c ≤ '/' then intermediate
    else if '0' ≤ c ∧ c ≤ '~' then idle
    else escape
  | intermediate, c => if '0' ≤ c ∧ c ≤ '~' then idle else intermediate
  | control, c => if '@' ≤ c ∧ c ≤ '~' then idle else control
  | device, c =>
    if '@' ≤ c ∧ c ≤ '~' then string
    else if ' ' ≤ c ∧ c ≤ '/' then deviceIntermediate
    else if '0' ≤ c ∧ c ≤ '?' then deviceParameters
    else device
  | deviceParameters, c =>
    if '<' ≤ c ∧ c ≤ '~' then string
    else if ' ' ≤ c ∧ c ≤ '/' then deviceIntermediate
    else deviceParameters
  | deviceIntermediate, c => if '0' ≤ c ∧ c ≤ '~' then string else deviceIntermediate
  | string, c => if terminates c then idle else string
  | command, c => if c = '\x07' then idle else command

end Sequence

/-- The state between two characters of a shown text. -/
structure Showing where
  /-- The sequence being read. -/
  sequence : Sequence := .idle
  /-- Whether a blank within the sequence has interrupted it. -/
  interrupted : Bool := false
  deriving DecidableEq, Repr

namespace Showing

/-- Reads a character outside sequences or after an interruption. -/
def readOpen (showing : Showing) (c : Char) : Showing × Bool :=
  if Sequence.isShown c then (if c ≤ '\x7f' then showing else {}, true)
  else if c = Sequence.opener then ({ sequence := .escape }, false)
  else if Sequence.cancels c then ({}, false)
  else ({ showing with interrupted := false }, false)

/-- Reads a character within a sequence. -/
def readWithin (showing : Showing) (c : Char) : Showing × Bool :=
  if c = Sequence.opener then ({ sequence := .escape }, false)
  else if Sequence.cancels c then ({}, false)
  else if showing.sequence.showsBlanks && Sequence.isBlankControl c then
    ({ showing with interrupted := true }, true)
  else ({ sequence := showing.sequence.next c }, false)

/-- Reads a character; the answer says whether it is shown. -/
def read (showing : Showing) (c : Char) : Showing × Bool :=
  if showing.sequence = .idle ∨ showing.interrupted then showing.readOpen c
  else showing.readWithin c

end Showing

/-- The characters of the rest of a text that are shown. -/
def shownFrom (showing : Showing) : List Char → List Char
  | [] => []
  | c :: rest =>
    let reading := showing.read c
    let shown := shownFrom reading.1 rest
    if reading.2 then c :: shown else shown

/-- A text without its control sequences and the controls that are no blanks. -/
def withoutControls (text : String) : String := String.ofList (shownFrom {} text.toList)

end SelectorLint.Text
