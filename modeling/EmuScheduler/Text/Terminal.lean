import EmuScheduler.Text.Utf8

/-!
# Text on a terminal

Some characters steer a terminal instead of being shown, and an escape character begins a sequence
that does. `Terminal.plain` leaves out of a text whatever would steer, sequences included, and
`Terminal.visible` makes the steering characters of a line visible.

A sequence is followed with the states of a terminal (`Listening`): after the escape character
comes a single character, or a control sequence that a letter ends, or a string that a bell, an
escape character or the like ends.
-/

namespace EmuScheduler
namespace Terminal

/-- What a terminal takes the next character for. -/
inductive Listening where
  /-- Text. -/
  | text
  /-- What an escape character asks for. -/
  | escape
  /-- The end of a short sequence that has already been given a parameter. -/
  | escapeEnd
  /-- The first parameter of a control sequence. -/
  | control
  | controlParameters
  /-- The last marks of a control sequence. -/
  | controlMarks
  /-- The end of a control sequence that is malformed. -/
  | controlIgnored
  /-- The first parameter of a device string. -/
  | device
  | deviceParameters
  | deviceMarks
  /-- A string that only ends with another sequence. -/
  | string
  /-- A command to the system, which a bell may end. -/
  | command
  deriving DecidableEq, Repr

namespace Listening

/-- A character between two others. -/
def within (low high c : Char) : Bool :=
  low ≤ c && c ≤ high

/-- How an escape character's sequence goes on after one more character. -/
def afterEscape (c : Char) : Listening :=
  if within ' ' '/' c then .escapeEnd
  else if c = '[' then .control
  else if c = ']' then .command
  else if c = 'P' then .device
  else if c = 'X' ∨ c = '^' ∨ c = '_' then .string
  else if within '0' '~' c then .text
  else .escape

/-- How a control sequence goes on. -/
def afterControl (s : Listening) (c : Char) : Listening :=
  if within '@' '~' c then .text
  else if within ' ' '/' c then if s = .controlIgnored then s else .controlMarks
  else if within '0' '?' c then
    match s with
    | .control => .controlParameters
    | .controlParameters => if within '<' '?' c then .controlIgnored else s
    | _ => .controlIgnored
  else s

/-- How a device string goes on. -/
def afterDevice (s : Listening) (c : Char) : Listening :=
  if within '@' '~' c then .string
  else if within ' ' '/' c then .deviceMarks
  else if within '0' '?' c then
    match s with
    | .device => .deviceParameters
    | .deviceParameters => if within '<' '?' c then .string else s
    | _ => .string
  else s

/-- What follows after a character. An escape character begins a sequence anywhere, and two others
end one. In a string so does a character whose bytes hold the old code of its end. -/
def next (s : Listening) (c : Char) : Listening :=
  if c = '\x1b' then .escape
  else if c = '\x18' ∨ c = '\x1a' then .text
  else
    match s with
    | .text => .text
    | .escape => afterEscape c
    | .escapeEnd => if within '0' '~' c then .text else s
    | .control | .controlParameters | .controlMarks | .controlIgnored => afterControl s c
    | .device | .deviceParameters | .deviceMarks => afterDevice s c
    | .string => if (Utf8.encode [c]).contains 0x9C then .text else s
    | .command => if c = '\x07' then .text else s

/-- Whether a character breaks or advances the line, as it does even within a sequence. -/
def isLayout (c : Char) : Bool :=
  c = '\t' || c = '\n' || c = '\x0c' || c = '\r'

/-- Whether the character is shown. -/
def shows (s : Listening) (c : Char) : Bool :=
  match s with
  | .text => isLayout c || (' ' ≤ c && c ≠ '\x7f')
  | .escape | .escapeEnd | .control | .controlParameters | .controlMarks | .controlIgnored =>
    isLayout c
  | _ => false

end Listening

/-- What is shown of a text. After a shown character all that follows is taken for text, up to the
first character that is not shown; there an interrupted sequence goes on. -/
def shown (afterShown : Bool) (s : Listening) : List Char → List Char
  | [] => []
  | c :: rest =>
    if (if afterShown then .text else s : Listening).shows c then
      c :: shown true (if c.toNat < 0x80 then s else .text) rest
    else shown false (s.next c) rest

/-- A text without what would steer a terminal. -/
def plain (s : String) : String :=
  String.ofList (shown false .text s.toList)

/-- A character as a line shows it: one that could begin or take part in a sequence is named by its
number. -/
def name (c : Char) : List Char :=
  let digits := Nat.toDigits 16 c.toNat
  if c = '\x07' ∨ c = '\x08' ∨ c = '\x0c' ∨ c = '\x1b' ∨ c = '\x7f' then
    '\\' :: 'x' :: (if digits.length = 1 then '0' :: digits else digits)
  else if 0x80 ≤ c.toNat ∧ c.toNat ≤ 0x9F then ['\\', 'u', '\x7b'] ++ digits ++ ['\x7d']
  else [c]

/-- A text with the names of characters that would steer a terminal. -/
def visible (s : String) : String :=
  String.ofList (s.toList.flatMap name)

end Terminal
end EmuScheduler
