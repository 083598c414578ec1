import EmuScheduler.Text.Classes
import EmuScheduler.Text.Hexadecimal

/-!
# Elements of a pattern

A `Pattern.Element` is what stands for itself in a pattern: a character, an edge of the text or of
a word, or a shorthand for a class of characters. `Pattern.escape?` reads those that a backslash
begins. A pattern is read under switches, which its own groups turn on and off; under the switch
`spaced` the white space and the comments between its parts are passed over (`Pattern.blanks`).
-/

namespace EmuScheduler
namespace Pattern

/-- What a group of a pattern may turn on or off. -/
inductive Switch where
  /-- Letters match in either case. -/
  | caseless
  /-- The text has many lines, each with a start and an end. -/
  | manyLines
  /-- A dot matches the end of a line. -/
  | dotAll
  /-- Repetitions are as short as they can be. -/
  | short
  /-- The text is characters, not bytes. -/
  | unicode
  /-- A line may end in two characters. -/
  | longLineEnds
  /-- White space and comments are passed over. -/
  | spaced
  deriving DecidableEq, Repr

/-- The switch of that letter. -/
def Switch.ofLetter? : Char → Option Switch
  | 'i' => some .caseless
  | 'm' => some .manyLines
  | 's' => some .dotAll
  | 'U' => some .short
  | 'u' => some .unicode
  | 'R' => some .longLineEnds
  | 'x' => some .spaced
  | _ => none

/-- Switches that are turned on or off. -/
abbrev Settings := List (Switch × Bool)

/-- The switches that are on. -/
abbrev Switches := List Switch

namespace Switches

/-- The switches that are on when a pattern begins. -/
def initial : Switches := [.unicode]

/-- The switches after some are turned on or off. -/
def set (on : Switches) (settings : Settings) : Switches :=
  settings.foldl (fun on s => if s.2 then s.1 :: on else on.filter (· ≠ s.1)) on

end Switches

/-- The settings that the head of a group lists, and the rest from the mark that ends them. Those
before a hyphen are turned on, those after it off; none is listed twice. -/
def settings? (value : Bool) (before : Settings) : List Char → Option (Settings × List Char)
  | [] => none
  | ':' :: rest => some (before.reverse, ':' :: rest)
  | ')' :: rest => some (before.reverse, ')' :: rest)
  | '-' :: rest =>
    if value && rest.head? ≠ some ':' && rest.head? ≠ some ')' then settings? false before rest
    else none
  | c :: rest =>
    match Switch.ofLetter? c with
    | some s =>
      if before.any (·.1 = s) then none else settings? value ((s, value) :: before) rest
    | none => none

/-- The rest after white space and comments. A comment ends with its line. -/
def skipBlanks (inComment : Bool) : List Char → List Char
  | [] => []
  | c :: rest =>
    if inComment then skipBlanks (c ≠ '\n') rest
    else if c = '#' then skipBlanks true rest
    else if isWhiteSpace c then skipBlanks false rest
    else c :: rest

/-- The rest after what is passed over. -/
def blanks (on : Switches) (cs : List Char) : List Char :=
  if on.contains .spaced then skipBlanks false cs else cs

/-- What stands for itself in a pattern. -/
inductive Element where
  /-- A character, and whether it is given as one byte. -/
  | character (c : Char) (isByte : Bool)
  /-- The start or the end of the text or of a line. -/
  | textEdge
  /-- The start or the end of a word, or neither. -/
  | wordEdge
  /-- The digits, the white space or the characters of words, or all but those. -/
  | shorthand (negated : Bool)
  deriving DecidableEq, Repr

/-- Whether an element may stand under these switches. The classes and the edges of words are known
for bytes only, and so are the two cases of a letter. A byte must be a character by itself. -/
def Element.isAllowed (on : Switches) : Element → Bool
  | .character c isByte =>
    if on.contains .unicode then !on.contains .caseless else !isByte || c.toNat < 0x80
  | .textEdge => true
  | .wordEdge => !on.contains .unicode
  | .shorthand negated => !on.contains .unicode && !negated

/-- The number that so many hexadecimal digits write, when it was `n` before them. -/
def number? (on : Switches) : Nat → Nat → List Char → Option (Nat × List Char)
  | 0, n, cs => some (n, cs)
  | digits + 1, n, cs =>
    match blanks on cs with
    | [] => none
    | c :: rest => (hexDigit? c).bind fun d => number? on digits (n * 16 + d) rest

/-- The character of the number that so many digits write. -/
def numbered? (on : Switches) (digits : Nat) (cs : List Char) : Option (Element × List Char) :=
  (number? on digits 0 cs).bind fun (n, rest) =>
    (scalar? n).map fun c => (.character c (digits = 2), rest)

/-- What a backslash begins, and the rest. -/
def escape? (on : Switches) : List Char → Option (Element × List Char)
  | [] => none
  | c :: rest =>
    match c with
    | 'x' => numbered? on 2 rest
    | 'u' => numbered? on 4 rest
    | 'U' => numbered? on 8 rest
    | 'a' => some (.character '\x07' false, rest)
    | 'f' => some (.character '\x0c' false, rest)
    | 't' => some (.character '\t' false, rest)
    | 'n' => some (.character '\n' false, rest)
    | 'r' => some (.character '\r' false, rest)
    | 'v' => some (.character '\x0b' false, rest)
    | 'A' | 'z' => some (.textEdge, rest)
    | 'b' | 'B' | '<' | '>' => some (.wordEdge, rest)
    | 'd' | 's' | 'w' => some (.shorthand false, rest)
    | 'D' | 'S' | 'W' => some (.shorthand true, rest)
    | _ =>
      if c.toNat < 0x80 && !c.isAlphanum then some (.character c false, rest) else none

end Pattern
end EmuScheduler
