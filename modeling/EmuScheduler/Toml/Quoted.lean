import EmuScheduler.Text.Hexadecimal
import EmuScheduler.Toml.Fault

/-!
# Quoted strings in TOML

A string stands between quotation marks or apostrophes, on one line or on several (`Delimiter`).
Between quotation marks a backslash begins an escape; between apostrophes every character stands
for itself. A string on several lines stands between triple delimiters.

`read` takes a string apart and `write` puts one together. `write` chooses the first delimiter
that can hold the text without an escape: quotation marks, apostrophes, three quotation marks,
three apostrophes. A text that fits none of them is written with escapes between quotation marks,
three of them if it has a line break.
-/

namespace EmuScheduler
namespace Toml

/-- A space or a tab. -/
def isBlank (c : Char) : Bool :=
  c = ' ' || c = '\t'

/-- A character that can stand in a line of text: no control character but the tab. -/
def isPrintable (c : Char) : Bool :=
  c = '\t' || (' ' ≤ c && c ≠ '\x7f')

/-- How a string is enclosed. -/
structure Delimiter where
  quote : Char
  /-- Three quotes on either side, and line breaks between them. -/
  multiline : Bool
  deriving DecidableEq, Repr

namespace Delimiter

def basic : Delimiter := ⟨'"', false⟩

def literal : Delimiter := ⟨'\'', false⟩

def multilineBasic : Delimiter := ⟨'"', true⟩

def multilineLiteral : Delimiter := ⟨'\'', true⟩

/-- Whether a backslash begins an escape. -/
def escapes (d : Delimiter) : Bool :=
  d.quote = '"'

/-- The characters on either side. -/
def marks (d : Delimiter) : List Char :=
  if d.multiline then [d.quote, d.quote, d.quote] else [d.quote]

/-- What a fault in such a string is called a fault of. -/
def part (d : Delimiter) : Part :=
  match d.multiline, d.escapes with
  | false, true => .basicString
  | false, false => .literalString
  | true, true => .multilineBasicString
  | true, false => .multilineLiteralString

end Delimiter

namespace Quoted

/-! ## Reading -/

/-- What the next character of a string is part of. -/
inductive Place where
  /-- The text itself, after so many quotes that belong to it. After an escaped line break blanks
  and line breaks are `skipped`. -/
  | text (skipped : Bool) (quotes : Nat)
  /-- A carriage return came before, so a line feed must follow; if none does, the fault is
  known. -/
  | lineBreak (skipped : Bool) (otherwise : Fault)
  /-- A backslash came before. -/
  | escape
  /-- A backslash and blanks came before, so a line break must follow; if none does, the fault is
  known. -/
  | escapedBreak (otherwise : Fault)
  /-- The digits of a character's number: how many there must be and are missing, and the number so
  far. -/
  | code (digits missing value : Nat)
  deriving DecidableEq, Repr

/-- What a letter after a backslash stands for: a character, or the number of digits to come. -/
def escapeOf? : Char → Option (Char ⊕ Nat)
  | 'b' => some (.inl '\x08')
  | 't' => some (.inl '\t')
  | 'n' => some (.inl '\n')
  | 'f' => some (.inl '\x0c')
  | 'r' => some (.inl '\r')
  | '"' => some (.inl '"')
  | '\\' => some (.inl '\\')
  | 'u' => some (.inr 4)
  | 'U' => some (.inr 8)
  | _ => none

/-- What may follow a backslash. -/
def escapeMarks : List Expected :=
  ["b", "f", "n", "r", "t", "u", "U", "\\", "\""].map .mark

/-- The fault of a character after a backslash that begins no escape. It stands behind the
character, or before it if the character is not of ASCII. -/
def badEscape (c : Char) (rest : List Char) : Fault :=
  let behind := Fault.before (if c.toNat < 0x80 then rest else c :: rest)
  (behind.within .escape).expecting escapeMarks

/-- The fault of a number that is no character's, with so many digits left after the first. -/
def badCode (digits : Nat) (left : Nat) : Fault :=
  { left, part? := some (.code digits) }

/-- The fault of a string that does not go on with a character, or at its end, after so many quotes
that belong to it. They are first taken to belong to the end. -/
def unfinished (d : Delimiter) (quotes : Nat) (cs : List Char) : Fault where
  left := cs.length + if cs = [] ∨ !d.escapes then quotes else 0
  part? := some d.part

/-- A text and what follows it, with one more character before the text. -/
def push (c : Char) (r : Taken (List Char)) : Taken (List Char) :=
  r.map fun (text, rest) => (c :: text, rest)

/-- The end of a string on several lines, after the first quote of a run: two quotes more end it,
and up to two beyond those still belong to the text. -/
def close? (quote : Char) : List Char → Option (List Char × List Char)
  | a :: b :: rest =>
    if a = quote ∧ b = quote then
      let extra := (rest.take 2).takeWhile (· = quote)
      some (extra, rest.drop extra.length)
    else none
  | _ => none

/-- The text of a string up to its end, and what follows the closing delimiter. -/
def body (d : Delimiter) : Place → List Char → Taken (List Char)
  | .text _ quotes, [] => .error (unfinished d quotes [])
  | .lineBreak _ otherwise, [] | .escapedBreak otherwise, [] => .error otherwise
  | .escape, [] => .error { left := 1, part? := some d.part }
  | .code digits missing _, [] => .error (badCode digits (digits - missing))
  | .text skipped quotes, c :: rest =>
    if skipped && (isBlank c || c = '\n') then body d (.text true 0) rest
    else if d.multiline && c = '\r' then
      body d (.lineBreak skipped (unfinished d quotes (c :: rest))) rest
    else if d.multiline && c = '\n' then push c (body d (.text false 0) rest)
    else if c = d.quote then
      if d.multiline then
        match close? d.quote rest with
        | some found => .ok found
        | none => push c (body d (.text false (quotes + 1)) rest)
      else .ok ([], rest)
    else if c = '\\' && d.escapes then body d .escape rest
    else if isPrintable c then push c (body d (.text false 0) rest)
    else .error (unfinished d quotes (c :: rest))
  | .lineBreak skipped otherwise, c :: rest =>
    if c = '\n' then
      if skipped then body d (.text true 0) rest else push c (body d (.text false 0) rest)
    else .error otherwise
  | .escape, c :: rest =>
    if d.multiline && c = '\n' then body d (.text true 0) rest
    else if d.multiline && c = '\r' then body d (.lineBreak true (badEscape c rest)) rest
    else if d.multiline && isBlank c then body d (.escapedBreak (badEscape c rest)) rest
    else
      match escapeOf? c with
      | some (.inl e) => push e (body d (.text false 0) rest)
      | some (.inr digits) => body d (.code digits digits 0) rest
      | none => .error (badEscape c rest)
  | .escapedBreak otherwise, c :: rest =>
    if c = '\n' then body d (.text true 0) rest
    else if c = '\r' then body d (.lineBreak true otherwise) rest
    else if isBlank c then body d (.escapedBreak otherwise) rest
    else .error otherwise
  | .code digits missing value, c :: rest =>
    let fault := badCode digits (rest.length + 1 + (digits - missing))
    match hexDigit? c with
    | none => .error fault
    | some digit =>
      if missing ≤ 1 then
        match scalar? (value * 16 + digit) with
        | some e => push e (body d (.text false 0) rest)
        | none => .error (fault.because .outOfRange)
      else body d (.code digits (missing - 1) (value * 16 + digit)) rest

/-- The text after an opening delimiter, without the line break that may directly follow it. -/
def afterOpening (d : Delimiter) (cs : List Char) : List Char :=
  if d.multiline then
    match cs with
    | '\n' :: rest => rest
    | '\r' :: '\n' :: rest => rest
    | _ => cs
  else cs

/-- The string within a known delimiter. Once the opening one is there, all faults are final. -/
def readWith (d : Delimiter) (cs : List Char) : Taken (List Char) :=
  if d.marks.isPrefixOf cs then
    (body d (.text false 0) (afterOpening d (cs.drop d.marks.length))).mapError Fault.last
  else .error ((Fault.before cs).within d.part)

/-- A string on one line, as a key may be written. -/
def readLine (cs : List Char) : Taken (List Char) :=
  either (readWith .basic cs) (readWith .literal cs)

/-- A string with any delimiter. -/
def read (cs : List Char) : Taken (List Char) :=
  either (readWith .multilineBasic cs) (either (readWith .multilineLiteral cs) (readLine cs))

/-! ## Writing -/

/-- A control character that has no place in a string: any but the tab and the line feed. -/
def isControl (c : Char) : Bool :=
  (c < ' ' && c ≠ '\t' && c ≠ '\n') || c = '\x7f'

/-- The longest run of a character, when a run of length `current` comes before. -/
def longestRun (c : Char) (current : Nat) : List Char → Nat
  | [] => current
  | d :: rest =>
    if d = c then longestRun c (current + 1) rest else max current (longestRun c 0 rest)

/-- The delimiter that a text is written with. -/
def delimiterFor (s : List Char) : Delimiter :=
  let controls := s.any isControl
  let breaks := s.contains '\n'
  let backslashes := s.contains '\\'
  let quotes := longestRun '"' 0 s
  let apostrophes := longestRun '\'' 0 s
  if !controls && !breaks && !backslashes && quotes = 0 then .basic
  else if !controls && !breaks && apostrophes = 0 then .literal
  else if !controls && !backslashes && quotes ≤ 2 then .multilineBasic
  else if !controls && apostrophes ≤ 2 then .multilineLiteral
  else if breaks then .multilineBasic
  else .basic

/-- A digit of a number in base sixteen. -/
def hexDigit (n : Nat) : Char :=
  Char.ofNat (if n < 10 then '0'.toNat + n else 'A'.toNat + (n - 10))

/-- Four hexadecimal digits. -/
def hexDigits (n : Nat) : List Char :=
  [hexDigit (n / 4096 % 16), hexDigit (n / 256 % 16), hexDigit (n / 16 % 16), hexDigit (n % 16)]

/-- A character other than the quotation mark, with an escape where it needs one. -/
def escaped (d : Delimiter) (c : Char) : List Char :=
  if c = '\x08' then ['\\', 'b']
  else if c = '\t' then ['\\', 't']
  else if c = '\n' then if d.multiline then [c] else ['\\', 'n']
  else if c = '\x0c' then ['\\', 'f']
  else if c = '\r' then ['\\', 'r']
  else if c = '\\' then ['\\', '\\']
  else if isControl c then '\\' :: 'u' :: hexDigits c.toNat
  else [c]

/-- How many quotation marks may follow one another in a string. -/
def Delimiter.runLimit (d : Delimiter) : Nat :=
  if d.multiline then 2 else 0

/-- A text between quotation marks, after a run of quotation marks that stand for themselves. One
that would make the run too long is escaped. -/
def writeEscaped (d : Delimiter) (run : Nat) : List Char → List Char
  | [] => []
  | c :: rest =>
    if c = '"' then
      if run < Delimiter.runLimit d then c :: writeEscaped d (run + 1) rest
      else '\\' :: c :: writeEscaped d 0 rest
    else escaped d c ++ writeEscaped d 0 rest

/-- A text in a given delimiter. A line break after an opening delimiter is not part of the text,
so one is put there when the text has line breaks. -/
def writeWith (d : Delimiter) (s : List Char) : List Char :=
  d.marks ++ (if d.multiline && s.contains '\n' then ['\n'] else [])
    ++ (if d.escapes then writeEscaped d 0 s else s) ++ d.marks

/-- A text as it is written. -/
def write (s : List Char) : List Char :=
  writeWith (delimiterFor s) s

/-- The delimiter that a key is written with: the text must stand on one line. -/
def lineDelimiterFor (s : List Char) : Delimiter :=
  let controls := s.any fun c => isControl c || c = '\n'
  if !controls && !s.contains '\\' && !s.contains '"' then .basic
  else if !controls && !s.contains '\'' then .literal
  else .basic

/-- A text as it is written on one line. -/
def writeLine (s : List Char) : List Char :=
  writeWith (lineDelimiterFor s) s

end Quoted
end Toml
end EmuScheduler
