/-!
# Faults of a text

A reader that cannot go on says where (`Fault.left`), what it was reading (`Part`), and what could
have stood there (`Expected`), or why what stands there is refused although it is well-formed
(`Objection`). `Fault.message` puts this in words.

Places in a text are told by the characters that are left from there on. So a reader, which takes
its part from the front of the characters, needs to know nothing of what came before.
-/

namespace EmuScheduler
namespace Toml

/-- A piece of a text: how many characters are left where it begins, and where it ends. -/
structure Span where
  start : Nat
  stop : Nat
  deriving DecidableEq, Repr, Inhabited

/-- The piece that was taken when `rest` is what follows in `cs`. -/
def Span.between (cs rest : List Char) : Span :=
  ⟨cs.length, rest.length⟩

/-- What is being read. -/
inductive Part where
  | key
  | tableHeader
  | array
  | inlineTable
  | string
  | basicString
  | literalString
  | multilineBasicString
  | multilineLiteralString
  | escape
  /-- The number of a character, with so many digits. -/
  | code (digits : Nat)
  | integer
  | hexadecimalInteger
  | octalInteger
  | binaryInteger
  | float
  | dateTime
  | time
  | offset
  deriving DecidableEq, Repr

/-- What a message calls the part. -/
def Part.name : Part → String
  | .key => "key"
  | .tableHeader => "table header"
  | .array => "array"
  | .inlineTable => "inline table"
  | .string => "string"
  | .basicString => "basic string"
  | .literalString => "literal string"
  | .multilineBasicString => "multiline basic string"
  | .multilineLiteralString => "multiline literal string"
  | .escape => "escape sequence"
  | .code digits => "unicode " ++ toString digits ++ "-digit hex code"
  | .integer => "integer"
  | .hexadecimalInteger => "hexadecimal integer"
  | .octalInteger => "octal integer"
  | .binaryInteger => "binary integer"
  | .float => "floating-point number"
  | .dateTime => "date-time"
  | .time => "time"
  | .offset => "time offset"

/-- What could have stood at the place of a fault. -/
inductive Expected where
  | mark (text : String)
  | lineBreak
  | digit
  | leadingDigit
  deriving DecidableEq, Repr

/-- What a message calls it. -/
def Expected.name : Expected → String
  | .mark text => "`" ++ text ++ "`"
  | .lineBreak => "newline"
  | .digit => "digit"
  | .leadingDigit => "leading digit"

/-- Why something well-formed is refused. -/
inductive Objection where
  /-- There already is a key of that name, in the table at a path if it is known. -/
  | duplicateKey (key : String) (table? : Option (List String))
  /-- A path goes through a value that is no table. -/
  | notATable (path : List String) (kind : String)
  | outOfRange
  | tooLarge
  | tooSmall
  | tooDeep
  deriving DecidableEq, Repr

/-- The words of an objection. -/
def Objection.message : Objection → String
  | .duplicateKey key none => "duplicate key `" ++ key ++ "`"
  | .duplicateKey key (some []) => "duplicate key `" ++ key ++ "` in document root"
  | .duplicateKey key (some table) =>
    "duplicate key `" ++ key ++ "` in table `" ++ ".".intercalate table ++ "`"
  | .notATable path kind =>
    "dotted key `" ++ ".".intercalate path ++ "` attempted to extend non-table type (" ++ kind
      ++ ")"
  | .outOfRange => "value is out of range"
  | .tooLarge => "number too large to fit in target type"
  | .tooSmall => "number too small to fit in target type"
  | .tooDeep => "recursion limit exceeded"

/-- Why a reader cannot go on. -/
structure Fault where
  /-- How many characters are left at the place. -/
  left : Nat
  /-- Nothing else is tried in its place. -/
  final : Bool := false
  part? : Option Part := none
  expected : List Expected := []
  objection? : Option Objection := none
  deriving DecidableEq, Repr

/-- What is taken from the front of a text, and what follows. -/
abbrev Taken (α : Type) := Except Fault (α × List Char)

namespace Fault

/-- A fault in front of these characters. -/
def before (cs : List Char) : Fault where
  left := cs.length

/-- The fault as one after which nothing else is tried. -/
def last (f : Fault) : Fault :=
  { f with final := true }

/-- The fault within a part, unless a smaller part is known. -/
def within (part : Part) (f : Fault) : Fault :=
  { f with part? := f.part?.or (some part) }

/-- The fault with more that could have stood in its place. -/
def expecting (expected : List Expected) (f : Fault) : Fault :=
  { f with expected := f.expected ++ expected }

/-- The fault because of an objection. -/
def because (objection : Objection) (f : Fault) : Fault :=
  { f with objection? := some objection }

/-- The fault in words, a line for each thing it tells. -/
def message (f : Fault) : String :=
  "\n".intercalate
    ((f.part?.map fun part => "invalid " ++ part.name).toList
      ++ (if f.expected = [] then []
        else ["expected " ++ ", ".intercalate (f.expected.map Expected.name)])
      ++ (f.objection?.map Objection.message).toList)

/-- The character at the place, or the end of the text. -/
def span (f : Fault) : Span :=
  ⟨f.left, f.left - 1⟩

end Fault

/-- What one reader takes, or what another one takes that is tried in its place. -/
def either {α : Type} (first second : Taken α) : Taken α :=
  match first with
  | .error f => if f.final then first else second
  | .ok _ => first

end Toml
end EmuScheduler
