import EmuScheduler.Toml.DateTime
import EmuScheduler.Toml.Value

/-!
# Reading TOML

`document` reads a whole text: it splits the text into statements, line by line, and assembles
them. A reader takes its part from the front of the characters and gives what follows, or the fault
for which its part does not stand there. Of a text with several faults the first one is told, where
a statement that is refused counts from its end on.
-/

namespace EmuScheduler
namespace Toml
namespace Reader

open Key (skipBlanks)

/-- How deep values may be nested in one another. -/
def depthLimit : Nat := 79

/-! ## Comments and line ends -/

/-- The rest after a comment. -/
def skipComment : List Char → List Char
  | '#' :: rest => rest.dropWhile isPrintable
  | cs => cs

/-- The rest after a line that has nothing more to say. The last line needs no line break. -/
def lineEnd (cs : List Char) : Except Fault (List Char) :=
  match skipComment (skipBlanks cs) with
  | [] => .ok []
  | '\n' :: rest => .ok rest
  | '\r' :: '\n' :: rest => .ok rest
  | rest => .error (.before rest)

/-- The end of the line after a statement. -/
def statementEnd (cs : List Char) : Except Fault (List Char) :=
  (lineEnd cs).mapError fun f => (f.expecting [.lineBreak, .mark "#"]).last

/-- The rest after lines without a value, within an array, and the blanks before what comes next.
Every comment must be followed by a line break. Another character in its place is taken, and the
fault is behind it. -/
def skipLines (inComment : Bool) : List Char → Except Fault (List Char)
  | [] => if inComment then .error (.before []) else .ok []
  | '\n' :: rest | '\r' :: '\n' :: rest => skipLines false rest
  | '\r' :: rest => .error (.before rest)
  | c :: rest =>
    if inComment then
      if isPrintable c then skipLines true rest else .error (.before rest)
    else if c = '#' then skipLines true rest
    else if isBlank c then skipLines false rest
    else .ok (c :: rest)

/-! ## Values -/

/-- The word, if it stands at the front. -/
def word (w : String) (cs : List Char) : Except Fault (List Char) :=
  if w.toList.isPrefixOf cs then .ok (cs.drop w.length) else .error (.before cs)

/-- An integer. -/
def integer (cs : List Char) : Taken Scalar :=
  (Number.integer cs).map fun (n, rest) => (.integer n, rest)

/-- A floating-point number. -/
def float (cs : List Char) : Taken Scalar :=
  (Number.float cs).map fun (x, rest) => (.float x, rest)

/-- What begins like a number. It is first taken for a date or time and then for a floating-point
number. -/
def number (cs : List Char) : Taken Scalar :=
  either ((DateTime.read cs).map fun (s, rest) => (.dateTime (String.ofList s), rest))
    (either (float cs) (integer cs))

/-- A truth value. -/
def boolean (value : Bool) (cs : List Char) : Taken Scalar :=
  ((word (if value then "true" else "false") cs).map fun rest =>
    (.boolean value, rest)).mapError Fault.last

/-- A word that stands for a value, by its first character. Any other word is taken for a string
that lacks its quotes. -/
def namedScalar (cs : List Char) : Taken Scalar :=
  let read : Taken Scalar :=
    match cs with
    | 't' :: _ => boolean true cs
    | 'f' :: _ => boolean false cs
    | 'i' :: _ | 'n' :: _ => (Number.word cs).map fun (x, rest) => (.float x, rest)
    | _ => .error (.before cs)
  read.mapError fun f => (f.within .string).expecting [.mark "\"", .mark "'"]

/-- A value that no brackets enclose, by its first character. -/
def bareScalar (cs : List Char) : Taken Scalar :=
  match cs with
  | [] => .error (.before cs)
  | c :: _ =>
    if c = '"' ∨ c = '\'' then
      (Quoted.read cs).map fun (s, rest) => (.string (String.ofList s), rest)
    else if c = '+' ∨ c = '-' ∨ Number.isDigit c then number cs
    else if c = '_' then (integer cs).mapError (Fault.expecting [.leadingDigit])
    else if c = '.' then (float cs).mapError (Fault.expecting [.leadingDigit])
    else namedScalar cs

/-- A value that no brackets enclose. -/
def scalar (cs : List Char) : Taken Value :=
  (bareScalar cs).map fun (s, rest) => (.scalar (.between cs rest) s, rest)

/-- An item of an array with the lines around it. -/
def item (value : List Char → Taken Value) (cs : List Char) :
    Except Fault (Value × List Char) := do
  let cs ← skipLines false cs
  let (v, cs) ← value cs
  let cs ← skipLines false cs
  return (v, cs)

/-- The items of an array, at most so many, and the comma that may follow the last. What is no item
ends them. -/
def items (value : List Char → Taken Value) : Nat → List Char → Taken (List Value)
  | 0, cs => .ok ([], cs)
  | count + 1, cs =>
    match item value cs with
    | .error f => if f.final then .error f else .ok ([], cs)
    | .ok (v, ',' :: rest) => (items value count rest).map fun (vs, rest') => (v :: vs, rest')
    | .ok (v, rest) => .ok ([v], rest)

/-- An array, after the opening bracket. -/
def array (value : List Char → Taken Value) (cs : List Char) :
    Except Fault (List Value × List Char) := do
  let (vs, cs) ← items value (cs.length + 1) cs
  let cs ← (skipLines false cs).mapError Fault.last
  match cs with
  | ']' :: rest => return (vs, rest)
  | _ => .error (((Fault.before cs).within .array).expecting [.mark "]"]).last

/-- The value of a key, after the equals sign that must stand there. -/
def assigned (value : List Char → Taken Value) : List Char → Taken Value
  | '=' :: rest => value (skipBlanks rest)
  | cs => .error ((Fault.before cs).expecting [.mark ".", .mark "="])

/-- A key and its value. Once the key is there, all faults are final. -/
def keyValue (value : List Char → Taken Value) (cs : List Char) :
    Except Fault (((List Key × Key) × Value) × List Char) := do
  let (k, cs) ← Key.read cs
  let (v, cs) ← (assigned value cs).mapError Fault.last
  return ((k, v), cs)

/-- The assignments in a table in braces, at most so many. What is no assignment ends them, before
the comma in front of it. -/
def pairs (value : List Char → Taken Value) :
    Nat → List Char → Taken (List ((List Key × Key) × Value))
  | 0, cs => .ok ([], cs)
  | count + 1, cs =>
    match keyValue value cs with
    | .error f => if f.final then .error f else .ok ([], cs)
    | .ok (p, rest) =>
      match skipBlanks rest with
      | ',' :: rest' =>
        match pairs value count rest' with
        | .error f => .error f
        | .ok ([], _) => .ok ([p], ',' :: rest')
        | .ok (ps, rest'') => .ok (p :: ps, rest'')
      | rest' => .ok ([p], rest')

/-- A table in braces, after the opening brace. -/
def inlineTable (value : List Char → Taken Value) (cs : List Char) :
    Except Fault (Fields × List Char) := do
  let (ps, rest) ← pairs value (cs.length + 1) cs
  let fields ← (Fields.ofAssignments ps).mapError fun objection =>
    ((Fault.before cs).because objection).last
  match skipBlanks rest with
  | '\x7d' :: rest => return (fields, rest)
  | rest => .error (((Fault.before rest).within .inlineTable).expecting [.mark "\x7d"]).last

/-- A value, with at most so many brackets and braces around its innermost part. -/
def value : Nat → List Char → Taken Value
  | 0, cs =>
    match cs with
    | '[' :: _ | '\x7b' :: _ => .error ((Fault.before cs).because .tooDeep).last
    | _ => scalar cs
  | depth + 1, cs =>
    match cs with
    | '[' :: rest =>
      (array (value depth) rest).map fun (vs, rest') => (.array (.between cs rest') vs, rest')
    | '\x7b' :: rest =>
      (inlineTable (value depth) rest).map fun (fs, rest') =>
        (.table .inline (some (.between cs rest')) fs, rest')
    | _ => scalar cs

/-! ## Statements -/

/-- A key in brackets of this many characters, and the place of it all. The brackets open at the
front of `cs`. -/
def bracketed (brackets : Nat) (cs : List Char) :
    Except Fault (((List Key × Key) × Span) × List Char) := do
  let closing := List.replicate brackets ']'
  let (k, rest) ← Key.read (cs.drop brackets)
  if closing.isPrefixOf rest then
    let rest := rest.drop brackets
    return ((k, .between cs rest), rest)
  else .error ((Fault.before rest).expecting [.mark ".", .mark (String.ofList closing)])

/-- A header with the end of its line. -/
def header (cs : List Char) : Except Fault (Statement × List Char) := do
  match cs with
  | [_] => .error (.before cs)
  | _ :: '[' :: _ =>
    let ((k, place), rest) ← bracketed 2 cs
    return (.elementHeader k.1 k.2 place, ← statementEnd rest)
  | _ =>
    let ((k, place), rest) ← bracketed 1 cs
    return (.header k.1 k.2 place, ← statementEnd rest)

/-- One statement with the end of its line. -/
def statement (cs : List Char) : Except Fault (Statement × List Char) := do
  match cs with
  | '[' :: _ => (header cs).mapError (Fault.within .tableHeader)
  | _ =>
    let ((k, v), rest) ← keyValue (value depthLimit) cs
    return (.assign k.1 k.2 v, ← statementEnd rest)

/-- The statements of a text of at most so many lines, up to the fault after them if there is
one. -/
def statements : Nat → List Char → List Statement × Option Fault
  | 0, cs => ([], some (.before cs))
  | lines + 1, cs =>
    match skipBlanks cs with
    | [] => ([], none)
    | '#' :: _ | '\n' :: _ | '\r' :: _ =>
      match lineEnd (skipBlanks cs) with
      | .ok rest' => statements lines rest'
      | .error f => ([], some f)
    | cs' =>
      match statement cs' with
      | .error f => ([], some f)
      | .ok (s, rest) =>
        let more := statements lines rest
        (s :: more.1, more.2)

/-- The text without the mark that may stand before it. -/
def skipByteOrderMark : List Char → List Char
  | '\uFEFF' :: rest => rest
  | cs => cs

/-- The fields of the document that a text spells. -/
def document (cs : List Char) : Except Fault Fields :=
  let (ss, fault?) := statements (cs.length + 1) (skipByteOrderMark cs)
  match Draft.extendAll {} (Statement.withSections ss), fault? with
  | .error f, _ => .error f
  | .ok _, some f => .error f
  | .ok d, none => .ok d.fields

end Reader
end Toml
end EmuScheduler
