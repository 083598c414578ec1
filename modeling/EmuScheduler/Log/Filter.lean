import EmuScheduler.Log.Line
import EmuScheduler.Log.Pattern
import EmuScheduler.Text.Utf8

/-!
# Log filters

A `LogFilter` says which lines are shown. It is written as directives between commas: a level, or
a target, then a span and fields in brackets, then `=` and a level; all parts but one may be
missing. For a line the most particular of the directives about it decides (`LogFilter.shows`): the
one with the longest target that begins the line's own, then the one with more fields, then the one
that was written last. A filter without such a directive shows nothing.

No line of this application stands in a span, and every line has one field, its message. So a
directive about a span, or about the value of a field, is about no line.
-/

namespace EmuScheduler

/-- The level of that spelling: a name in any case, or its rank. -/
def LogLevel.ofFilterText? (s : String) : Option LogLevel :=
  let digits := if s.startsWith "+" then (s.drop 1).toString else s
  let rank? := if digits.toList.all Char.isDigit then digits.toNat? else none
  (Named.values (α := LogLevel)).find? fun l => l.filterText = s.toLower || rank? = some l.rank

/-- A field that a directive asks for. -/
structure FieldMatch where
  name : String
  /-- Whether the field must have a certain value. -/
  hasValue : Bool
  deriving DecidableEq, Repr

/-- What is shown of the lines that a directive is about. -/
structure LogDirective where
  level : LogLevel := .trace
  target? : Option String := none
  span? : Option String := none
  fields : List FieldMatch := []
  deriving DecidableEq, Repr

namespace FieldMatch

/-- The rest after digits, at least one. -/
def afterDigits? (cs : List Char) : Option (List Char) :=
  if cs.head?.any Char.isDigit then some (cs.dropWhile Char.isDigit) else none

/-- Whether nothing follows but the exponent of a number. -/
def isExponent : List Char → Bool
  | [] => true
  | c :: rest =>
    (c = 'e' || c = 'E') &&
      afterDigits? (match rest with
        | '-' :: rest | '+' :: rest => rest
        | _ => rest) = some []

/-- Whether a text is a number without a sign. -/
def isNumber (cs : List Char) : Bool :=
  let word := (String.ofList cs).toLower
  word = "inf" || word = "infinity" || word = "nan" ||
    match afterDigits? cs with
    | some ('.' :: rest) => isExponent ((afterDigits? rest).getD rest)
    | some rest => isExponent rest
    | none =>
      match cs with
      | '.' :: rest => (afterDigits? rest).any isExponent
      | _ => false

/-- Whether a text may be asked for as the value of a field: a number, or a pattern. -/
def isValue : List Char → Bool
  | '+' :: rest => isNumber rest
  | cs => Pattern.isWellFormed cs

/-- The field that a text asks for: a name, and a value after `=`. What a second `=` begins is
passed over. -/
def parse? (s : String) : Option FieldMatch :=
  match s.splitOn "=" with
  | name :: value :: _ => if isValue value.toList then some ⟨name, true⟩ else none
  | _ => if s = "" then none else some ⟨s, false⟩

end FieldMatch

namespace LogDirective

/-- What the next character of a directive is part of, and in which byte that part begins. -/
inductive Part where
  | start
  | levelOrTarget
  | span (first : Nat)
  | field (first : Nat)
  /-- After the brace that ends the fields. -/
  | fieldsEnd
  /-- After the bracket that ends the span. -/
  | spanEnd
  | level (first : Nat)
  deriving DecidableEq, Repr

/-- A character that a directive may begin with. -/
def isStart (c : Char) : Bool :=
  isAlphanumeric c || c = '-' || c = ':' || c = '_'

/-- The text between two bytes. -/
def cut (text : List UInt8) (first stop : Nat) : String :=
  String.ofList (Utf8.decodeLossy ((text.take stop).drop first))

/-- Adds the field that a text asks for. -/
def addField (d : LogDirective) (s : String) : Option LogDirective :=
  (FieldMatch.parse? s).map fun f => { d with fields := d.fields ++ [f] }

/-- Takes the character at byte `i`. -/
def take (text : List UInt8) (d : LogDirective) (part : Part) (i : Nat) (c : Char) :
    Option (LogDirective × Part) :=
  match part with
  | .start =>
    if c = '[' then some (d, .span (i + 1))
    else if isStart c then some (d, .levelOrTarget)
    else none
  | .levelOrTarget =>
    if c = '=' then some ({ d with target? := some (cut text 0 i) }, .level (i + 1))
    else if c = '[' then some ({ d with target? := some (cut text 0 i) }, .span (i + 1))
    else some (d, part)
  | .span j =>
    let name := cut text j i
    if c = ']' then some ({ d with span? := some name }, .spanEnd)
    else if c = '\x7b' then
      some ({ d with span? := if name = "" then none else some name }, .field (i + 1))
    else some (d, part)
  | .field j =>
    if c = '\x7d' then (d.addField (cut text j i)).map (·, .fieldsEnd)
    else some (d, part)
  | .fieldsEnd => if c = ']' then some (d, .spanEnd) else none
  | .spanEnd => if c = '=' then some (d, .level (i + 1)) else none
  | .level _ => some (d, part)

/-- The directive when its text has come to an end. A word that is no level is a target. -/
def finish (text : List UInt8) (d : LogDirective) : Part → Option LogDirective
  | .levelOrTarget =>
    let word := cut text 0 text.length
    match LogLevel.ofFilterText? word with
    | some level => some { d with level }
    | none => some { d with target? := some word }
  | .level j =>
    let word := cut text j text.length
    if word = "" then some d
    else (LogLevel.ofFilterText? word).map fun level => { d with level }
  | .spanEnd => some d
  | .start | .span _ | .field _ | .fieldsEnd => none

/-- Takes the characters from byte `i` on. -/
def read (text : List UInt8) (d : LogDirective) (part : Part) (i : Nat) :
    List Char → Option LogDirective
  | [] => d.finish text part
  | c :: rest =>
    match d.take text part i c with
    | some (d, part) => read text d part (i + (Utf8.encode [c]).length) rest
    | none => none

/-- The directive that a text spells. White space around it is not looked at, but still counts
where the bytes of a part are. -/
def parse? (s : String) : Option LogDirective :=
  read (Utf8.encode s.toList) {} .start 0 (trimWhiteSpace s.toList)

/-- Whether the directive is about a line. -/
def concerns (d : LogDirective) (l : LogLine) : Bool :=
  d.target?.all (fun target => l.target.startsWith target) && d.span?.isNone
    && d.fields.all fun f => f.name = "message" && !f.hasValue

/-- How particular a directive is by its target: one without a target is the least. -/
def targetLength (d : LogDirective) : Nat :=
  match d.target? with
  | some target => target.length + 1
  | none => 0

/-- Whether another directive, written later, goes before this one. -/
def yieldsTo (d e : LogDirective) : Bool :=
  d.targetLength < e.targetLength
    || (d.targetLength = e.targetLength && d.fields.length ≤ e.fields.length)

end LogDirective

/-- The directives of a filter. -/
abbrev LogFilter := List LogDirective

namespace LogFilter

/-- The filter that shows one level of all targets. -/
def ofLevel (level : LogLevel) : LogFilter :=
  [{ level }]

/-- The filter that a text spells, if each of its directives is one. -/
def parse? (s : String) : Option LogFilter :=
  ((s.splitOn ",").filter (· ≠ "")).mapM LogDirective.parse?

/-- The more particular of two directives, the later one if they are equally so. -/
def prefer (best : Option LogDirective) (d : LogDirective) : Option LogDirective :=
  match best with
  | some b => if b.yieldsTo d then some d else some b
  | none => some d

/-- Whether a line is shown. -/
def shows (f : LogFilter) (l : LogLine) : Bool :=
  match (f.filter (·.concerns l)).foldl prefer none with
  | some d => l.level.rank ≤ d.level.rank
  | none => false

end LogFilter
end EmuScheduler
