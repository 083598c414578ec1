import EmuScheduler.Toml.Key

/-!
# TOML documents

A document is a table of named values, some of them tables again. It is assembled from its
statements in order (`Draft.extend`): assignments, each into the table of the header before it,
and headers. `Origin` says how a table came into being, which decides what later statements may
still add to it.

Keys and values know where they are written, so that a message can point there.
-/

namespace EmuScheduler
namespace Toml

/-- How a table came into being. -/
inductive Origin where
  /-- By a header of its own, or as the document itself. -/
  | header
  /-- By a header of a table below it. -/
  | implied
  /-- By an assignment to a dotted key. -/
  | dotted
  /-- Between braces. -/
  | inline
  deriving DecidableEq, Repr, Inhabited

/-- A value that holds no others. Of a date or time only the text is kept. -/
inductive Scalar where
  | string (text : String)
  | integer (value : Int)
  | float (value : Float)
  | boolean (value : Bool)
  | dateTime (text : String)
  deriving Inhabited

/-- A value, and where it is written. A table with a header of its own is written from there to its
last assignment; one that is made by the keys of others stands nowhere. -/
inductive Value where
  | scalar (place : Span) (value : Scalar)
  /-- An array in brackets. -/
  | array (place : Span) (items : List Value)
  /-- An array of tables, each with a header of its own. -/
  | elements (tables : List Value)
  | table (origin : Origin) (place? : Option Span) (fields : List (Key × Value))
  deriving Inhabited

/-- The fields of a table in the order of their appearance. -/
abbrev Fields := List (Key × Value)

/-- The kind of a scalar. -/
def Scalar.kind : Scalar → String
  | .string _ => "string"
  | .integer _ => "integer"
  | .float _ => "float"
  | .boolean _ => "boolean"
  | .dateTime _ => "datetime"

namespace Value

/-- The kind of a value. -/
def kind : Value → String
  | .scalar _ s => s.kind
  | .array _ _ => "array"
  | .elements _ => "array of tables"
  | .table .inline _ _ => "inline table"
  | .table _ _ _ => "table"

/-- Where a value is written that has one place only. -/
def ownPlace? : Value → Option Span
  | .scalar place _ | .array place _ => some place
  | .table _ place? _ => place?
  | .elements _ => none

/-- Where a value is written. An array of tables stretches from its first table to its last. -/
def place? : Value → Option Span
  | .elements tables => do
    let first ← tables.head?.bind ownPlace?
    let last ← tables.getLast?.bind ownPlace?
    return ⟨first.start, last.stop⟩
  | v => v.ownPlace?

end Value

/-- How a path leads to a table. -/
inductive Route where
  /-- The path of a header. -/
  | header
  /-- A dotted key in a section. -/
  | dotted
  /-- A dotted key in a table in braces. -/
  | inline
  deriving DecidableEq, Repr

/-- How a table comes into being that is missing on the way. -/
def Route.origin : Route → Origin
  | .header => .implied
  | .dotted | .inline => .dotted

/-- Whether the path may go through a table that there is already. A table in braces is complete,
and a dotted key adds nothing to a table that has a header. -/
def Route.mayPass (r : Route) (origin : Origin) : Bool :=
  match origin with
  | .inline => false
  | .header => r = .header
  | .implied | .dotted => true

namespace Fields

/-- The value of that name. -/
def get? (name : String) (fs : Fields) : Option Value :=
  (fs.find? fun f => f.1.name = name).map (·.2)

/-- The fields without one of them. -/
def remove (name : String) (fs : Fields) : Fields :=
  fs.filter fun f => f.1.name ≠ name

/-- The fields with another value in the place of one. -/
def replace (name : String) (v : Value) (fs : Fields) : Fields :=
  fs.map fun f => if f.1.name = name then (f.1, v) else f

/-- Changes the table that a path leads to, with `leaf`, which is told the table's origin. Tables
missing on the way come into being; an array of tables stands for its last one. `walked` is the
path so far. -/
def within (route : Route) (leaf : Origin → Fields → Except Objection Fields) :
    List String → List Key → Origin → Fields → Except Objection Fields
  | _, [], origin, fs => leaf origin fs
  | walked, key :: path, _, fs =>
    let walked := walked ++ [key.name]
    match get? key.name fs with
    | none =>
      (within route leaf walked path route.origin []).map fun inner =>
        fs ++ [(key, .table route.origin none inner)]
    | some (.table origin place? inner) =>
      if route.mayPass origin then
        (within route leaf walked path origin inner).map fun inner' =>
          replace key.name (.table origin place? inner') fs
      else if route ≠ .inline ∧ origin = .inline then
        .error (.notATable walked (Value.table origin place? inner).kind)
      else .error (.duplicateKey key.name none)
    | some (.elements tables) =>
      match tables.reverse with
      | .table origin place? inner :: before =>
        (within route leaf walked path origin inner).map fun inner' =>
          replace key.name (.elements (before.reverse ++ [.table origin place? inner'])) fs
      | _ => .error (.notATable walked (Value.elements tables).kind)
    | some v => .error (.notATable walked v.kind)

/-- Adds a field that is not there yet, to the table of that path if it is known. A dotted key must
lead to a table that dotted keys made. -/
def assign (route : Route) (table? : Option (List String)) (path : List Key) (key : Key)
    (v : Value) : Origin → Fields → Except Objection Fields :=
  within route
    (fun origin fs =>
      if !path.isEmpty && origin ≠ .dotted then .error (.duplicateKey key.name none)
      else if (get? key.name fs).isSome then .error (.duplicateKey key.name table?)
      else .ok (fs ++ [(key, v)]))
    [] path

/-- Opens the table of a header. One that was only implied so far counts as appearing here. -/
def openTable (taken : Objection) (key : Key) (place : Span) (_ : Origin) (fs : Fields) :
    Except Objection Fields :=
  match get? key.name fs with
  | none => .ok (fs ++ [(key, .table .header (some place) [])])
  | some (.table .implied _ inner) =>
    .ok (remove key.name fs ++ [(key, .table .header (some place) inner)])
  | some _ => .error taken

/-- Opens another table of an array of tables. -/
def openElement (taken : Objection) (key : Key) (place : Span) (_ : Origin) (fs : Fields) :
    Except Objection Fields :=
  let element := Value.table .header (some place) []
  match get? key.name fs with
  | none => .ok (fs ++ [(key, .elements [element])])
  | some (.elements tables) => .ok (replace key.name (.elements (tables ++ [element])) fs)
  | some _ => .error taken

/-- The fields of a table in braces, from its assignments. -/
def ofAssignments (pairs : List ((List Key × Key) × Value)) : Except Objection Fields :=
  pairs.foldlM (fun fs p => assign .inline none p.1.1 p.1.2 p.2 .inline fs) []

end Fields

/-- A statement of a document. A key is given as the path before its last part, and that part. -/
inductive Statement where
  | assign (path : List Key) (key : Key) (value : Value)
  | header (path : List Key) (key : Key) (place : Span)
  | elementHeader (path : List Key) (key : Key) (place : Span)

namespace Statement

/-- Where the last assignment of a section ends, before the next header. -/
def sectionEnd : List Statement → Option Nat
  | .assign _ _ v :: rest => (sectionEnd rest).or (v.place?.map Span.stop)
  | _ => none

/-- A place that goes on to the end of a section. -/
def upToEnd (place : Span) (rest : List Statement) : Span :=
  { place with stop := (sectionEnd rest).getD place.stop }

/-- The statements, with the place of each header going on to the end of its section. -/
def withSections : List Statement → List Statement
  | [] => []
  | .assign path key v :: rest => .assign path key v :: withSections rest
  | .header path key place :: rest =>
    .header path key (upToEnd place rest) :: withSections rest
  | .elementHeader path key place :: rest =>
    .elementHeader path key (upToEnd place rest) :: withSections rest

/-- How many characters are left in front of the statement. -/
def start : Statement → Nat
  | .assign path key _ => (path.headD key).place.start
  | .header _ _ place | .elementHeader _ _ place => place.start

/-- What a fault in the statement is called a fault of. -/
def part? : Statement → Option Part
  | .assign _ _ _ => none
  | .header _ _ _ | .elementHeader _ _ _ => some .tableHeader

end Statement

/-- A document in the making: what there is so far, and the header that assignments go under. -/
structure Draft where
  fields : Fields := []
  current : List Key := []

namespace Draft

/-- The names of the parts of a key. -/
def names (path : List Key) : List String :=
  path.map Key.name

/-- The objection to a header whose place is taken. -/
def taken (path : List Key) (key : Key) : Objection :=
  .duplicateKey (Key.text key.name) (some (names path))

/-- The document after one more statement, or the objection to it. -/
def extend (d : Draft) : Statement → Except Objection Draft
  | .assign path key v =>
    (Fields.within .header (Fields.assign .dotted (some (names d.current)) path key v) []
      d.current .header d.fields).map fun fs => { d with fields := fs }
  | .header path key place =>
    (Fields.within .header (Fields.openTable (taken path key) key place) [] path .header
      d.fields).map fun fs => ⟨fs, path ++ [key]⟩
  | .elementHeader path key place =>
    (Fields.within .header (Fields.openElement (taken path key) key place) [] path .header
      d.fields).map fun fs => ⟨fs, path ++ [key]⟩

/-- The document after some more statements, or the fault of the first that is refused. -/
def extendAll (d : Draft) : List Statement → Except Fault Draft
  | [] => .ok d
  | s :: rest =>
    match d.extend s with
    | .ok d => extendAll d rest
    | .error objection =>
      .error { left := s.start, final := true, part? := s.part?, objection? := some objection }

end Draft

end Toml
end EmuScheduler
