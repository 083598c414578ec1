import EmuScheduler.Config.Basic
import EmuScheduler.Decimal.Shortest
import EmuScheduler.Text.Escaped
import EmuScheduler.Toml.Value

/-!
# Configurations from documents

A document is read field by field, in its order, over a configuration that holds the defaults. A
`Section` says which fields a table has and what each of them sets; whatever it does not name is
passed over. The first field that does not fit its setting is the error. The place of a `Misfit` is
that of the innermost thing that does not fit and is written somewhere.
-/

namespace EmuScheduler

open Toml (Key Value Fields Span)

/-- Why a document is no configuration. -/
inductive DecodeError where
  /-- A name that is none of those of a setting. -/
  | unknownName (found : String) (allowed : List String)
  /-- A value of the wrong kind. -/
  | wrongKind (found expected : String)
  /-- A table in the place of a name must have one field. -/
  | noField
  | manyFields
  /-- Neither a name nor a table. -/
  | notAName
  /-- What the one field of a table in the place of a name holds must be empty. -/
  | notEmpty (found : String)
  | noContainer (found : String)
  deriving DecidableEq, Repr

namespace DecodeError

/-- A name between the marks that set it off in a message. -/
def marked (s : String) : String :=
  "`" ++ s ++ "`"

/-- The names to choose from. -/
def choice : List String → String
  | [] => "there are no variants"
  | [a] => "expected " ++ marked a
  | [a, b] => "expected " ++ marked a ++ " or " ++ marked b
  | names => "expected one of " ++ ", ".intercalate (names.map marked)

/-- The text of a decoding error. -/
def message : DecodeError → String
  | .unknownName found allowed => "unknown variant " ++ marked found ++ ", " ++ choice allowed
  | .wrongKind found expected => "invalid type: " ++ found ++ ", expected " ++ expected
  | .noField => "wanted exactly 1 element, found 0 elements"
  | .manyFields => "wanted exactly 1 element, more than 1 element"
  | .notAName => "wanted string or table"
  | .notEmpty found => "expected empty " ++ found
  | .noContainer found => "expected table, found " ++ found

end DecodeError

/-- What does not fit, and where it is written if it is known. -/
structure Misfit where
  error : DecodeError
  place? : Option Span := none
  deriving DecidableEq, Repr

/-- Gives the place to a misfit that has none yet. -/
def Misfit.locate (place? : Option Span) (m : Misfit) : Misfit :=
  { m with place? := m.place?.or place? }

/-- The result of decoding. -/
abbrev Decoded (α : Type) := Except Misfit α

/-- A failure to decode a value. -/
def misfit {α : Type} (error : DecodeError) (v : Value) : Decoded α :=
  .error ⟨error, v.place?⟩

namespace Decode

/-- A value as a message describes it. -/
def describe : Value → String
  | .scalar _ (.string s) => "string " ++ Escaped.quote s
  | .scalar _ (.integer n) => "integer " ++ DecodeError.marked (toString n)
  | .scalar _ (.float x) => "floating point " ++ DecodeError.marked (floatText x)
  | .scalar _ (.boolean b) => "boolean " ++ DecodeError.marked (if b then "true" else "false")
  | .array _ _ | .elements _ => "sequence"
  | .scalar _ (.dateTime _) | .table _ _ _ => "map"

/-- Accepts an array or a table that holds nothing. -/
def empty (v : Value) : Decoded Unit :=
  match v with
  | .array _ [] | .elements [] | .table _ _ [] => .ok ()
  | .elements _ => misfit (.notEmpty "array") v
  | .array _ _ | .table _ _ _ => misfit (.notEmpty "table") v
  | .scalar _ s => misfit (.noContainer s.kind) v

/-- The value of a name. -/
def ofName {α : Type} [Named α] (s : String) : Except DecodeError α :=
  match Named.ofName? s with
  | some a => .ok a
  | none => .error (.unknownName s ((Named.values (α := α)).map Named.name))

/-- A named value: its name, or a table with an empty field of that name. -/
def named {α : Type} [Named α] (v : Value) : Decoded α :=
  match v with
  | .scalar place (.string s) => (ofName s).mapError (Misfit.mk · (some place))
  | .table _ _ [] => misfit .noField v
  | .table _ place? [(key, content)] =>
    match ofName key.name with
    | .error e => .error ⟨e, some key.place⟩
    | .ok a =>
      match empty content with
      | .error m => .error (m.locate place?)
      | .ok _ => .ok a
  | .table _ _ _ => misfit .manyFields v
  | _ => misfit .notAName v

/-- A path. -/
def path (v : Value) : Decoded Path :=
  match v with
  | .scalar _ (.string s) => .ok (.ofString s)
  | _ => misfit (.wrongKind (describe v) "path string") v

end Decode

/-- A field of a section: its name, and what a value sets. -/
structure Setting where
  key : String
  apply : Config → Value → Decoded Config

namespace Setting

/-- The setting that decodes a value and puts it into the configuration. -/
def of {α : Type} (key : String) (decode : Value → Decoded α)
    (put : Config → α → Config) : Setting where
  key := key
  apply c v := (decode v).map (put c)

/-- The setting of that name. -/
def find? (settings : List Setting) (key : String) : Option Setting :=
  settings.find? fun s => s.key = key

end Setting

/-- A section of the configuration file. -/
structure Section where
  name : String
  /-- What a message says is expected in its place. -/
  expected : String
  settings : List Setting

namespace Section

/-- Where the files of the application are. -/
def paths : Section where
  name := "paths"
  expected := "struct PathConfig"
  settings :=
    [.of "working_dir" Decode.path fun c p => { c with workingDirectory := p }]

/-- How the machine is emulated. -/
def emulation : Section where
  name := "emulation"
  expected := "struct EmulationConfig"
  settings :=
    [.of "renderer_3d" Decode.named fun c v => c.change (.renderer v),
      .of "sound_core" Decode.named fun c v => c.change (.soundCore v),
      .of "cpu_mode" Decode.named fun c v => c.change (.cpu v),
      .of "sound_sync_mode" Decode.named fun c v => c.change (.soundSync v)]

/-- What is logged. -/
def debug : Section where
  name := "debug"
  expected := "struct DebugConfig"
  settings :=
    [.of "log_level" Decode.named fun c v => { c with logLevel := v }]

/-- The sections of the file. -/
def all : List Section :=
  [paths, emulation, debug]

/-- Reads one field of the section. What is not written anywhere is found at its key. -/
def decodeField (s : Section) (c : Config) (f : Key × Value) : Decoded Config :=
  match Setting.find? s.settings f.1.name with
  | some setting =>
    (setting.apply c f.2).mapError (Misfit.locate (f.2.place?.or (some f.1.place)))
  | none => .ok c

/-- Reads the settings of the section in their order. -/
def decodeItems (s : Section) (c : Config) (items : List Value) : Decoded Config :=
  (s.settings.zip items).foldlM (fun c p => p.1.apply c p.2) c

/-- Reads the section. An array gives the settings in their order, and a date or time gives none
of them. -/
def decode (s : Section) (c : Config) (v : Value) : Decoded Config :=
  match v with
  | .table _ _ fields => fields.foldlM s.decodeField c
  | .array _ items | .elements items => s.decodeItems c items
  | .scalar _ (.dateTime _) => .ok c
  | .scalar _ _ => misfit (.wrongKind (Decode.describe v) s.expected) v

end Section

namespace Config

/-- Reads one field of a document. What is not written anywhere is found at its key. -/
def decodeField (c : Config) (f : Key × Value) : Decoded Config :=
  match Section.all.find? fun s => s.name = f.1.name with
  | some s => (s.decode c f.2).mapError (Misfit.locate (f.2.place?.or (some f.1.place)))
  | none => .ok c

/-- The configuration that a document describes, with these defaults. -/
def decode (defaults : Config) (document : Fields) : Decoded Config :=
  document.foldlM decodeField defaults

end Config
end EmuScheduler
