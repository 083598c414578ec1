import EmuScheduler.Proofs.Outlines
import EmuScheduler.Proofs.Utf8
import EmuScheduler.Proofs.WrittenFiles

/-!
# Saved configurations reload unchanged

Saving a configuration and loading the file gives the configuration back (`saved_reloads`). Three
readers have to undo what three writers did.

* The bytes of the file are those that were written (`FileTree.readBytes_of_writeFile`) and spell
  the text they were made of (`Utf8.decode_eq_some_iff`).
* The text is a list of lines, headings and settings (`writeWith_eq_lines`), and is read as their
  outline (`Toml.document_lines`).
* The outline sets every field of the configuration (`decode_outline`). That it sets all six of them
  is what keeps the defaults out: a setting that were lost on the way would be a default instead.

A configuration has a text just when its working directory has one, and whether it can be saved is
then a question about the file tree alone (`saveTo_ok_iff`).
-/

namespace EmuScheduler

open Toml

/-! ## Decoding -/

/-- A type whose values are told apart by their names. -/
class Named.Faithful (α : Type) [Named α] : Prop where
  ofName?_name (a : α) : Named.ofName? (Named.name a) = some a

instance : Named.Faithful Renderer := ⟨fun a => by cases a <;> decide⟩

instance : Named.Faithful SoundCore := ⟨fun a => by cases a <;> decide⟩

instance : Named.Faithful CpuMode := ⟨fun a => by cases a <;> decide⟩

instance : Named.Faithful SoundSync := ⟨fun a => by cases a <;> decide⟩

instance : Named.Faithful LogLevel := ⟨fun a => by cases a <;> decide⟩

/-- A name that was written is read as the value. -/
theorem named_name {α : Type} [Named α] [Named.Faithful α] {v : Value} {a : α}
    (h : IsText v (Named.name a).toList) : Decode.named v = .ok a := by
  obtain ⟨place, rfl⟩ := h
  simp [Decode.named, Decode.ofName, Named.Faithful.ofName?_name, Except.mapError]

/-- A text is read as the path of its bytes. -/
theorem path_text {v : Value} {text : List Char} (h : IsText v text) :
    Decode.path v = .ok ⟨Utf8.encode text⟩ := by
  obtain ⟨place, rfl⟩ := h
  simp [Decode.path, Path.ofString]

/-- A section reads its first field and goes on with the others. -/
theorem foldlM_setting {α : Type} {s : Section} {fields : Fields} {key : String}
    {text : List Char} {rest : List (String × List Char)} {decode : Value → Decoded α}
    {put : Config → α → Config} {a : α} (holds : Holds IsText fields ((key, text) :: rest))
    (found : Setting.find? s.settings key = some (.of key decode put))
    (value : ∀ {v}, IsText v text → decode v = .ok a) (c : Config) :
    ∃ fields', Holds IsText fields' rest ∧
      fields.foldlM s.decodeField c = fields'.foldlM s.decodeField (put c a) := by
  obtain ⟨place, v, fields', rfl, isText, holds'⟩ := holds.of_cons
  refine ⟨fields', holds', ?_⟩
  have first : s.decodeField c (⟨key, place⟩, v) = .ok (put c a) := by
    simp [Section.decodeField, found, Setting.of, value isText, Except.map, Except.mapError]
  rw [List.foldlM_cons, first]
  rfl

/-- A section without settings changes nothing. -/
theorem foldlM_none {s : Section} {fields : Fields} (holds : Holds IsText fields []) (c : Config) :
    fields.foldlM s.decodeField c = .ok c := by
  obtain _ | _ := holds
  rfl

namespace Config

/-! ## The text of a configuration -/

/-- The lines of a configuration. -/
def lines (c : Config) (directory : List Char) : List (Option Clause) :=
  [some (.heading "paths"), some (.setting "working_dir" directory), none,
    some (.heading "emulation"), some (.setting "renderer_3d" (Named.name c.modes.renderer).toList),
    some (.setting "sound_core" (Named.name c.modes.soundCore).toList),
    some (.setting "cpu_mode" (Named.name c.modes.cpu).toList),
    some (.setting "sound_sync_mode" (Named.name c.modes.soundSync).toList), none,
    some (.heading "debug"), some (.setting "log_level" (Named.name c.logLevel).toList)]

/-- What is written is a list of lines. -/
theorem writeWith_eq_lines (c : Config) (directory : List Char) :
    c.writeWith directory = (c.lines directory).flatMap lineText := by
  simp [writeWith, lines, lineText, Clause.line, namedLine, heading, Section.paths,
    Section.emulation, Section.debug]

/-- The outline of a configuration. -/
def outline (c : Config) (directory : List Char) : Outline :=
  [("paths", [("working_dir", directory)]),
    ("emulation", [("renderer_3d", (Named.name c.modes.renderer).toList),
      ("sound_core", (Named.name c.modes.soundCore).toList),
      ("cpu_mode", (Named.name c.modes.cpu).toList),
      ("sound_sync_mode", (Named.name c.modes.soundSync).toList)]),
    ("debug", [("log_level", (Named.name c.logLevel).toList)])]

/-- The lines are three sections with their settings. -/
theorem outline_lines (c : Config) (directory : List Char) :
    ((c.lines directory).filterMap id).foldlM Outline.add? [] = some (c.outline directory) := by
  rfl

/-- All names that are written are bare. -/
theorem bare_lines (c : Config) (directory : List Char) :
    ∀ e ∈ (c.lines directory).filterMap id, Bare e.name := by
  have names : ((c.lines directory).filterMap id).map Clause.name =
      ["paths", "working_dir", "emulation", "renderer_3d", "sound_core", "cpu_mode",
        "sound_sync_mode", "debug", "log_level"] := rfl
  have bare : ∀ name ∈ ["paths", "working_dir", "emulation", "renderer_3d", "sound_core",
      "cpu_mode", "sound_sync_mode", "debug", "log_level"], Bare name := by decide
  exact fun e h => bare e.name (names ▸ List.mem_map_of_mem h)

/-- The first section is read, and then the others. -/
theorem decode_section {s : Section} {fields : Fields} {name : String}
    {settings : List (String × List Char)} {rest : Outline} {c c' : Config}
    (holds : Holds IsTable fields ((name, settings) :: rest))
    (found : (Section.all.find? fun s => s.name = name) = some s)
    (value : ∀ {inner}, Holds IsText inner settings → inner.foldlM s.decodeField c = .ok c') :
    ∃ fields', Holds IsTable fields' rest ∧ decode c fields = decode c' fields' := by
  obtain ⟨place, _, fields', rfl, ⟨origin, place?, inner, rfl, isTable⟩, holds'⟩ := holds.of_cons
  refine ⟨fields', holds', ?_⟩
  have first : decodeField c (⟨name, place⟩, .table origin place? inner) = .ok c' := by
    simp [decodeField, found, Section.decode, value isTable, Except.mapError]
  rw [decode, List.foldlM_cons, first]
  rfl

/-- **The fields of what was written give the configuration back**, whatever the defaults are. -/
theorem decode_outline {c : Config} {directory : List Char} {fields : Fields}
    (holds : Holds IsTable fields (c.outline directory)) (defaults : Config) :
    decode defaults fields = .ok { c with workingDirectory := ⟨Utf8.encode directory⟩ } := by
  -- section by section, and in each of them setting by setting, in the order in which they were
  -- written
  obtain ⟨fields₁, holds₁, eq₁⟩ := decode_section (s := .paths) holds rfl fun h => by
    obtain ⟨inner₁, h₁, eq₁⟩ := foldlM_setting (s := .paths) h rfl path_text defaults
    rw [eq₁, foldlM_none h₁]
  obtain ⟨fields₂, holds₂, eq₂⟩ := decode_section (s := .emulation) holds₁ rfl fun h => by
    obtain ⟨inner₁, h₁, eq₁⟩ := foldlM_setting (s := .emulation) h rfl named_name _
    obtain ⟨inner₂, h₂, eq₂⟩ := foldlM_setting (s := .emulation) h₁ rfl named_name _
    obtain ⟨inner₃, h₃, eq₃⟩ := foldlM_setting (s := .emulation) h₂ rfl named_name _
    obtain ⟨inner₄, h₄, eq₄⟩ := foldlM_setting (s := .emulation) h₃ rfl named_name _
    rw [eq₁, eq₂, eq₃, eq₄, foldlM_none h₄]
  obtain ⟨fields₃, holds₃, eq₃⟩ := decode_section (s := .debug) holds₂ rfl fun h => by
    obtain ⟨inner₁, h₁, eq₁⟩ := foldlM_setting (s := .debug) h rfl named_name _
    rw [eq₁, foldlM_none h₁]
  obtain _ | _ := holds₃
  rw [eq₁, eq₂, eq₃]
  rfl

/-- The text that was written is read as the configuration that it was written from. -/
theorem read_writeWith (c : Config) (directory : List Char) (defaults : Config) :
    read defaults (c.writeWith directory) =
      .ok { c with workingDirectory := ⟨Utf8.encode directory⟩ } := by
  obtain ⟨fields, document, holds⟩ :=
    document_lines (c.bare_lines directory) (c.outline_lines directory)
  simp only [writeWith_eq_lines, read, document, decode_outline holds]

/-- The text of a configuration describes it, whatever the defaults are. -/
theorem read_of_write {c : Config} {text : List Char} (h : c.write = .ok text)
    (defaults : Config) : read defaults text = .ok c := by
  unfold write at h
  split at h
  · next directory decoded =>
    cases h
    rw [read_writeWith, Utf8.decode_eq_some_iff.1 decoded]
  · cases h

/-- With a directory that is a text the configuration can be written. -/
theorem write_of_text {c : Config} {s : String} (h : c.workingDirectory = .ofString s) :
    c.write = .ok (c.writeWith s.toList) := by
  rw [write, h, Path.ofString, Utf8.decode_eq_some_iff.2 rfl]

/-- What could be written had such a directory. -/
theorem text_of_write {c : Config} {text : List Char} (h : c.write = .ok text) :
    ∃ s, c.workingDirectory = .ofString s := by
  unfold write at h
  split at h
  · next directory decoded =>
    refine ⟨String.ofList directory, ?_⟩
    rw [Path.ofString, String.toList_ofList, Utf8.decode_eq_some_iff.1 decoded]
  · cases h

/-- With any other directory it cannot be written. -/
theorem write_of_no_text {c : Config} (h : ∀ s, c.workingDirectory ≠ .ofString s) :
    c.write = .error .unwritable := by
  cases written : c.write with
  | ok text =>
    obtain ⟨s, text⟩ := text_of_write written
    exact absurd text (h s)
  | error e =>
    unfold write at written
    split at written <;> cases written
    rfl

/-! ## Files -/

/-- The directories above a file, made where they are missing. -/
def prepare (t : FileTree) (p : Path) : Except Cause Unit × FileTree :=
  match p.parent? with
  | none => (.ok (), t)
  | some above => t.createDirectories above

/-- A path where a file can be written, once the directories above it are there. -/
def CanWrite (t : FileTree) (p : Path) : Prop :=
  ∃ t₁ data t₂, prepare t p = (.ok (), t₁) ∧ t₁.writeFile p data = .ok t₂

/-- To save is to create the directories above the file, and then to write it. -/
theorem saveTo_eq (c : Config) (t : FileTree) (p : Path) :
    c.saveTo t p =
      match prepare t p with
      | (.ok _, t') => c.writeTo t' p
      | (.error cause, t') => (.error (.io cause), t') := by
  unfold saveTo prepare
  cases p.parent? <;> rfl

/-- To create directories only adds to the tree. -/
theorem extends_prepare (t : FileTree) (p : Path) : t.Extends (prepare t p).2 := by
  unfold prepare
  split
  · exact .refl t
  · exact FileTree.extends_createDirectories t _

/-- Writing succeeds just when the configuration has a text and the text is in the file then. -/
theorem writeTo_eq_ok {c : Config} {t t' : FileTree} {p : Path}
    (h : c.writeTo t p = (.ok (), t')) :
    ∃ text, c.write = .ok text ∧ t.writeFile p (Utf8.encode text) = .ok t' := by
  unfold writeTo at h
  split at h
  · cases h
  · next text written =>
    split at h
    · next t₁ stored =>
      obtain rfl := (Prod.mk.inj h).2
      exact ⟨text, written, stored⟩
    · cases h

/-- What was saved was prepared, written as a text, and put into the file. -/
theorem saveTo_eq_ok {c : Config} {t t' : FileTree} {p : Path} (h : c.saveTo t p = (.ok (), t')) :
    ∃ t₁ text, prepare t p = (.ok (), t₁) ∧ c.write = .ok text ∧
      t₁.writeFile p (Utf8.encode text) = .ok t' := by
  rw [saveTo_eq] at h
  split at h
  · next t₁ prepared =>
    obtain ⟨text, written, stored⟩ := writeTo_eq_ok h
    exact ⟨t₁, text, prepared, written, stored⟩
  · cases h

/-- A text that was put into a file is read from it. -/
theorem readText_of_writeFile {t t' : FileTree} {p : Path} {text : List Char}
    (h : t.writeFile p (Utf8.encode text) = .ok t') : t'.readText p = .ok text := by
  rw [FileTree.readText, FileTree.readBytes_of_writeFile h]
  simp only [Utf8.decode_eq_some_iff.2 rfl]

/-- **What was saved is loaded again.** -/
theorem loadFrom_of_saveTo {c : Config} {t t' : FileTree} {p : Path}
    (h : c.saveTo t p = (.ok (), t')) (e : Environment) : loadFrom e t' p = .ok c := by
  obtain ⟨t₁, text, -, written, stored⟩ := saveTo_eq_ok h
  rw [loadFrom, readText_of_writeFile stored]
  exact read_of_write written (default e)

/-- Saving succeeds just where a file can be written, of a configuration that has a text. -/
theorem saveTo_ok_iff (c : Config) (t : FileTree) (p : Path) :
    (∃ t', c.saveTo t p = (.ok (), t')) ↔
      (∃ s, c.workingDirectory = .ofString s) ∧ CanWrite t p := by
  constructor
  · rintro ⟨t', saved⟩
    obtain ⟨t₁, text, prepared, written, stored⟩ := saveTo_eq_ok saved
    exact ⟨text_of_write written, t₁, _, t', prepared, stored⟩
  · rintro ⟨⟨s, text⟩, t₁, data, t₂, prepared, stored⟩
    obtain ⟨t', stored'⟩ := FileTree.writeFile_ok stored (Utf8.encode (c.writeWith s.toList))
    refine ⟨t', ?_⟩
    rw [saveTo_eq, prepared]
    simp only [writeTo, write_of_text text, stored']

/-- A configuration without a text leaves the tree as the directories above the file left it. -/
theorem saveTo_of_no_text {c : Config} (h : ∀ s, c.workingDirectory ≠ .ofString s) (t : FileTree)
    (p : Path) :
    c.saveTo t p = match prepare t p with
      | (.ok _, t₁) => (.error .unwritable, t₁)
      | (.error cause, t₁) => (.error (.io cause), t₁) := by
  rw [saveTo_eq]
  split <;> simp only [writeTo, write_of_no_text h]

/-- Where it cannot be written, files are left as they are. -/
theorem extends_saveTo_of_no_text {c : Config} (h : ∀ s, c.workingDirectory ≠ .ofString s)
    (t : FileTree) (p : Path) : t.Extends (c.saveTo t p).2 := by
  have kept := extends_prepare t p
  rw [saveTo_of_no_text h]
  split <;> rename_i prepared <;> rwa [prepared] at kept

/-- **Saved configurations reload unchanged.** Saving succeeds for every working directory that is
a text, whatever its characters are, and wherever a file can be written. Whenever it succeeds,
loading gives the configuration back, whatever the defaults are. A working directory that is no
text is refused, after the directories above the file have been made, and every file that could be
read before reads the same. -/
theorem saved_reloads (c : Config) (t : FileTree) (p : Path) :
    ((∃ t', c.saveTo t p = (.ok (), t')) ↔
      (∃ s, c.workingDirectory = .ofString s) ∧ CanWrite t p) ∧
    (∀ t', c.saveTo t p = (.ok (), t') → ∀ e, loadFrom e t' p = .ok c) ∧
    ((∀ s, c.workingDirectory ≠ .ofString s) →
      (∀ t₁, prepare t p = (.ok (), t₁) → c.saveTo t p = (.error .unwritable, t₁)) ∧
      ∀ q data, t.readBytes q = .ok data → (c.saveTo t p).2.readBytes q = .ok data) := by
  refine ⟨saveTo_ok_iff c t p, fun t' saved => loadFrom_of_saveTo saved, fun noText => ⟨?_, ?_⟩⟩
  · intro t₁ prepared
    rw [saveTo_of_no_text noText, prepared]
  · intro q data read
    exact FileTree.readBytes_of_extends (extends_saveTo_of_no_text noText t p) read

/-- A tree with one file. -/
def oneFile : FileTree :=
  FileTree.empty.put [[0x66]] (.file [0x61])

/-- A directory whose name has quotes of both kinds, a backslash, line breaks and control
characters. -/
def oddDirectory : String :=
  "'''\"\"\"\\\r\n\t\u00e9\x00\""

theorem saved_reloads_odd_directory :
    (CanWrite oneFile ⟨[0x2F, 0x64, 0x2F, 0x66]⟩ ∧
      ∃ t', saveTo { workingDirectory := .ofString oddDirectory } oneFile
          ⟨[0x2F, 0x64, 0x2F, 0x66]⟩ = (.ok (), t') ∧
        ∀ e, loadFrom e t' ⟨[0x2F, 0x64, 0x2F, 0x66]⟩ =
          .ok { workingDirectory := .ofString oddDirectory }) ∧
    (saveTo { workingDirectory := ⟨[0xFF]⟩ } oneFile ⟨[0x2F, 0x66]⟩).1 = .error .unwritable ∧
    (saveTo { workingDirectory := ⟨[0xFF]⟩ } oneFile ⟨[0x2F, 0x66]⟩).2.readBytes ⟨[0x2F, 0x66]⟩ =
      .ok [0x61] := by
  have can : CanWrite oneFile ⟨[0x2F, 0x64, 0x2F, 0x66]⟩ := ⟨_, [], _, rfl, rfl⟩
  -- bytes that are not UTF-8 are not those of a text
  have noText : ∀ s, (⟨[0xFF]⟩ : Path) ≠ .ofString s := by
    intro s eq
    have decoded := Utf8.decode_eq_some_iff.2 (congrArg Path.bytes eq).symm
    have malformed : Utf8.decode [0xFF] = none := by decide
    rw [malformed] at decoded
    cases decoded
  obtain ⟨saves, reloads, -⟩ := saved_reloads { workingDirectory := .ofString oddDirectory } oneFile
    ⟨[0x2F, 0x64, 0x2F, 0x66]⟩
  obtain ⟨-, -, refuses⟩ := saved_reloads { workingDirectory := ⟨[0xFF]⟩ } oneFile ⟨[0x2F, 0x66]⟩
  obtain ⟨t', saved⟩ := saves.2 ⟨⟨oddDirectory, rfl⟩, can⟩
  obtain ⟨refused, kept⟩ := refuses noText
  exact ⟨⟨can, t', saved, reloads t' saved⟩, by rw [refused _ rfl], kept _ _ rfl⟩

end Config
end EmuScheduler
