import EmuScheduler.Config.Decode
import EmuScheduler.Files.Operations
import EmuScheduler.Toml.Excerpt
import EmuScheduler.Toml.Reader

/-!
# The configuration file

`Config.write` is the text of a configuration and `Config.read` reads a text. Saving creates the
directories above the file first, so they exist even if the configuration cannot be written.
-/

namespace EmuScheduler

/-- Why a configuration cannot be loaded or saved. -/
inductive ConfigError where
  | io (cause : Cause)
  /-- The text of the file is no document; the excerpt shows the place of the fault. -/
  | malformed (fault : Toml.Fault) (excerpt : Toml.Excerpt)
  /-- The document is no configuration; the excerpt shows what does not fit, if it is written
  somewhere. -/
  | decode (error : DecodeError) (excerpt? : Option Toml.Excerpt)
  /-- The working directory has no text that could be written. -/
  | unwritable
  deriving DecidableEq, Repr

/-- The text of a configuration error, without a place in the file. -/
def ConfigError.message : ConfigError → String
  | .io c => c.message
  | .malformed fault _ => fault.message
  | .decode e _ => e.message
  | .unwritable => "path contains invalid UTF-8 characters"

/-- The lines that tell the user of a configuration error, with the place in the file. -/
def ConfigError.report (error : ConfigError) : String :=
  match error with
  | .malformed _ excerpt | .decode _ (some excerpt) => excerpt.render error.message
  | _ => error.message

namespace Config

/-- The line of one setting. -/
def line (key : String) (value : List Char) : List Char :=
  key.toList ++ " = ".toList ++ Toml.Quoted.write value ++ ['\n']

/-- The header of a section. -/
def heading (s : Section) : List Char :=
  '[' :: s.name.toList ++ [']', '\n']

/-- The line of a setting with a named value. -/
def namedLine {α : Type} [Named α] (key : String) (a : α) : List Char :=
  line key (Named.name a).toList

/-- The text of a configuration with that text for its working directory. -/
def writeWith (c : Config) (directory : List Char) : List Char :=
  heading .paths ++ line "working_dir" directory ++ ['\n']
    ++ heading .emulation ++ namedLine "renderer_3d" c.modes.renderer
    ++ namedLine "sound_core" c.modes.soundCore ++ namedLine "cpu_mode" c.modes.cpu
    ++ namedLine "sound_sync_mode" c.modes.soundSync ++ ['\n']
    ++ heading .debug ++ namedLine "log_level" c.logLevel

/-- The text of a configuration. -/
def write (c : Config) : Except ConfigError (List Char) :=
  match Utf8.decode c.workingDirectory.bytes with
  | some directory => .ok (c.writeWith directory)
  | none => .error .unwritable

/-- The configuration that a text describes, with these defaults. -/
def read (defaults : Config) (text : List Char) : Except ConfigError Config :=
  match Toml.Reader.document text with
  | .error fault => .error (.malformed fault (.ofSpan text fault.span))
  | .ok document =>
    match decode defaults document with
    | .ok c => .ok c
    | .error m => .error (.decode m.error (m.place?.map (.ofSpan text)))

/-- Reads the configuration in a file. -/
def loadFrom (e : Environment) (t : FileTree) (p : Path) : Except ConfigError Config :=
  match t.readText p with
  | .ok text => read (default e) text
  | .error c => .error (.io c)

/-- Writes the text of the configuration to a file in a directory that exists. -/
def writeTo (c : Config) (t : FileTree) (p : Path) : Except ConfigError Unit × FileTree :=
  match c.write with
  | .error e => (.error e, t)
  | .ok text =>
    match t.writeFile p (Utf8.encode text) with
    | .ok t' => (.ok (), t')
    | .error cause => (.error (.io cause), t)

/-- Writes the configuration to a file, after the directories that are missing above it. -/
def saveTo (c : Config) (t : FileTree) (p : Path) : Except ConfigError Unit × FileTree :=
  match p.parent? with
  | none => c.writeTo t p
  | some above =>
    match t.createDirectories above with
    | (.ok _, t') => c.writeTo t' p
    | (.error cause, t') => (.error (.io cause), t')

/-- Reads the configuration of the environment. Where there is none yet, the default one is saved
and used. -/
def load (e : Environment) (t : FileTree) : Except ConfigError Config × FileTree :=
  if t.pathExists e.configFile then (loadFrom e t e.configFile, t)
  else
    match (default e).saveTo t e.configFile with
    | (.ok _, t') => (.ok (default e), t')
    | (.error error, t') => (.error error, t')

end Config
end EmuScheduler
