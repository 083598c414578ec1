import EmuScheduler.CommandLine.Session

/-!
# The program

The outer layer: it reads the environment and those places of the file system that a session may
touch, runs the session on them, prints what the session prints, and makes the changes that the
session made to the files.
-/

namespace EmuScheduler
namespace Program

/-- A path that the environment names. -/
def environmentPath? (name : String) : IO (Option Path) := do
  return (← IO.getEnv name).map Path.ofString

/-- The environment of the process. -/
def environment : IO Environment := do
  return {
    home := ← environmentPath? "HOME"
    configHome := ← environmentPath? "XDG_CONFIG_HOME"
    dataHome := ← environmentPath? "XDG_DATA_HOME" }

/-- The location that a path without links names. -/
def locationOf (start : Location) (p : Path) : Location :=
  p.components.foldl (fun l c =>
    match c with
    | .here | .finalSlash => l
    | .up => l.tail
    | .name n => n :: l) (if p.isAbsolute then [] else start)

/-- The path of a location. -/
def pathOf (l : Location) : Path :=
  Path.ofPieces ([] :: l.reverse)

/-- What stands at a path of the file system. A file is read only if its content matters. -/
def nodeAt (p : Path) (content : Bool) : IO (Option Node) := do
  let place := (← IO.currentDir) / p.display
  if ← place.isDir then return some .directory
  else if ← place.pathExists then
    if content then return some (.file (← IO.FS.readBinFile place).toList)
    else return some (.file [])
  else return none

/-- Adds a path, and all above it, to what is known of the file system. -/
def observe (content : Bool) (t : FileTree) (p : Path) : IO FileTree :=
  (p :: p.above).reverse.foldlM (fun t q => do
    match locationOf t.workingDirectory q, ← nodeAt q content with
    | [], _ | _, none => return t
    | l, some n => return t.put l n) t

/-- Adds the entries of a directory, if it is one. -/
def observeEntries (t : FileTree) (p : Path) : IO FileTree := do
  let place := (← IO.currentDir) / p.display
  if ← place.isDir then
    (← place.readDir).foldlM (fun t entry =>
      observe false t (p.join (.ofString entry.fileName))) t
  else return t

/-- Adds a working tree and the images in it. -/
def observeTree (t : FileTree) (w : WorkingTree) : IO FileTree := do
  observeEntries (← w.directories.foldlM (observe false) t) w.temp

/-- What a session with these arguments may touch. -/
def snapshot (e : Environment) (arguments : List String) : IO FileTree := do
  let here := Path.ofString (← IO.currentDir).toString
  let start := { FileTree.empty with workingDirectory := locationOf [] here }
  let t ← observe true (← observe false start here) e.configFile
  let roots := e.defaultWorkingDirectory ::
    match (Config.load e t).1 with
    | .ok c => [c.effectiveWorkingDirectory e]
    | .error _ => []
  let t ← (roots.map WorkingTree.below).foldlM observeTree t
  match Arguments.parse arguments with
  | .ok (.run (some rom) _) => observe false t rom
  | _ => return t

/-- Makes the changes between two states of the files. -/
def makeChanges (before after : FileTree) : IO Unit := do
  for (l, n) in after.entries do
    if before.node? l ≠ some n then
      let place := (pathOf l).display
      match n with
      | .directory => IO.FS.createDirAll place
      | .file data => IO.FS.writeBinFile place ⟨data.toArray⟩
      | .link _ => pure ()
  for (l, _) in before.entries do
    if (after.node? l).isNone then IO.FS.removeFile (pathOf l).display

/-- A line of the log as it is printed. -/
def printed (l : LogLine) : String :=
  l.level.label ++ " " ++ l.target ++ ": " ++ l.visibleText

end Program
end EmuScheduler

open EmuScheduler in
def main (arguments : List String) : IO UInt32 := do
  let e ← Program.environment
  let before ← Program.snapshot e arguments
  let r := Session.report e (← IO.getEnv "RUST_LOG") arguments before
  Program.makeChanges before r.files
  for l in r.log do
    IO.println (Program.printed l)
  IO.print r.out
  IO.eprint r.err
  return UInt32.ofNat r.exitCode
