import EmuScheduler.Log.Line
import EmuScheduler.Scheduler.Basic

/-!
# The log of a history

The lines that a scheduler of the test pattern writes for what happens, entry by entry.
-/

namespace EmuScheduler
namespace Log

/-- A line about the scheduler's loop or its controls. -/
def thread (level : LogLevel) (text : String) : LogLine :=
  ⟨level, "nds_runner::thread", text⟩

/-- A line of the engine. -/
def engine (level : LogLevel) (text : String) : LogLine :=
  ⟨level, "nds_core::null_engine", text⟩

/-- The word for a mode. -/
def modeWord : ModeKind → String
  | .renderer => "3D renderer"
  | .soundCore => "sound core"
  | .cpu => "CPU mode"
  | .soundSync => "sound sync mode"

/-- The word for a kind of mode change. -/
def changeWord : ModeKind → String
  | .renderer => "Renderer3D"
  | .soundCore => "SoundCore"
  | .cpu => "CpuMode"
  | .soundSync => "SoundSyncMode"

/-- The lines for a control. -/
def ofControl : Control → List LogLine
  | .load rom => [thread .debug ("Load requested: " ++ rom.display)]
  | .change mode =>
    [thread .debug ("Config change requested: " ++ changeWord mode.kind ++ "(" ++ mode.valueName
      ++ ")")]
  | .shutdown => [thread .info "Shutdown requested"]
  | _ => []

/-- The lines for an engine call. -/
def ofCall : EngineCall → List LogLine
  | .setUp => [engine .info "Null engine initialized (test pattern only)"]
  | .order (.setDirectories root temp) =>
    [engine .debug ("Null engine working dirs: primary=" ++ root.display ++ ", temp="
      ++ temp.display)]
  | .order (.setMode mode) =>
    [thread .debug ("Applying " ++ modeWord mode.kind ++ " " ++ mode.valueName),
      engine .debug ("Null engine " ++ modeWord mode.kind ++ ": " ++ mode.valueName)]
  | .order (.muteMic false) => [thread .trace "Audio unmuted"]
  | _ => []

/-- The lines for a purge. -/
def ofPurge (directory : Path) (removed : List Path) : List LogLine :=
  removed.map (fun p => ⟨.debug, "nds_runner::workdir", "Removed stale ROM image " ++ p.display⟩)
    ++ if removed = [] then []
      else [thread .info ("Removed " ++ toString removed.length ++ " stale ROM image(s) from "
        ++ directory.display)]

/-- The lines for one entry. -/
def ofEntry (entry : Entry) : List LogLine :=
  match entry.action with
  | .control c => ofControl c
  | .call c => ofCall c
  | .emit (.started rom) _ _ => [thread .info ("Loading ROM: " ++ rom.display)]
  | .publish before after =>
    if before = after then []
    else [thread .debug ("Emulator state " ++ Named.name before ++ " -> " ++ Named.name after)]
  | .purge directory removed => ofPurge directory removed
  | .prepared root =>
    [thread .info ("Engine initialized, working directory " ++ root.display)]
  | .accept _ => [thread .info "ROM loaded"]
  | .reject rom => [thread .warn ("Engine rejected ROM: " ++ rom.display)]
  | .present steps =>
    [thread .trace ("Frame done: " ++ toString steps ++ " step(s), "
      ++ toString (entry.view.frames + steps) ++ " total")]
  | .tick | .configure | .emit _ _ _ => []

/-- The lines for a history, whose newest entry comes first. -/
def ofHistory (history : List Entry) : List LogLine :=
  history.reverse.flatMap ofEntry

end Log
end EmuScheduler
