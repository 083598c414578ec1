import EmuScheduler.CommandLine.Arguments
import EmuScheduler.Config.File
import EmuScheduler.Engine.TestPattern
import EmuScheduler.Log.Filter
import EmuScheduler.Log.History
import EmuScheduler.Scheduler.Run

/-!
# A session of the application

`Session.report` is what the application does with its arguments, its environment and the files: it
loads the configuration, runs the scheduler with the test pattern until enough frames were made,
and says what it printed, how it ended and what became of the files.

While the scheduler runs, the application looks at it again and again (`Look`): first at the load
events, of which a failure ends the session, and then at the frames and at whether the scheduler
has come to its end (`Look.verdict`).
-/

namespace EmuScheduler

/-- What the application sees when it looks at the scheduler. -/
structure Look where
  events : List LoadEvent
  frames : UInt64
  /-- Whether the scheduler has come to its end. -/
  finished : Bool
  deriving DecidableEq, Repr

/-- What the application does after a look. -/
inductive Verdict where
  /-- The ROM was refused. -/
  | giveUp (rom : Path)
  /-- There are enough frames, or there will be no more. -/
  | leave
  | wait
  deriving DecidableEq, Repr

/-- The ROM of the first failure among events. -/
def failure? (events : List LoadEvent) : Option Path :=
  events.findSome? fun
    | .failed rom => some rom
    | _ => none

/-- What follows from a look, when so many frames are wanted. -/
def Look.verdict (l : Look) (wanted : Nat) : Verdict :=
  match failure? l.events with
  | some rom => .giveUp rom
  | none => if wanted ≤ l.frames.toNat || l.finished then .leave else .wait

/-- What a session comes to. -/
structure Report where
  exitCode : Nat
  out : String := ""
  err : String := ""
  /-- The lines that the filter of the log shows. -/
  log : List LogLine := []
  files : FileTree

namespace Session

/-- The text that is shown when help is asked for. -/
def help : String :=
  "Headless runner for the nds-emu execution thread\n\nUsage: nds-emu [OPTIONS] [ROM]\n\n"
    ++ "Arguments:\n"
    ++ "  [ROM]  ROM image to load. Without one the thread starts and stops immediately\n\n"
    ++ "Options:\n"
    ++ "      --frames <FRAMES>  Number of frames to emulate before exiting [default: 300]\n"
    ++ "  -h, --help             Print help\n"

/-- The text that is shown when the arguments are at fault. -/
def complaint (e : ArgumentError) : String :=
  "error: " ++ e.message ++ "\n\nFor more information, try '--help'.\n"

/-- A line about the session itself. -/
def line (level : LogLevel) (text : String) : LogLine :=
  ⟨level, "nds_emu", text⟩

/-- The lines for the events of a look, up to the first failure. -/
def eventLines : List LoadEvent → List LogLine
  | [] => []
  | .started rom :: rest => line .info ("Loading " ++ rom.display) :: eventLines rest
  | .ended rom :: rest => line .info ("Load finished: " ++ rom.display) :: eventLines rest
  | .failed rom :: _ => [line .error ("Could not load " ++ rom.display)]

/-- A scheduler that runs, how far it has come, and the log so far. -/
structure Running where
  scheduler : Scheduler TestPattern
  progress : Progress := .going
  log : List LogLine := []

namespace Running

/-- Adds lines to the log. -/
def note (r : Running) (lines : List LogLine) : Running :=
  { r with log := r.log ++ lines }

/-- Moves what happened since the last time from the history to the log. -/
def collect (r : Running) : Running :=
  { r.note (Log.ofHistory r.scheduler.history) with
    scheduler := { r.scheduler with history := [] } }

/-- Uses a control. -/
def control (r : Running) (c : Control) : Running :=
  { r with scheduler := r.scheduler.control TestPattern.engine c }.collect

/-- The lines for the end of a run. -/
def endLines (how : RunEnd) (frames : UInt64) : List LogLine :=
  let stopped :=
    [Log.thread .info ("Emulator thread stopped after " ++ toString frames ++ " frames")]
  match how with
  | .stopped => stopped
  | .failed error => Log.thread .error ("Emulator thread aborted: " ++ error.message) :: stopped
  | .panicked => []

/-- Lets the loop make one round, unless it has come to its end. -/
def round (r : Running) : Running :=
  match r.progress with
  | .ended _ => r
  | _ =>
    let (progress, scheduler) := r.scheduler.round TestPattern.engine {} 1
    let r := { r with progress, scheduler }.collect
    match progress with
    | .ended how => r.note (endLines how scheduler.shared.counter.frames)
    | _ => r

/-- Whether the loop has come to its end. -/
def finished (r : Running) : Bool :=
  match r.progress with
  | .ended _ => true
  | _ => false

/-- Looks at the scheduler and reads the events that have arrived. -/
def look (r : Running) : Look × Running :=
  let (inboxes, notifier) := r.scheduler.shared.notifier.drain
  let events := inboxes.flatMap (·.2)
  let r := { r with scheduler := r.scheduler.modify fun h => { h with notifier } }
  (⟨events, r.scheduler.shared.counter.frames, r.finished⟩, r.note (eventLines events))

/-- Shows the frame that was finished since the last time, if one was. -/
def showFrame (r : Running) : Running :=
  if r.scheduler.shared.frame.ready then
    let r := r.control .takeReady
    match r.scheduler.shared.frame.acquire? with
    | none => r
    | some l => { r with scheduler := r.scheduler.modify fun h => { h with frame := l.release } }
  else r

/-- Looks and lets the loop go on in turn, at most so many times, until the verdict is not to
wait. -/
def watch (wanted : Nat) : Nat → Running → Verdict × Running
  | 0, r => (.leave, r)
  | looks + 1, r =>
    let (l, r) := r.look
    match l.verdict wanted with
    | .wait => watch wanted looks r.showFrame.round
    | verdict => (verdict, r)

/-- Tells the scheduler to end and waits until it has. -/
def stop (r : Running) : Running :=
  (r.control .shutdown).round

end Running

/-- What a session prints when the run ended with an error. -/
def errorText (error : SchedulerError) : String :=
  "Error: " ++ error.message ++ "\n"
    ++ match error.source? with
      | some cause => "\nCaused by:\n    " ++ cause ++ "\n"
      | none => ""

/-- How a session ends after its scheduler has: with the error of the run, or else in the given
way. -/
def close (r : Running) (otherwise : Nat × String) : Nat × String :=
  match r.progress with
  | .ended how =>
    match how.error? with
    | some error => (1, errorText error)
    | none => otherwise
  | _ => otherwise

/-- Runs a scheduler that has just been started: the exit code, what is printed on the error
channel, and what is left of the scheduler. -/
def run (r : Running) (rom? : Option Path) (frames : Nat) : (Nat × String) × Running :=
  match rom? with
  | none =>
    let r := (r.note [line .info "No ROM given, nothing to run"]).stop
    (close r (0, ""), r)
  | some rom =>
    match (r.control (.load rom)).watch frames (frames + 2) with
    | (.giveUp refused, r) =>
      let r := r.stop
      (close r (1, "Error: failed to load " ++ refused.display ++ "\n"), r)
    | (_, r) =>
      let r := r.stop
      let done := line .info ("Ran " ++ toString r.scheduler.shared.counter.frames ++ " frames")
      let result := close r (0, "")
      (result, if result.1 = 0 then r.note [done] else r)

/-- The filter of the log: the one that the environment asks for, if it is one, or else the level
of the configuration. -/
def filter (asked : Option String) (c : Config) : LogFilter :=
  (asked.bind LogFilter.parse?).getD (LogFilter.ofLevel c.logLevel)

/-- A session with valid arguments. -/
def application (e : Environment) (logFilter : Option String) (files : FileTree)
    (rom? : Option Path) (frames : Nat) : Report :=
  let (loaded, files) := Config.load e files
  let (config, warning) := match loaded with
    | .ok c => (c, "")
    | .error error =>
      (Config.default e, "Failed to load config (" ++ error.report ++ "), using defaults\n")
  let scheduler := Scheduler.start TestPattern.engine {} (config.effectiveWorkingDirectory e)
    config.modes "main" files 0
  let started : Running := { scheduler }
  let started := started.note
    [line .info "Starting nds-emu", Log.thread .info "Emulator thread started"]
  let ((exitCode, err), r) := run started rom? frames
  { exitCode
    err := warning ++ err
    log := r.log.filter (filter logFilter config).shows
    files := r.scheduler.files }

/-- What the application does with its arguments. -/
def report (e : Environment) (logFilter : Option String) (arguments : List String)
    (files : FileTree) : Report :=
  match Arguments.parse arguments with
  | .error error => { exitCode := 2, err := complaint error, files }
  | .ok .help => { exitCode := 0, out := help, files }
  | .ok (.run rom? frames) => application e logFilter files rom? frames

end Session
end EmuScheduler
