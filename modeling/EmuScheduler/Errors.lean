import EmuScheduler.Files.Tree

/-!
# Errors

What can go wrong, as causes, and the one place where each is put into words. A `SchedulerError`
wraps the error of a part; `SchedulerError.source?` is the text of what it wraps.
-/

namespace EmuScheduler

/-- What a cheat does to the emulated machine. -/
inductive CheatKind where
  /-- A patch of raw memory. -/
  | internal
  | actionReplay
  | codebreaker
  deriving DecidableEq, Repr, Inhabited

/-- The kind as a message words it. -/
def CheatKind.description : CheatKind → String
  | .internal => "internal"
  | .actionReplay => "action replay"
  | .codebreaker => "codebreaker"

/-- Why the cheat list refuses an edit. -/
inductive CheatError where
  | invalidIndex (index count : Nat)
  | notEditable (index : Nat) (kind : CheatKind)
  | notPersisted (text : String)
  deriving DecidableEq, Repr

/-- The text of a cheat error. -/
def CheatError.message : CheatError → String
  | .invalidIndex index count =>
    "No cheat at index " ++ toString index ++ " (list has " ++ toString count ++ ")"
  | .notEditable index kind =>
    "Cheat " ++ toString index ++ " (" ++ kind.description ++ ") cannot be edited"
  | .notPersisted text => "Failed to persist cheat list: " ++ text

/-- Why an engine fails. -/
inductive EngineError where
  | setupFailed (text : String)
  deriving DecidableEq, Repr

/-- The text of an engine error. -/
def EngineError.message : EngineError → String
  | .setupFailed text => "Initialization failed: " ++ text

/-- Why the scheduler stops. -/
inductive SchedulerError where
  | engine (error : EngineError)
  | cheat (error : CheatError)
  | io (cause : Cause)
  | config (text : String)
  /-- The engine was asked for `operation` before it was set up. -/
  | notInitialized (operation : String)
  | threadPanicked
  deriving DecidableEq, Repr

/-- The text of a scheduler error. -/
def SchedulerError.message : SchedulerError → String
  | .engine e => "Engine error: " ++ e.message
  | .cheat e => "Cheat error: " ++ e.message
  | .io c => "IO error: " ++ c.message
  | .config text => "Config error: " ++ text
  | .notInitialized operation => "Engine used before initialization: " ++ operation
  | .threadPanicked => "Emulator thread panicked"

/-- The text of the error that a scheduler error wraps. -/
def SchedulerError.source? : SchedulerError → Option String
  | .engine e => some e.message
  | .cheat e => some e.message
  | .io c => some c.message
  | .config _ | .notInitialized _ | .threadPanicked => none

end EmuScheduler
