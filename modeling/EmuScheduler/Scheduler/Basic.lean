import EmuScheduler.Audio
import EmuScheduler.Cheats.Store
import EmuScheduler.Engine.Basic
import EmuScheduler.Frame.Lock
import EmuScheduler.Frame.Rate
import EmuScheduler.Gate
import EmuScheduler.Mailbox

/-!
# The scheduler's state

A `Scheduler` drives one engine. What controllers and the scheduler's own loop have in common is
`Shared`; the rest belongs to the loop alone. The scheduler keeps a history of all that happens,
newest first: each `Entry` is an action together with what controllers saw at that moment.
-/

namespace EmuScheduler

/-- What the scheduler is doing. -/
inductive Phase where
  /-- The engine was not touched yet. -/
  | uninitialized
  /-- The working tree and the engine are being prepared. -/
  | initializing
  /-- There is no ROM to run. -/
  | idle
  | running
  | paused
  /-- The engine is being released. -/
  | stopping
  | stopped
  deriving DecidableEq, Repr, Inhabited

instance : Named Phase where
  values := [.uninitialized, .initializing, .idle, .running, .paused, .stopping, .stopped]
  name
    | .uninitialized => "Uninitialized"
    | .initializing => "Initializing"
    | .idle => "Idle"
    | .running => "Running"
    | .paused => "Paused"
    | .stopping => "Stopping"
    | .stopped => "Stopped"

/-- What controllers and the loop share. -/
structure Shared where
  requests : Requests := {}
  paused : Bool := false
  stopping : Bool := false
  gate : Gate := {}
  frame : FrameLock := {}
  counter : FrameCounter := {}
  notifier : Notifier
  /-- Only the loop changes this. -/
  phase : Phase := .uninitialized
  /-- The ROM of the last completed load. Only the loop changes this. -/
  rom? : Option Path := none
  audio : Audio
  cheats : CheatStore := {}

/-- What a controller sees when it looks. -/
structure View where
  phase : Phase
  paused : Bool
  muted : Bool
  rom? : Option Path
  frames : UInt64
  /-- How often the frame lock was taken. -/
  acquisitions : UInt64
  /-- Whether the frame lock is held. -/
  held : Bool
  deriving DecidableEq, Repr

/-- What is shared, as a controller sees it. -/
def Shared.view (s : Shared) : View where
  phase := s.phase
  paused := s.paused
  muted := s.audio.muted
  rom? := s.rom?
  frames := s.counter.frames
  acquisitions := s.frame.acquisitions
  held := s.frame.held

/-- Something that happens. -/
inductive Action where
  /-- The loop begins a tick. -/
  | tick
  /-- A controller does something. -/
  | control (c : Control)
  /-- The engine is called. -/
  | call (c : EngineCall)
  /-- An event is sent to a sink, which receives it if it still listens. -/
  | emit (e : LoadEvent) (sink : Sink) (delivered : Bool)
  /-- The loop makes its phase known. -/
  | publish (before after : Phase)
  /-- ROM images of an earlier run were removed. -/
  | purge (directory : Path) (removed : List Path)
  /-- The working tree below the root and the engine are ready. -/
  | prepared (root : Path)
  /-- The engine answered that it accepts a ROM. -/
  | accept (rom : Path)
  /-- The engine answered that it refuses a ROM. -/
  | reject (rom : Path)
  /-- The loop turns to the mode changes that wait. -/
  | configure
  /-- A frame was finished in so many steps. -/
  | present (steps : UInt64)
  deriving DecidableEq, Repr

/-- An action, and what controllers saw just before it. -/
structure Entry where
  action : Action
  view : View
  deriving DecidableEq, Repr

/-- A scheduler and its engine. -/
structure Scheduler (σ : Type) where
  engine : σ
  shared : Shared
  workingDirectory : Path
  /-- Whether the engine has a ROM open. -/
  romLoaded : Bool := false
  rate : RateWindow
  files : FileTree
  history : List Entry := []

namespace Scheduler

variable {σ : Type}

/-- A scheduler that has done nothing yet. The modes wait in their mailboxes, so that the first
tick applies them. -/
def start (e : Engine σ) (engine : σ) (workingDirectory : Path) (modes : Modes) (sink : Sink)
    (files : FileTree) (now : Nat) : Scheduler σ where
  engine := engine
  shared :=
    { requests := Requests.seed {} modes
      notifier := .ofSink sink
      audio := { engaged := e.isReady engine } }
  workingDirectory := workingDirectory
  rate := ⟨now, 0⟩
  files := files

/-- What a controller sees. -/
def view (s : Scheduler σ) : View :=
  s.shared.view

/-- Changes what is shared. -/
def modify (s : Scheduler σ) (f : Shared → Shared) : Scheduler σ :=
  { s with shared := f s.shared }

/-- Adds an action to the history. -/
def record (s : Scheduler σ) (a : Action) : Scheduler σ :=
  { s with history := ⟨a, s.view⟩ :: s.history }

/-- Makes a phase known. -/
def publish (s : Scheduler σ) (phase : Phase) : Scheduler σ :=
  (s.record (.publish s.shared.phase phase)).modify fun h => { h with phase }

/-- Gives the engine an order. -/
def order (e : Engine σ) (s : Scheduler σ) (o : Order) : Scheduler σ :=
  let s := s.record (.call (.order o))
  { s with engine := e.obey s.engine o }

/-- Sends an event to the sink of the moment. -/
def emit (s : Scheduler σ) (event : LoadEvent) : Scheduler σ :=
  let n := s.shared.notifier
  (s.record (.emit event n.bound n.listening)).modify fun h =>
    { h with notifier := h.notifier.emit event }

end Scheduler
end EmuScheduler
