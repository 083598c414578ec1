import EmuScheduler.Errors
import EmuScheduler.Events
import EmuScheduler.Files.Tree
import EmuScheduler.Frame.Buffer
import EmuScheduler.Settings

/-!
# Engines

An engine emulates the machine. The scheduler drives it: it gives orders, which always succeed, and
it asks the engine to set itself up, to load a ROM and to step. While the engine answers one of
these three it may use the controls of the scheduler that drives it, so its answer is a `Visit`:
its next state, the controls it used, in order, and the answer itself.

An `Engine σ` says how engines with states of type `σ` behave; the state is passed along.
-/

namespace EmuScheduler

/-- What can be done to a scheduler from outside its loop, at any moment. -/
inductive Control where
  | load (rom : Path)
  | change (mode : ModeChange)
  | pause (paused : Bool)
  /-- Ends the scheduler for good. -/
  | shutdown
  /-- Wakes the scheduler and changes nothing else. -/
  | wake
  /-- Asks whether a frame was finished since the last time. -/
  | takeReady
  /-- Sends later events to a new inbox of that name. -/
  | bind (sink : Sink)
  /-- Sends later events to a sink that is there already, or was once. -/
  | attach (sink : Sink)
  /-- Gives up an inbox. -/
  | close (sink : Sink)
  /-- Takes the frame lock, unless it is held, and gives it back. -/
  | peek
  /-- Looks at the state and changes nothing. -/
  | observe
  deriving DecidableEq, Repr

/-- What an engine is told to do. -/
inductive Order where
  /-- Where saves live and where archives are extracted. -/
  | setDirectories (root temp : Path)
  | closeRom
  | setMode (mode : ModeChange)
  | muteAudio (muted : Bool)
  | muteMic (muted : Bool)
  deriving DecidableEq, Repr

/-- One call to an engine. -/
inductive EngineCall where
  | order (o : Order)
  | setUp
  | load (rom : Path)
  | step
  deriving DecidableEq, Repr

/-- What an engine does when it is asked for something. -/
structure Visit (σ α : Type) where
  engine : σ
  controls : List Control := []
  answer : α

/-- What a step comes to. -/
structure Step where
  buffer : FrameBuffer
  /-- The engine gave up in the middle of the step. -/
  panics : Bool := false

/-- How engines with states of type `σ` behave. -/
structure Engine (σ : Type) where
  /-- Whether the engine was set up. -/
  isReady : σ → Bool
  /-- The extension of the ROM images that the engine extracts. -/
  imageExtension : σ → String
  /-- Whether the next step follows at once, without showing the frame. -/
  fastForwards : σ → Bool
  obey : σ → Order → σ
  setUp : σ → Visit σ (Except EngineError Unit)
  /-- Loads a ROM, and answers whether it accepts it. -/
  load : σ → FileTree → Path → Visit σ Bool
  step : σ → FrameBuffer → Visit σ Step

end EmuScheduler
