import EmuScheduler.Scheduler.Basic

/-!
# Controlling a scheduler

What each control does to the scheduler. A control never waits: it leaves a request, changes a
flag, or tells the engine to be quiet, and wakes the loop where that may give it something to do.
Each operation of `Shared` here is one step that nothing else can interrupt; a control is made of
one or two of them.
-/

namespace EmuScheduler
namespace Shared

/-- Leaves the path of a ROM to load. -/
def requestLoad (h : Shared) (rom : Path) : Shared :=
  { h with requests := { h.requests with rom := h.requests.rom.set rom } }

/-- Leaves a mode change. -/
def requestChange (h : Shared) (mode : ModeChange) : Shared :=
  { h with requests := h.requests.change mode }

/-- Stores the pause flag. -/
def storePaused (h : Shared) (paused : Bool) : Shared :=
  { h with paused }

/-- Says that the loop is to end. -/
def requestStop (h : Shared) : Shared :=
  { h with stopping := true }

/-- Counts a notification and wakes the loop. -/
def notify (h : Shared) : Shared :=
  { h with gate := h.gate.notify }

end Shared

namespace Scheduler

variable {σ : Type}

/-- Tells the engine its mute state, if there is something to tell. -/
def tellMuted (e : Engine σ) (s : Scheduler σ) : Option Bool → Scheduler σ
  | none => s
  | some muted => (s.order e (.muteAudio muted)).order e (.muteMic muted)

/-- Carries out a change of the mute state, and tells the engine what comes of it. -/
def withAudio (e : Engine σ) (s : Scheduler σ) (change : Audio → Audio × Option Bool) :
    Scheduler σ :=
  let r := change s.shared.audio
  (s.modify fun h => { h with audio := r.1 }).tellMuted e r.2

/-- Stores the pause flag; a pause mutes before anything else happens. -/
def setPaused (e : Engine σ) (s : Scheduler σ) (paused : Bool) : Scheduler σ :=
  let s := s.modify (·.storePaused paused)
  if paused then s.withAudio e Audio.mute else s

/-- What a control does. -/
def control (e : Engine σ) (s : Scheduler σ) (c : Control) : Scheduler σ :=
  let s := s.record (.control c)
  match c with
  | .load rom => (s.modify (·.requestLoad rom)).modify Shared.notify
  | .change mode => s.modify (·.requestChange mode)
  | .pause true => s.setPaused e true
  | .pause false => (s.setPaused e false).modify Shared.notify
  | .shutdown => (s.modify Shared.requestStop).modify Shared.notify
  | .wake => s.modify Shared.notify
  | .takeReady => s.modify fun h => { h with frame := h.frame.takeReady.2 }
  | .bind sink => s.modify fun h => { h with notifier := h.notifier.bind sink }
  | .attach sink => s.modify fun h => { h with notifier := h.notifier.attach sink }
  | .close sink => s.modify fun h => { h with notifier := h.notifier.close sink }
  | .peek => s.modify fun h => { h with frame := h.frame.peek }
  | .observe => s

/-- The controls of a visit, in their order. -/
def controls (e : Engine σ) (s : Scheduler σ) (cs : List Control) : Scheduler σ :=
  cs.foldl (control e) s

end Scheduler
end EmuScheduler
