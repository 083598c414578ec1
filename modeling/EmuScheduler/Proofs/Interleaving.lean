import EmuScheduler.Proofs.Run
import Mathlib.Logic.Function.Basic

/-!
# Controllers beside the loop

Controllers run in threads of their own, so a control can be interrupted: between the store of a
flag and the notification that follows it, or between a pause and the muting that belongs to it,
anything else may happen. This file gives the interleavings. `Control.parts` are the parts of a
control that nothing can interrupt, and `control_eq_parts` says that they make up the control.

A `World` is a scheduler, the place where its loop is, and for each controller what is left of the
control it is in. The names `ι` of the controllers can be any type, so there are as many as one
likes. `World.Step` is one such part of one of the parties:

* the loop makes one of its steps, if it does not sleep;
* an idle controller begins a control of its choice, with the first part of it;
* a controller that is in the middle of a control goes on with the next part;
* others change the files and the cheat list.

Controls from inside the engine's calls need no rule of their own: those are controls that come
while the loop is at such a call. Sleep ends with a notification and with nothing else.
-/

namespace EmuScheduler

open Scheduler

/-- A part of a control that nothing can interrupt. -/
inductive ControlPart where
  | putRom (rom : Path)
  | putMode (mode : ModeChange)
  | storePaused (paused : Bool)
  | storeStop
  | notify
  | mute
  | takeReady
  | bind (sink : Sink)
  | attach (sink : Sink)
  | close (sink : Sink)
  | peek
  deriving DecidableEq, Repr

/-- The parts of a control, in their order. -/
def Control.parts : Control → List ControlPart
  | .load rom => [.putRom rom, .notify]
  | .change mode => [.putMode mode]
  | .pause true => [.storePaused true, .mute]
  | .pause false => [.storePaused false, .notify]
  | .shutdown => [.storeStop, .notify]
  | .wake => [.notify]
  | .takeReady => [.takeReady]
  | .bind sink => [.bind sink]
  | .attach sink => [.attach sink]
  | .close sink => [.close sink]
  | .peek => [.peek]
  | .observe => []

namespace Scheduler

variable {σ : Type} (e : Engine σ)

/-- What a part does. -/
def runPart (s : Scheduler σ) : ControlPart → Scheduler σ
  | .putRom rom => s.modify (·.requestLoad rom)
  | .putMode mode => s.modify (·.requestChange mode)
  | .storePaused paused => s.modify (·.storePaused paused)
  | .storeStop => s.modify Shared.requestStop
  | .notify => s.modify Shared.notify
  | .mute => s.withAudio e Audio.mute
  | .takeReady => s.modify fun h => { h with frame := h.frame.takeReady.2 }
  | .bind sink => s.modify fun h => { h with notifier := h.notifier.bind sink }
  | .attach sink => s.modify fun h => { h with notifier := h.notifier.attach sink }
  | .close sink => s.modify fun h => { h with notifier := h.notifier.close sink }
  | .peek => s.modify fun h => { h with frame := h.frame.peek }

/-- What some parts do, one after the other. -/
def runParts (s : Scheduler σ) (xs : List ControlPart) : Scheduler σ :=
  xs.foldl (runPart e) s

/-- **A control that nobody interrupts is its parts.** -/
theorem control_eq_parts (s : Scheduler σ) (c : Control) :
    s.control e c = (s.record (.control c)).runParts e c.parts := by
  cases c with
  | pause paused => cases paused <;> rfl
  | _ => rfl

/-- Where it is interrupted makes no difference, if nothing comes between. -/
theorem control_eq_drop_take (s : Scheduler σ) (c : Control) (n : Nat) :
    ((s.record (.control c)).runParts e (c.parts.take n)).runParts e (c.parts.drop n) =
      s.control e c := by
  rw [control_eq_parts]
  unfold runParts
  rw [← List.foldl_append, List.take_append_drop]

end Scheduler

/-- A scheduler with its loop at work and its controllers in the middle of their controls. -/
structure World (ι σ : Type) where
  point : Point
  scheduler : Scheduler σ
  /-- What is left of the control that a controller is in. -/
  todo : ι → List ControlPart

namespace World

variable {ι σ : Type}

/-- Before the loop and the controllers begin. -/
def start (s : Scheduler σ) : World ι σ where
  point := .between
  scheduler := s
  todo _ := []

/-- Whether the loop sleeps. -/
def asleep (w : World ι σ) : Bool :=
  w.scheduler.shared.gate.asleep

variable [DecidableEq ι]

/-- **The steps of a world.** -/
inductive Step (e : Engine σ) : World ι σ → World ι σ → Prop
  | loop {w : World ι σ} {p : Point} {s : Scheduler σ} (awake : w.asleep = false)
      (h : Loop e w.point w.scheduler p s) :
      Step e w { w with point := p, scheduler := s }
  | call {w : World ι σ} (i : ι) (c : Control) (idle : w.todo i = []) :
      Step e w
        { w with
          scheduler := (w.scheduler.record (.control c)).runParts e (c.parts.take 1)
          todo := Function.update w.todo i (c.parts.drop 1) }
  | act {w : World ι σ} {i : ι} {x : ControlPart} {rest : List ControlPart}
      (next : w.todo i = x :: rest) :
      Step e w
        { w with
          scheduler := w.scheduler.runPart e x
          todo := Function.update w.todo i rest }
  | outside {w : World ι σ} (files : FileTree) (cheats : CheatStore) :
      Step e w { w with scheduler := w.scheduler.outside files cheats }

/-- **What a world that began as `w₀` can come to**, in any order of steps. -/
inductive Reachable (e : Engine σ) (w₀ : World ι σ) : World ι σ → Prop
  | start : Reachable e w₀ w₀
  | step {w w' : World ι σ} (hr : Reachable e w₀ w) (hs : Step e w w') : Reachable e w₀ w'

/-- What is reached from a world that is reached. -/
theorem Reachable.trans {e : Engine σ} {w₀ w w' : World ι σ} (hr : Reachable e w₀ w)
    (hr' : Reachable e w w') : Reachable e w₀ w' := by
  induction hr' with
  | start => exact hr
  | step _ hs ih => exact ih.step hs

end World
end EmuScheduler
