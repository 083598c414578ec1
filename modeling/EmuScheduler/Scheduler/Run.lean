import EmuScheduler.Scheduler.Tick

/-!
# Running a scheduler

The loop ticks until it is told to stop or a tick fails, and then releases the engine. `advance`
takes it to the next moment at which it does nothing by itself: asleep, or at its end. `play` runs
it with a controller that waits for such moments (`Cue`).
-/

namespace EmuScheduler

/-- How a run ends. -/
inductive RunEnd where
  | stopped
  | failed (error : SchedulerError)
  /-- The engine gave up, and the loop with it. -/
  | panicked
  deriving DecidableEq, Repr

/-- How far a run has come. -/
inductive Progress where
  /-- The next round is due. -/
  | going
  | asleep
  | ended (how : RunEnd)
  /-- The rounds or steps that were allowed are used up. -/
  | unfinished
  deriving DecidableEq, Repr

/-- The error that a run ends with, if it is one. -/
def RunEnd.error? : RunEnd → Option SchedulerError
  | .stopped => none
  | .failed error => some error
  | .panicked => some .threadPanicked

/-- A moment that a controller waits for, and what it does then. -/
structure Cue (σ : Type) where
  phase : Phase
  /-- The least number of engine calls and observations since the beginning. -/
  calls : Nat
  act : Scheduler σ → Scheduler σ

namespace Scheduler

variable {σ : Type}

/-- Releases the engine at the end of a run. -/
def release (e : Engine σ) (s : Scheduler σ) : Scheduler σ :=
  (((s.publish .stopping).modify Shared.requestStop).closeRom e).publish .stopped

/-- One round of the loop, of at most `limit` steps. -/
def round (e : Engine σ) (times : TickTimes) (limit : Nat) (s : Scheduler σ) :
    Progress × Scheduler σ :=
  match s.tick e times limit with
  | (.done .stopping, s) => (.ended .stopped, s.release e)
  | (.failed error, s) => (.ended (.failed error), s.release e)
  | (.panicked, s) => (.ended .panicked, s)
  | (.unfinished, s) => (.unfinished, s)
  | (.done _, s) => (if s.shared.gate.asleep then .asleep else .going, s)

/-- Runs the loop until it sleeps or ends, for at most so many rounds. `clock n` says when the
round takes place that leaves `n` more. -/
def advance (e : Engine σ) (clock : Nat → TickTimes) (limit : Nat) :
    Nat → Scheduler σ → Progress × Scheduler σ
  | 0, s => (.unfinished, s)
  | rounds + 1, s =>
    match s.round e (clock rounds) limit with
    | (.going, s) => advance e clock limit rounds s
    | r => r

/-- The engine calls and observations so far. -/
def callCount (s : Scheduler σ) : Nat :=
  s.history.countP fun entry =>
    match entry.action with
    | .call _ | .control .observe => true
    | _ => false

/-- Whether the moment of a cue has come, `since` calls being those before the beginning. -/
def meets (s : Scheduler σ) (since : Nat) (cue : Cue σ) : Bool :=
  s.shared.phase = cue.phase && since + cue.calls ≤ s.callCount

/-- What a controller does at its cues, one after the other; `advance` takes the loop on when it
was woken. A cue whose moment does not come holds up all those behind it. -/
def follow (advance : Scheduler σ → Progress × Scheduler σ) (since : Nat) :
    List (Cue σ) → Progress × Scheduler σ → Progress × Scheduler σ
  | [], r => r
  | cue :: cues, (progress, s) =>
    if s.meets since cue then
      let s := cue.act s
      if progress = .asleep && !s.shared.gate.asleep then follow advance since cues (advance s)
      else follow advance since cues (progress, s)
    else (.unfinished, s)

/-- Runs the loop with a controller that acts at its cues. -/
def play (e : Engine σ) (clock : Nat → TickTimes) (limit rounds : Nat) (cues : List (Cue σ))
    (s : Scheduler σ) : Progress × Scheduler σ :=
  let advance := advance e clock limit rounds
  follow advance s.callCount cues (advance s)

end Scheduler
end EmuScheduler
