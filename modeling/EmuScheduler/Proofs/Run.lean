import EmuScheduler.Engine.Scripted
import EmuScheduler.Engine.TestPattern
import EmuScheduler.Proofs.Loop

/-!
# Runs

A run of a scheduler is any order of ticks and controls. Controls come between two ticks, and also
from inside the engine's calls, where the engine of the run decides on them; others may change the
files and the cheat list at any time. After a tick that failed no other follows: the run is
released, as it is when it was told to stop, and controls may still come after that.

`Run e s₀ p s` says that a run which began in `s₀` can come to `s`, where `p` is how it stands: at
`between` all ticks so far have come to an outcome, at `failed error` the last one has failed, at
`broken` it did not come back (the engine gave up in a step, or goes on fast-forwarding), and at
`released error?` the run has ended, with an error or without. `Run.advance` puts the loop as it
runs by itself into these terms.

`Run.reached` is what proofs use: whatever a run comes to, the loop's steps reach.
-/

namespace EmuScheduler

open Scheduler

variable {σ : Type}

/-- **Runs**, by their last event. -/
inductive Run (e : Engine σ) (s₀ : Scheduler σ) : Point → Scheduler σ → Prop
  | start : Run e s₀ .between s₀
  | control {p : Point} {s : Scheduler σ} (hr : Run e s₀ p s) (c : Control) :
      Run e s₀ p (s.control e c)
  | outside {p : Point} {s : Scheduler σ} (hr : Run e s₀ p s) (files : FileTree)
      (cheats : CheatStore) : Run e s₀ p (s.outside files cheats)
  | tick {s s' : Scheduler σ} {r : TickResult} (hr : Run e s₀ .between s) (times : TickTimes)
      (limit : Nat) (h : s.tick e times limit = (r, s')) : Run e s₀ (.ofResult r) s'
  /-- The end of a run that was told to stop. -/
  | stop {s : Scheduler σ} (hr : Run e s₀ .between s) (h : s.shared.stopping = true) :
      Run e s₀ (.released none) (s.release e)
  /-- The end of a run in which a tick failed. -/
  | abort {s : Scheduler σ} {error : SchedulerError} (hr : Run e s₀ (.failed error) s) :
      Run e s₀ (.released (some error)) (s.release e)

/-- The error with which ticking has ended, if it has ended with one. -/
def Point.error? : Point → Option SchedulerError
  | .failed error => some error
  | .stopping error? | .emptying error? | .vanishing error? | .released error? => error?
  | _ => none

/-- Whether a run can stand here: where no tick is going on. -/
def Point.Resting : Point → Prop
  | .between | .failed _ | .broken | .released _ => True
  | _ => False

/-- Where a run stands that has come so far. -/
def Progress.point : Progress → Point
  | .going | .asleep => .between
  | .ended .stopped => .released none
  | .ended (.failed error) => .released (some error)
  | .ended .panicked => .broken
  | .unfinished => .broken

namespace Run

variable {e : Engine σ} {s₀ s : Scheduler σ} {p : Point}

/-- Between the public calls of a run the loop rests. -/
theorem resting (hr : Run e s₀ p s) : p.Resting := by
  induction hr with
  | start | stop | abort => trivial
  | control _ _ ih | outside _ _ _ ih => exact ih
  | @tick _ _ r => cases r <;> trivial

/-- Between its events a run stands where controls can come. -/
theorem isOpen (hr : Run e s₀ p s) : p.Open := by
  have resting := hr.resting
  cases p with
  | between | failed | broken | released => trivial
  | _ => exact resting.elim

/-- **What a run comes to, the loop's steps reach.** -/
theorem reached (hr : Run e s₀ p s) : Reached e s₀ p s := by
  induction hr with
  | start => exact .start
  | control hr c ih => exact ih.control hr.isOpen c
  | outside _ files cheats ih => exact ih.outside files cheats
  | tick _ _ _ h ih => exact ih.tick h
  | stop _ h ih => exact (ih.loop (.stop h)).release
  | abort _ ih => exact (ih.loop .abort).release

/-- A tick that comes back leaves the loop between two ticks. -/
theorem done (hr : Run e s₀ .between s) (times : TickTimes) (limit : Nat) (outcome : TickOutcome)
    (h : (s.tick e times limit).1 = .done outcome) :
    Run e s₀ .between (s.tick e times limit).2 :=
  hr.tick times limit (Prod.ext h rfl)

/-- A tick stops the loop only if the scheduler is to end. -/
theorem stopping_of_tick {s' : Scheduler σ} {times : TickTimes} {limit : Nat}
    (h : s.tick e times limit = (.done .stopping, s')) : s'.shared.stopping = true := by
  obtain ⟨stopping, -, rfl⟩ | ⟨-, p, s₁, -, ends⟩ := tick_cases h
  · exact stopping
  · -- every other way through a tick ends in another outcome, or in none
    obtain ⟨error, -, hr, -⟩ | ⟨-, hc⟩ := ends
    · exact absurd hr nofun
    · obtain ⟨-, hr, -⟩ | ⟨-, ⟨-, hr, -⟩ | ⟨-, how, s₂, -, burst⟩⟩ := runOrPark_cases hc
      · exact absurd hr nofun
      · exact absurd hr nofun
      · obtain ⟨steps, -, hr, -⟩ | ⟨-, hr, -⟩ | ⟨-, hr, -⟩ := burst
        all_goals exact absurd hr nofun

/-- A round of a loop that runs by itself: a tick, and the release after the last one. -/
theorem round (hr : Run e s₀ .between s) (times : TickTimes) (limit : Nat) :
    (s.round e times limit).1 = .unfinished ∨
      Run e s₀ (s.round e times limit).1.point (s.round e times limit).2 := by
  unfold Scheduler.round
  split
  · next s' h =>
    have ticked := hr.tick times limit h
    exact .inr (ticked.stop (stopping_of_tick h))
  · next error s' h => exact .inr (hr.tick times limit h).abort
  · next s' h => exact .inr (hr.tick times limit h)
  · next s' h => exact .inl rfl
  · next outcome s' _ h =>
    -- asleep or not, the run stands between two ticks
    have ticked := hr.tick times limit h
    right
    split <;> exact ticked

/-- **A loop that runs by itself is a run**: it comes to rest between two ticks, or ends as a run
does. -/
theorem advance (hr : Run e s₀ .between s) (clock : Nat → TickTimes) (limit rounds : Nat) :
    (s.advance e clock limit rounds).1 = .unfinished ∨
      Run e s₀ (s.advance e clock limit rounds).1.point (s.advance e clock limit rounds).2 := by
  induction rounds generalizing s with
  | zero => exact .inl rfl
  | succ rounds ih =>
    have turn := hr.round (clock rounds) limit
    unfold Scheduler.advance
    split
    · next s' h =>
      rw [h] at turn
      exact ih (turn.resolve_left (by simp))
    · exact turn

end Run

/-! ### A scheduler to try things with -/

/-- The path `/a`. -/
def sampleRom : Path := .ofString "/a"

/-- Files among which there is that one ROM. -/
def sampleFiles : FileTree where
  entries := [([[97]], .file [])]
  workingDirectory := []
  distinct := by decide

/-- A scheduler that shows the test pattern, where there is one ROM. -/
def sample : Scheduler TestPattern :=
  .start TestPattern.engine {} (.ofString "/w") {} "main" sampleFiles 0

/-- A scheduler whose engine does what a script says, in the same place. -/
def scripted (script : Script) : Scheduler ScriptedEngine :=
  .start ScriptedEngine.engine { script } (.ofString "/w") {} "main" sampleFiles 0

end EmuScheduler
