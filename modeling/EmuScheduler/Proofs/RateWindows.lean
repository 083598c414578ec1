import EmuScheduler.Frame.Rate
import Mathlib.Algebra.Ring.Nat

/-!
# Rate windows tile a run

A rate window is restarted and sampled with any totals and at any moments, also at one that comes
before the last. A `RateLog` is what the calls since the last restart come to: the totals that they
gave, each window that a sample completed, with the moment and the total at which it ended, and the
window that is open.

A sample leaves the window open until a second has passed since its start, and completes it from
then on (`sample_of_short`, `sample_of_whole`). The next window starts where the complete one ended.
So the complete windows and the open one tile the time since the restart whatever the calls are, and
the frames since the restart if the totals do not fall (`RateLog.Tiled`, `windows_tile`).

Frames are numbered as they are counted. A window that starts with `n` frames and ends with `m` has
the frames from number `n` to `m - 1` in it, and none if `m` is less than `n`.
-/

namespace EmuScheduler

/-- What can be done with a rate window. -/
inductive RateCall where
  /-- Drops the window for a new one, as when a ROM was accepted. -/
  | restart (now total : Nat)
  | sample (now total : Nat)
  deriving DecidableEq, Repr

namespace RateWindow

variable {w : RateWindow} {now total : Nat}

/-- The numbers of the frames that are in the window when there are `total` of them. -/
def frames (w : RateWindow) (total : Nat) : List Nat :=
  List.range' w.framesAtStart (w.measured total)

/-- The time that a window has lasted, where the clock may have gone back. -/
theorem elapsed_eq (w : RateWindow) (now : Nat) :
    (w.elapsed now : Int) = max 0 ((now : Int) - w.started) := by
  unfold elapsed
  omega

/-- The frames since the window began, where the count may have fallen. -/
theorem measured_eq (w : RateWindow) (total : Nat) :
    (w.measured total : Int) = max 0 ((total : Int) - w.framesAtStart) := by
  unfold measured
  omega

/-- Two windows that meet have the frames of the one that spans both. -/
theorem frames_append {middle : Nat} (started : w.framesAtStart ≤ middle) (grown : middle ≤ total)
    (now : Nat) : w.frames middle ++ frames ⟨now, middle⟩ total = w.frames total := by
  have between : w.measured middle + measured ⟨now, middle⟩ total = w.measured total := by
    unfold measured
    dsimp only
    omega
  have meet : w.framesAtStart + w.measured middle = middle := by
    unfold measured
    omega
  rw [frames, frames, frames, ← between, ← List.range'_append_1, meet]

/-- A window that is not whole goes on, and gives no rate. -/
theorem sample_of_short (short : w.elapsed now < windowSpan) : w.sample now total = (none, w) := by
  rw [sample, if_pos short]

/-- A whole window gives its rate, and the next one begins where it ends. -/
theorem sample_of_whole (whole : windowSpan ≤ w.elapsed now) :
    w.sample now total =
      (some (framesPerSecond (w.measured total) (w.elapsed now)), ⟨now, total⟩) := by
  rw [sample, if_neg (Nat.not_lt.2 whole)]

/-- A sample gives no rate just when the window is short. -/
theorem sample_eq_none_iff : w.sample now total = (none, w) ↔ w.elapsed now < windowSpan := by
  refine ⟨fun unanswered => Nat.lt_of_not_le fun whole => ?_, sample_of_short⟩
  rw [sample_of_whole whole] at unanswered
  exact absurd (Prod.mk.inj unanswered).1 nofun

end RateWindow

/-- A window that a sample completed. -/
structure CompletedWindow where
  window : RateWindow
  /-- When it ended. -/
  ended : Nat
  /-- The frames that there were then. -/
  total : Nat
  /-- The answer of the sample. -/
  rate : UInt32
  deriving DecidableEq, Repr

namespace CompletedWindow

/-- How long the window was, in nanoseconds. -/
def elapsed (c : CompletedWindow) : Nat :=
  c.window.elapsed c.ended

/-- How many frames were measured in it. -/
def measured (c : CompletedWindow) : Nat :=
  c.window.measured c.total

/-- Which frames are in it. -/
def frames (c : CompletedWindow) : List Nat :=
  c.window.frames c.total

/-- It took a second at least, and its rate is that of its frames over its time. -/
structure Whole (c : CompletedWindow) : Prop where
  long : windowSpan ≤ c.elapsed
  rate : c.rate = framesPerSecond c.measured c.elapsed

theorem length_frames (c : CompletedWindow) : c.frames.length = c.measured :=
  List.length_range'

end CompletedWindow

/-- What the calls since the last restart come to. -/
structure RateLog where
  /-- The window as it was restarted. -/
  origin : RateWindow
  /-- The totals of the samples since then, oldest first. -/
  totals : List Nat := []
  /-- The windows that the samples completed, oldest first. -/
  completed : List CompletedWindow := []
  /-- The window that is open. -/
  window : RateWindow
  deriving DecidableEq, Repr

namespace RateLog

open RateWindow

variable {l : RateLog}

/-- A window that starts. -/
def start (w : RateWindow) : RateLog :=
  { origin := w, window := w }

/-- One more call. -/
def call (l : RateLog) : RateCall → RateLog
  | .restart now total => start ⟨now, total⟩
  | .sample now total =>
    let answer := l.window.sample now total
    { l with
      totals := l.totals ++ [total]
      completed := l.completed ++ (answer.1.map fun rate => ⟨l.window, now, total, rate⟩).toList
      window := answer.2 }

/-- What some calls come to that are made to a window, one after the other. -/
def after (w : RateWindow) (calls : List RateCall) : RateLog :=
  calls.foldl call (start w)

/-- The total at the restart and those of the samples since then. -/
def counts (l : RateLog) : List Nat :=
  l.origin.framesAtStart :: l.totals

/-- The complete windows, one after the other, lead from the restart to the open window. -/
structure Tiled (l : RateLog) : Prop where
  /-- The open window started with a total that was given. -/
  start_mem : l.window.framesAtStart ∈ l.counts
  whole : ∀ c ∈ l.completed, c.Whole
  elapsed : l.origin.started + (l.completed.map (·.elapsed)).sum = l.window.started
  /-- If the totals do not fall, no frame is skipped or counted twice. -/
  frames : l.counts.Pairwise (· ≤ ·) →
    l.completed.flatMap (·.frames) = l.origin.frames l.window.framesAtStart

/-- Where no window was completed there is nothing to cover. -/
theorem tiled_start (w : RateWindow) : (start w).Tiled where
  start_mem := List.mem_singleton_self _
  whole := nofun
  elapsed := rfl
  frames _ := by
    rw [start, RateWindow.frames, measured, Nat.sub_self]
    rfl

/-- The start of the open window lies between the restart and every later total. -/
theorem Tiled.ordered (tiled : l.Tiled) {total : Nat}
    (rising : (l.counts ++ [total]).Pairwise (· ≤ ·)) :
    l.counts.Pairwise (· ≤ ·) ∧ l.origin.framesAtStart ≤ l.window.framesAtStart ∧
      l.window.framesAtStart ≤ total := by
  obtain ⟨before, -, below⟩ := List.pairwise_append.1 rising
  refine ⟨before, ?_, below _ tiled.start_mem _ (List.mem_singleton_self total)⟩
  obtain same | later := List.mem_cons.1 tiled.start_mem
  · exact Nat.le_of_eq same.symm
  · exact (List.pairwise_cons.1 before).1 _ later

/-- With the frames that are in it now, the open window completes those since the restart. -/
theorem Tiled.frames_now (tiled : l.Tiled) {total : Nat}
    (rising : (l.counts ++ [total]).Pairwise (· ≤ ·)) :
    l.completed.flatMap (·.frames) ++ l.window.frames total = l.origin.frames total := by
  obtain ⟨before, started, grown⟩ := tiled.ordered rising
  rw [tiled.frames before]
  exact frames_append started grown l.window.started

/-- A sample that is too early only adds its total. -/
theorem Tiled.short (tiled : l.Tiled) (total : Nat) :
    Tiled { l with totals := l.totals ++ [total] } where
  start_mem := List.mem_append_left [total] tiled.start_mem
  whole := tiled.whole
  elapsed := tiled.elapsed
  frames rising := tiled.frames (tiled.ordered rising).1

/-- A window that is complete leads to the one that opens at its end. -/
theorem Tiled.complete (tiled : l.Tiled) {c : CompletedWindow} (same : c.window = l.window)
    (whole : c.Whole) :
    Tiled { l with
      totals := l.totals ++ [c.total]
      completed := l.completed ++ [c]
      window := ⟨c.ended, c.total⟩ } := by
  refine ⟨List.mem_append_right l.counts (List.mem_singleton_self c.total), ?_, ?_, ?_⟩
  · intro d hd
    obtain old | new := List.mem_append.1 hd
    · exact tiled.whole d old
    · exact List.mem_singleton.1 new ▸ whole
  · -- a complete window ends after its start, so its length is no truncated difference
    have length : c.elapsed = c.ended - l.window.started := by
      rw [CompletedWindow.elapsed, same, RateWindow.elapsed]
    have positive : 0 < c.elapsed := Nat.lt_of_lt_of_le (by decide) whole.long
    have later : l.window.started + c.elapsed = c.ended := by omega
    calc l.origin.started + ((l.completed ++ [c]).map (·.elapsed)).sum
        = l.origin.started + (l.completed.map (·.elapsed)).sum + c.elapsed := by
          rw [List.map_append, List.sum_append, List.map_singleton, List.sum_singleton,
            Nat.add_assoc]
      _ = l.window.started + c.elapsed := by rw [tiled.elapsed]
      _ = c.ended := later
  · intro rising
    rw [List.flatMap_append, List.flatMap_singleton, CompletedWindow.frames, same]
    exact tiled.frames_now rising

/-- **One call keeps the tiling.** -/
theorem Tiled.call (tiled : l.Tiled) (c : RateCall) : (l.call c).Tiled := by
  cases c with
  | restart now total => exact tiled_start ⟨now, total⟩
  | sample now total =>
    -- a sample either leaves the window or completes it
    obtain short | whole := Nat.lt_or_ge (l.window.elapsed now) windowSpan
    · rw [RateLog.call, sample_of_short short]
      dsimp only [Option.map_none, Option.toList_none]
      rw [List.append_nil]
      exact tiled.short total
    · have done : CompletedWindow.Whole ⟨l.window, now, total,
          framesPerSecond (l.window.measured total) (l.window.elapsed now)⟩ := ⟨whole, rfl⟩
      rw [RateLog.call, sample_of_whole whole]
      exact tiled.complete rfl done

/-- Every run of calls keeps it. -/
theorem tiled_after (w : RateWindow) (calls : List RateCall) : (after w calls).Tiled := by
  suffices kept : ∀ l : RateLog, l.Tiled → (calls.foldl call l).Tiled from kept _ (tiled_start w)
  induction calls with
  | nil => exact fun l tiled => tiled
  | cons c calls ih => exact fun l tiled => ih _ (tiled.call c)

/-- **Rate windows tile a run.** After any calls to any window:

* A sample has no answer and changes nothing if and only if less than a second has passed since the
  window started, where a moment before that counts as its start. Otherwise it answers with the rate
  of the frames since the start over the time since then, which is a second at least, and a window
  opens there. Fewer frames than at the start count as none.
* Since the last restart, each complete window took a second at least, its rate is that of its
  frames over its time, and the times of the complete windows add up to the time from the restart to
  the start of the open window.
* If the totals since then did not fall, the frames of the complete windows and of the open one are
  the frames since the restart, each of them once and in their order. -/
theorem windows_tile (w : RateWindow) (calls : List RateCall) (now total : Nat) :
    let l := after w calls
    (l.window.sample now total = (none, l.window) ↔
        max 0 ((now : Int) - l.window.started) < windowSpan) ∧
      (windowSpan ≤ max 0 ((now : Int) - l.window.started) →
        windowSpan ≤ l.window.elapsed now ∧
          l.window.sample now total =
            (some (framesPerSecond (l.window.measured total) (l.window.elapsed now)),
              ⟨now, total⟩)) ∧
      (l.window.elapsed now : Int) = max 0 ((now : Int) - l.window.started) ∧
      (l.window.measured total : Int) = max 0 ((total : Int) - l.window.framesAtStart) ∧
      (∀ c ∈ l.completed, c.Whole) ∧
      l.origin.started + (l.completed.map (·.elapsed)).sum = l.window.started ∧
      ((l.counts ++ [total]).Pairwise (· ≤ ·) →
        l.completed.flatMap (·.frames) ++ l.window.frames total = l.origin.frames total ∧
          l.origin.framesAtStart +
            ((l.completed.map (·.measured)).sum + l.window.measured total) = total) := by
  intro l
  have tiled : l.Tiled := tiled_after w calls
  have span := elapsed_eq l.window now
  refine ⟨?_, fun late => ?_, span, measured_eq l.window total, tiled.whole, tiled.elapsed,
    fun rising => ?_⟩
  · rw [sample_eq_none_iff, ← span, Int.ofNat_lt]
  · rw [← span, Int.ofNat_le] at late
    exact ⟨late, sample_of_whole late⟩
  · -- the counts rise, so every frame since the origin is in one window or in the one that goes on
    have all := tiled.frames_now rising
    refine ⟨all, ?_⟩
    obtain ⟨-, started, grown⟩ := tiled.ordered rising
    have count := congrArg List.length all
    rw [List.length_append, List.length_flatMap, RateWindow.frames, RateWindow.frames,
      List.length_range', List.length_range'] at count
    simp only [CompletedWindow.length_frames] at count
    rw [count, measured]
    omega

/-- After a restart come a sample that is too early, one at a moment before the start, and two that
complete a window. -/
theorem windows_tile_restarted :
    let calls : List RateCall := [.sample 2000000000 120, .restart 5000000000 500,
      .sample 5500000000 530, .sample 4000000000 535, .sample 6000000000 560,
      .sample 7500000000 700]
    let l := after ⟨0, 0⟩ calls
    l.completed.map (·.measured) = [60, 140] ∧
      l.completed.map (·.elapsed) = [1000000000, 1500000000] ∧
      l.counts = [500, 530, 535, 560, 700] ∧ l.window = ⟨7500000000, 700⟩ ∧
      l.window.sample 8000000000 730 = (none, l.window) ∧
      500 + ((l.completed.map (·.measured)).sum + l.window.measured 730) = 730 ∧
      l.completed.flatMap (·.frames) ++ l.window.frames 730 = List.range' 500 230 := by
  intro calls l
  obtain ⟨silent, -, -, -, -, -, tiles⟩ := windows_tile ⟨0, 0⟩ calls 8000000000 730
  -- the counts before the restart are no concern of the windows after it
  have rising : (l.counts ++ [730]).Pairwise (· ≤ ·) := by decide
  obtain ⟨frames, count⟩ := tiles rising
  exact ⟨rfl, rfl, rfl, rfl, silent.2 (by decide), count, frames⟩

end RateLog
end EmuScheduler
