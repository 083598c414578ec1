import EmuScheduler.Proofs.History
import EmuScheduler.Proofs.Run
import Mathlib.Algebra.Ring.Nat
import Mathlib.Data.UInt
import Mathlib.Logic.Function.Iterate

/-!
# Frames, steps and the frame lock

A tick that has something to run takes the frame lock, steps the engine until it does not
fast-forward any more, gives the lock back and only then makes the frame known. A tick that does
anything else leaves the frame, its lock and the count alone. `frame_accounting` states both of
every tick of every run that comes back, and what follows for whole runs: the frames that
controllers read are the steps of the finished frames and also the steps that the engine was asked
for, and the lock was taken once for each finished frame and once for each look of a controller.

Steps, frames and holds of the lock are counted in 64 bits, and after the last number comes zero.
What happened is counted by natural numbers (`stepCount`, `looks`), and `UInt64.ofNat` takes those
to what a counter holds.

What controllers do in the middle of a tick is theirs. A look from inside a load takes the lock like
any other look, and a controller may fetch the frame that waits; both are read off the entries that
the tick adds to the history (`looks`, `fetched`).

Two relations carry the proof. `Spell s s' new` says that no frame was finished between `s` and `s'`
and that the lock did not change hands, `Still s s' new` that moreover the engine was not asked to
step. The preamble of a tick is still (`still_of_preamble`), a burst is a spell
(`spell_afterSteps`).
-/

namespace EmuScheduler

open Scheduler

variable {σ : Type}

/-! ### Reading frames -/

/-- The steps of the frame that an action makes known, if it makes one known. -/
def Action.presented? : Action → Option UInt64
  | .present steps => some steps
  | _ => none

/-- The steps of each finished frame, newest first. -/
def presented (h : List Entry) : List UInt64 :=
  h.filterMap (·.action.presented?)

/-- How many steps the engine was asked for. -/
def stepCount (h : List Entry) : Nat :=
  (calls h).count .step

/-- How often a controller got hold of the frame lock, which is whenever nobody else held it. -/
def looks (h : List Entry) : Nat :=
  h.countP fun x => x.action = .control .peek ∧ x.view.held = false

/-- Whether a controller fetched what was finished. -/
def fetched (h : List Entry) : Bool :=
  h.any fun x => x.action = .control .takeReady

/-- Whether a finished frame waits to be fetched. -/
def frameWaits : List Entry → Bool
  | [] => false
  | x :: older =>
    match x.action with
    | .present _ => true
    | .control .takeReady => false
    | _ => frameWaits older

section Append

variable (new h : List Entry)

@[simp] theorem presented_append : presented (new ++ h) = presented new ++ presented h :=
  List.filterMap_append

/-- Steps add up; so do looks, and the frames are listed one after the other. -/
@[simp] theorem stepCount_append : stepCount (new ++ h) = stepCount new + stepCount h := by
  unfold stepCount
  rw [calls_append, List.count_append]

@[simp] theorem looks_append : looks (new ++ h) = looks new + looks h :=
  List.countP_append

@[simp] theorem fetched_append : fetched (new ++ h) = (fetched new || fetched h) :=
  List.any_append

variable {new}

/-- While no frame is finished, the one that waits waits until it is fetched. -/
theorem frameWaits_append (hn : presented new = []) :
    frameWaits (new ++ h) = (frameWaits h && !fetched new) := by
  induction new with
  | nil => simp [fetched]
  | cons x new ih =>
    obtain ⟨action, v⟩ := x
    cases action with
    | present steps => exact absurd hn (List.cons_ne_nil _ _)
    | control c =>
      cases c with
      | takeReady =>
        -- only a fetch ends the wait
        change false = _
        simp [fetched]
      | _ =>
        rw [← show fetched new = fetched (⟨.control _, v⟩ :: new) by simp [fetched]]
        exact ih hn
    | _ =>
      rw [← show fetched new = fetched (⟨_, v⟩ :: new) by simp [fetched]]
      exact ih hn

end Append

/-! ### While no frame is finished -/

/-- From `s` to `s'` no frame was finished and the frame lock did not change hands; `new` is what
happened. -/
structure Spell (s s' : Scheduler σ) (new : List Entry) : Prop where
  history : s'.history = new ++ s.history
  unfinished : presented new = []
  /-- Whoever looks on the way reads the count of before and finds the lock as it was. -/
  seen : ∀ x ∈ new, x.view.frames = s.shared.counter.frames ∧ x.view.held = s.shared.frame.held
  frames : s'.shared.counter.frames = s.shared.counter.frames
  held : s'.shared.frame.held = s.shared.frame.held
  acquisitions : s'.shared.frame.acquisitions = s.shared.frame.acquisitions + .ofNat (looks new)
  ready : s'.shared.frame.ready = (s.shared.frame.ready && !fetched new)

/-- From `s` to `s'` moreover the engine was not asked to step, and the frame is the same. -/
structure Still (s s' : Scheduler σ) (new : List Entry) : Prop extends Spell s s' new where
  unstepped : stepCount new = 0
  buffer : s'.shared.frame.buffer = s.shared.frame.buffer

/-- Whether an action has nothing to do with frames. -/
def Action.isFrameless : Action → Bool
  | .present _ | .call .step | .control .peek | .control .takeReady => false
  | _ => true

/-- One action that has nothing to do with frames. -/
theorem frameless_singleton {x : Entry} (hx : x.action.isFrameless = true) :
    presented [x] = [] ∧ stepCount [x] = 0 ∧ looks [x] = 0 ∧ fetched [x] = false := by
  obtain ⟨action, v⟩ := x
  cases action with
  | present => exact absurd hx Bool.false_ne_true
  | control c =>
    cases c with
    | peek | takeReady => exact absurd hx Bool.false_ne_true
    | _ => exact ⟨rfl, rfl, rfl, rfl⟩
  | call c =>
    cases c with
    | step => exact absurd hx Bool.false_ne_true
    | _ => exact ⟨rfl, rfl, rfl, rfl⟩
  | _ => exact ⟨rfl, rfl, rfl, rfl⟩

/-- Actions that have nothing to do with frames change none of the counts. -/
theorem frameless {new : List Entry} (hn : ∀ x ∈ new, x.action.isFrameless = true) :
    presented new = [] ∧ stepCount new = 0 ∧ looks new = 0 ∧ fetched new = false := by
  induction new with
  | nil => exact ⟨rfl, rfl, rfl, rfl⟩
  | cons x new ih =>
    obtain ⟨hp, hs, hl, hf⟩ := frameless_singleton (hn x List.mem_cons_self)
    obtain ⟨ihp, ihs, ihl, ihf⟩ := ih fun y hy => hn y (List.mem_cons_of_mem x hy)
    rw [← List.singleton_append, presented_append, stepCount_append, looks_append,
      fetched_append, hp, hs, hl, hf]
    exact ⟨ihp, by rw [ihs], by rw [ihl], ihf⟩

section Still

variable {s s₁ s' : Scheduler σ} {new old : List Entry} {x : Entry}

/-- One spell after another. -/
theorem Spell.trans (h : Spell s s₁ old) (h' : Spell s₁ s' new) : Spell s s' (new ++ old) where
  history := by rw [h'.history, h.history, List.append_assoc]
  unfinished := by rw [presented_append, h'.unfinished, h.unfinished, List.append_nil]
  seen y hy := by
    -- who looks in the second spell reads the count that the first one left as it was
    obtain hy | hy := List.mem_append.mp hy
    · rw [← h.frames, ← h.held]
      exact h'.seen y hy
    · exact h.seen y hy
  frames := h'.frames.trans h.frames
  held := h'.held.trans h.held
  acquisitions := by
    rw [h'.acquisitions, h.acquisitions, UInt64.add_assoc, ← UInt64.ofNat_add, looks_append,
      Nat.add_comm]
  ready := by
    rw [h'.ready, h.ready, fetched_append, Bool.not_or, Bool.and_assoc, Bool.and_comm (!_)]

theorem Still.trans (h : Still s s₁ old) (h' : Still s₁ s' new) : Still s s' (new ++ old) where
  toSpell := h.toSpell.trans h'.toSpell
  unstepped := by rw [stepCount_append, h'.unstepped, h.unstepped]
  buffer := h'.buffer.trans h.buffer

/-- What has nothing to do with frames and leaves them alone. -/
theorem Still.of_frameless (hh : s'.history = new ++ s.history)
    (hn : ∀ x ∈ new, x.action.isFrameless = true)
    (hv : ∀ x ∈ new, x.view.frames = s.shared.counter.frames ∧
      x.view.held = s.shared.frame.held)
    (hf : s'.shared.frame = s.shared.frame) (hc : s'.shared.counter = s.shared.counter) :
    Still s s' new := by
  obtain ⟨unfinished, unstepped, unseen, unfetched⟩ := frameless hn
  refine ⟨⟨hh, unfinished, hv, by rw [hc], by rw [hf], ?_, ?_⟩, unstepped, by rw [hf]⟩
  · rw [hf, unseen]
    exact (UInt64.add_zero _).symm
  · rw [hf, unfetched, Bool.not_false, Bool.and_true]

/-- A step that adds nothing to the history is still if it leaves the frame and the count alone. -/
theorem Still.same (hh : s'.history = s.history) (hf : s'.shared.frame = s.shared.frame)
    (hc : s'.shared.counter = s.shared.counter) : Still s s' [] :=
  .of_frameless hh (fun _ hx => absurd hx List.not_mem_nil)
    (fun _ hx => absurd hx List.not_mem_nil) hf hc

/-- So is one that adds an entry that has nothing to do with frames. -/
theorem Still.one (hh : s'.history = x :: s.history) (hx : x.action.isFrameless = true)
    (hv : x.view.frames = s.shared.counter.frames ∧ x.view.held = s.shared.frame.held)
    (hf : s'.shared.frame = s.shared.frame) (hc : s'.shared.counter = s.shared.counter) :
    Still s s' [x] :=
  .of_frameless hh (fun _ hy => List.mem_singleton.mp hy ▸ hx)
    (fun _ hy => List.mem_singleton.mp hy ▸ hv) hf hc

variable (e : Engine σ)

/-- To tell the engine its mute state has nothing to do with frames. -/
theorem still_tellMuted (s : Scheduler σ) (t : Option Bool) :
    Still s (s.tellMuted e t) (toldEntries s.view t) := by
  refine .of_frameless (tellMuted_history ..) (fun x hx => ?_) (fun x hx => ?_)
    (by rw [tellMuted_shared]) (by rw [tellMuted_shared])
  · obtain ⟨muted, rfl | rfl⟩ := mem_told hx <;> rfl
  · obtain ⟨muted, rfl | rfl⟩ := mem_told hx <;> exact ⟨rfl, rfl⟩

/-- So a section of the audio lock leaves them alone. -/
theorem still_withAudio (s : Scheduler σ) (change : Audio → Audio × Option Bool) :
    ∃ new, Still s (s.withAudio e change) new := by
  have changed : Still s (s.modify fun h => { h with audio := (change s.shared.audio).1 }) [] :=
    .same rfl rfl rfl
  exact ⟨_, changed.trans (still_tellMuted e _ _)⟩

/-- What a control makes of the frame is in its own entry. -/
theorem still_control (s : Scheduler σ) (c : Control) : ∃ new, Still s (s.control e c) new := by
  rw [control_eq]
  have recorded :
      Still s ((s.record (.control c)).modify (·.control c)) [⟨.control c, s.view⟩] := by
    cases c with
    | peek =>
      -- the lock is taken and given back at once, or it is held and nothing happens
      have looked : looks [⟨.control .peek, s.view⟩] = if s.shared.frame.held then 0 else 1 := by
        unfold looks
        rw [List.countP_singleton]
        cases hl : s.shared.frame.held <;> simp [view, Shared.view, hl]
      have frame : ((s.record (.control .peek)).modify (·.control .peek)).shared.frame =
          s.shared.frame.peek := rfl
      refine ⟨⟨rfl, rfl, ?_, rfl, ?_, ?_, ?_⟩, rfl, ?_⟩
      · exact fun x hx => List.mem_singleton.mp hx ▸ ⟨rfl, rfl⟩
      · rw [frame, FrameLock.peek_eq]
      · rw [frame, FrameLock.peek_eq, looked]
        split <;> rfl
      · rw [frame, FrameLock.peek_eq]
        exact (Bool.and_true _).symm
      · rw [frame, FrameLock.peek_eq]
    | takeReady =>
      refine ⟨⟨rfl, rfl, ?_, rfl, rfl, (UInt64.add_zero _).symm, ?_⟩, rfl, rfl⟩
      · exact fun x hx => List.mem_singleton.mp hx ▸ ⟨rfl, rfl⟩
      · exact (Bool.and_false _).symm
    | pause paused => cases paused <;> exact .one rfl rfl ⟨rfl, rfl⟩ rfl rfl
    | _ => exact .one rfl rfl ⟨rfl, rfl⟩ rfl rfl
  exact ⟨_, recorded.trans (still_tellMuted e _ _)⟩

/-- Controls leave the frame alone, but for looks and fetches, which are recorded. -/
theorem still_controls (s : Scheduler σ) (cs : List Control) :
    ∃ new, Still s (s.controls e cs) new := by
  -- each control is still, and what one adds comes before what the next one does
  induction cs generalizing s with
  | nil => exact ⟨[], .same rfl rfl rfl⟩
  | cons c cs ih =>
    obtain ⟨old, first⟩ := still_control e s c
    obtain ⟨new, rest⟩ := ih (s.control e c)
    exact ⟨_, first.trans rest⟩

variable {e}

/-- To close the ROM has nothing to do with frames. -/
theorem still_closeRom (s : Scheduler σ) : ∃ new, Still s (s.closeRom e) new := by
  obtain ⟨-, heq⟩ | ⟨-, heq⟩ := closeRom_cases e s
  · rw [heq]
    exact ⟨_, .same rfl rfl rfl⟩
  · rw [heq]
    exact ⟨_, .one rfl rfl ⟨rfl, rfl⟩ rfl rfl⟩

/-- **A step of the preamble leaves the frame alone.** -/
theorem still_of_loop {p p' : Point} (early : p.Early) (hl : Loop e p s p' s') :
    ∃ new, Still s s' new := by
  cases hl with
  | create hc =>
    obtain ⟨files, rfl⟩ := createTree_cases hc
    exact ⟨_, .one rfl rfl ⟨rfl, rfl⟩ rfl rfl⟩
  | purge hc =>
    obtain ⟨files, rfl | ⟨removed, rfl⟩⟩ := purgeImages_cases hc
    · exact ⟨_, .same rfl rfl rfl⟩
    · exact ⟨_, .one rfl rfl ⟨rfl, rfl⟩ rfl rfl⟩
  | engage =>
    -- the engine is told its mute state, and two entries follow
    obtain ⟨new, engaged⟩ := still_withAudio e s Audio.engage
    have prepared : Still (s.withAudio e Audio.engage)
        ((s.withAudio e Audio.engage).record
          (.prepared (WorkingTree.below s.workingDirectory).root)) _ :=
      .one rfl rfl ⟨rfl, rfl⟩ rfl rfl
    exact ⟨_, (engaged.trans prepared).trans (.one rfl rfl ⟨rfl, rfl⟩ rfl rfl)⟩
  | @accept _ rom now =>
    have accepted : Still s (s.record (.accept rom)) _ := .one rfl rfl ⟨rfl, rfl⟩ rfl rfl
    exact ⟨_, accepted.trans (.one rfl rfl ⟨rfl, rfl⟩ rfl rfl)⟩
  | @reject _ rom =>
    have rejected : Still s (s.record (.reject rom)) _ := .one rfl rfl ⟨rfl, rfl⟩ rfl rfl
    have ended : Still (s.record (.reject rom)) ((s.record (.reject rom)).emit (.ended rom)) _ :=
      .one rfl rfl ⟨rfl, rfl⟩ rfl rfl
    exact ⟨_, (rejected.trans ended).trans (.one rfl rfl ⟨rfl, rfl⟩ rfl rfl)⟩
  | close => exact still_closeRom s
  | apply ha =>
    obtain ⟨-, rfl, rfl⟩ | ⟨mode, -, ⟨rfl, rfl⟩ | ⟨rfl, rfl⟩⟩ := applyMode_cases ha
    · exact ⟨_, .same rfl rfl rfl⟩
    · exact ⟨_, .one rfl rfl ⟨rfl, rfl⟩ rfl rfl⟩
    · exact ⟨_, .same rfl rfl rfl⟩
  | skip | setUpEnds | check | noLoad | takeLoad | configured => exact ⟨_, .same rfl rfl rfl⟩
  | direct | setUp | announce | load | configure => exact ⟨_, .one rfl rfl ⟨rfl, rfl⟩ rfl rfl⟩
  | _ => exact early.elim

/-- Until a frame is begun a tick is still. -/
theorem still_of_preamble {p₀ p : Point} (hp : Preamble e p₀ s p s') :
    ∃ new, Still s s' new := by
  induction hp with
  | start => exact ⟨[], .same rfl rfl rfl⟩
  | loop _ early hl ih =>
    obtain ⟨old, before⟩ := ih
    obtain ⟨new, last⟩ := still_of_loop early hl
    exact ⟨_, before.trans last⟩
  | control _ _ _ c ih =>
    obtain ⟨old, before⟩ := ih
    obtain ⟨new, last⟩ := still_control e _ c
    exact ⟨_, before.trans last⟩

end Still

/-! ### Bursts -/

/-- The scheduler after so many steps in a row. -/
def Scheduler.afterSteps (e : Engine σ) (s : Scheduler σ) (n : Nat) : Scheduler σ :=
  (fun s => (s.stepOnce e).2)^[n] s

/-- The engine comes back from each of the first `n` steps, and says after each that the next one is
to follow at once. -/
def FastForwards (e : Engine σ) (s : Scheduler σ) (n : Nat) : Prop :=
  ∀ j < n, ((s.afterSteps e j).stepOnce e).1 = false ∧
    e.fastForwards (s.afterSteps e (j + 1)).engine = true

section Burst

variable {e : Engine σ} {s s' : Scheduler σ} {n : Nat}

/-- The last step of several. -/
theorem afterSteps_succ : s.afterSteps e (n + 1) = ((s.afterSteps e n).stepOnce e).2 :=
  Function.iterate_succ_apply' ..

/-- A step that is followed by another one at once, before others of that sort. -/
theorem FastForwards.cons (comes : (s.stepOnce e).1 = false)
    (goesOn : e.fastForwards (s.stepOnce e).2.engine = true)
    (h : FastForwards e (s.stepOnce e).2 n) : FastForwards e s (n + 1) := by
  intro j hj
  cases j with
  | zero => exact ⟨comes, goesOn⟩
  | succ j => exact h j (Nat.lt_of_succ_lt_succ hj)

/-- **What a burst comes to**: after `k` steps that were followed at once by another, there is one
that is not, or in which the engine gives up, or no more are allowed. -/
theorem burst_cases {limit : Nat} {before : UInt64} {how : BurstEnd}
    (h : s.burst e limit before = (how, s')) :
    ∃ k, FastForwards e s k ∧
      ((how = .finished (before + .ofNat (k + 1)) ∧ s' = s.afterSteps e (k + 1) ∧
          ((s.afterSteps e k).stepOnce e).1 = false ∧ e.fastForwards s'.engine = false) ∨
        (how = .panicked ∧ ((s.afterSteps e k).stepOnce e).1 = true) ∨
        (how = .unfinished ∧ k = limit)) := by
  have unstepped (s : Scheduler σ) : FastForwards e s 0 :=
    fun j hj => absurd hj (Nat.not_lt_zero j)
  induction limit generalizing before s with
  | zero =>
    cases h
    refine ⟨0, unstepped _, ?_⟩
    right; right
    exact ⟨rfl, rfl⟩
  | succ limit ih =>
    unfold Scheduler.burst at h
    dsimp only at h
    split at h
    · next panics =>
      cases h
      refine ⟨0, unstepped _, ?_⟩
      right; left
      exact ⟨rfl, panics⟩
    · next comes =>
      rw [Bool.not_eq_true] at comes
      split at h
      · next goesOn =>
        -- the rest of the burst is one that begins a step later
        obtain ⟨k, hk, ends⟩ := ih h
        refine ⟨k + 1, .cons comes goesOn hk, ?_⟩
        obtain ⟨rfl, ends⟩ | ends | ⟨hu, rfl⟩ := ends
        · have steps : before + 1 + .ofNat (k + 1) = before + .ofNat (k + 1 + 1) := by
            rw [UInt64.add_assoc, UInt64.ofNat_add (k + 1) 1, UInt64.add_comm 1]
            rfl
          left
          exact ⟨congrArg _ steps, ends⟩
        · right; left
          exact ends
        · right; right
          exact ⟨hu, rfl⟩
      · next done =>
        cases h
        refine ⟨0, unstepped _, ?_⟩
        left
        exact ⟨rfl, rfl, comes, (Bool.not_eq_true _).mp done⟩

/-- A step puts what the engine drew into the frame; what controllers do in it comes after. -/
theorem spell_stepOnce (s : Scheduler σ) :
    ∃ new, Spell s (s.stepOnce e).2 new ∧ stepCount new = 1 ∧
      (s.stepOnce e).2.shared.frame.buffer =
        (e.step s.engine s.shared.frame.buffer).answer.buffer := by
  have called : Spell s
      ({ s.record (.call .step) with
          engine := (e.step s.engine s.shared.frame.buffer).engine }.modify fun h =>
        { h with frame :=
            { h.frame with buffer := (e.step s.engine s.shared.frame.buffer).answer.buffer } })
      [⟨.call .step, s.view⟩] :=
    ⟨rfl, rfl, fun x hx => List.mem_singleton.mp hx ▸ ⟨rfl, rfl⟩, rfl, rfl,
      (UInt64.add_zero _).symm, (Bool.and_true _).symm⟩
  -- what the engine makes controllers do from inside the step is still
  obtain ⟨new, visited⟩ := still_controls e _ (e.step s.engine s.shared.frame.buffer).controls
  refine ⟨_, called.trans visited.toSpell, ?_, visited.buffer⟩
  rw [stepCount_append, visited.unstepped]
  rfl

/-- **A burst is a spell** of as many steps as it makes. -/
theorem spell_afterSteps (n : Nat) :
    ∃ new, Spell s (s.afterSteps e n) new ∧ stepCount new = n := by
  induction n with
  | zero => exact ⟨[], (Still.same rfl rfl rfl).toSpell, rfl⟩
  | succ n ih =>
    obtain ⟨old, before, count⟩ := ih
    obtain ⟨new, last, one, -⟩ := spell_stepOnce (e := e) (s.afterSteps e n)
    rw [afterSteps_succ]
    exact ⟨_, before.trans last, by rw [stepCount_append, one, count, Nat.add_comm]⟩

end Burst

/-! ### What a tick does to the frame -/

/-- A tick that makes a frame of `k` steps: by what happened in `before` it comes from `s` to `s₁`,
where it has the frame lock; `during` is what happened in its burst, and `s'` is where it ends. -/
structure FrameMade (e : Engine σ) (k : Nat) (s s₁ s' : Scheduler σ)
    (before during : List Entry) : Prop where
  begun : s₁.history = before ++ s.history
  made : (s₁.afterSteps e k).history = during ++ s₁.history
  ended : ∃ v, s'.history = ⟨.present (.ofNat k), v⟩ :: (s₁.afterSteps e k).history
  /-- The engine is asked for `k` steps, all of them in the burst. -/
  unstepped : stepCount before = 0
  steps : stepCount during = k
  unfinished : presented before = [] ∧ presented during = []
  /-- After each step but the last the engine says that the next one is to follow at once. -/
  positive : 0 < k
  fast : ∀ j, 0 < j → j < k → e.fastForwards (s₁.afterSteps e j).engine = true
  slow : e.fastForwards (s₁.afterSteps e k).engine = false
  /-- Besides the looks of controllers before the burst, the lock is taken once, -/
  taken : s₁.shared.frame.acquisitions = s.shared.frame.acquisitions + .ofNat (looks before) + 1
  kept : s'.shared.frame.acquisitions = s₁.shared.frame.acquisitions
  /-- and it is held from the first step to the last. -/
  free : ∀ x ∈ before, x.view.held = false
  held : ∀ x ∈ during, x.view.held = true
  released : s'.shared.frame.held = false
  /-- Who looks in the meantime reads the count of before, which grows only in the end. -/
  seen : ∀ x ∈ during ++ before, x.view.frames = s.shared.counter.frames
  frames : s'.shared.counter.frames = s.shared.counter.frames + .ofNat k
  ready : s'.shared.frame.ready = true
  /-- The frame is what the last step has drawn. -/
  buffer : s'.shared.frame.buffer =
    (e.step (s₁.afterSteps e (k - 1)).engine
      (s₁.afterSteps e (k - 1)).shared.frame.buffer).answer.buffer

/-- What a tick from `s` does to the frame, by its result. -/
structure FrameAfter (e : Engine σ) (limit : Nat) (s : Scheduler σ) (r : TickResult)
    (s' : Scheduler σ) : Prop where
  /-- With a frame, the result says how many steps it took. -/
  stepped : ∀ steps, r = .done (.stepped steps) → ∃ k s₁ before during,
    steps = .ofNat k ∧ FrameMade e k s s₁ s' before during
  /-- With any other outcome, and with an error, the frame is left alone. -/
  still : (∀ steps, r ≠ .done (.stepped steps)) → r ≠ .panicked → r ≠ .unfinished →
    ∃ new, Still s s' new
  /-- If the tick does not come back from the burst that begins in `s₁`, the engine gave up in one
  of the steps, or said after each of `limit` steps that the next one is to follow. -/
  panicked : r = .panicked → ∃ s₁ before n, s₁.history = before ++ s.history ∧
    FastForwards e s₁ n ∧ ((s₁.afterSteps e n).stepOnce e).1 = true
  unfinished : r = .unfinished → ∃ s₁ before, s₁.history = before ++ s.history ∧
    FastForwards e s₁ limit

/-- A tick that is still, with a result that does not speak of a frame. -/
theorem FrameAfter.of_still {e : Engine σ} {limit : Nat} {s s' : Scheduler σ} {r : TickResult}
    {new : List Entry} (hr : (∀ k, r ≠ .done (.stepped k)) ∧ r ≠ .panicked ∧ r ≠ .unfinished)
    (h : Still s s' new) : FrameAfter e limit s r s' where
  stepped k hk := absurd hk (hr.1 k)
  still _ _ _ := ⟨new, h⟩
  panicked hp := absurd hp hr.2.1
  unfinished hu := absurd hu hr.2.2

section Tick

variable {e : Engine σ} {s s₁ s' : Scheduler σ} {before : List Entry}

/-- Until the lock is taken a tick that goes into a burst is still. -/
theorem still_enter (s : Scheduler σ) :
    ∃ s₁ new, Still s s₁ new ∧
      s.enter e = s₁.modify fun h => { h with frame := h.frame.acquire } := by
  have published : Still s (s.publish .running) [_] := .one rfl rfl ⟨rfl, rfl⟩ rfl rfl
  obtain ⟨new, unmuted⟩ :=
    still_withAudio e (s.publish .running) (Audio.unmute · s.shared.paused)
  exact ⟨_, _, published.trans unmuted, rfl⟩

/-- **A burst makes a frame** of the steps that were followed at once and the last one. -/
theorem frameMade_of_burst {k : Nat} (hb : Still s s₁ before) (free : s.shared.frame.held = false)
    {locked : Scheduler σ} (hl : locked = s₁.modify fun h => { h with frame := h.frame.acquire })
    (hk : FastForwards e locked k)
    (slow : e.fastForwards (locked.afterSteps e (k + 1)).engine = false) (now : Nat) :
    ∃ during, FrameMade e (k + 1) s locked
      ((locked.afterSteps e (k + 1)).leave.present (.ofNat (k + 1)) now) before during := by
  obtain ⟨during, burst, steps⟩ := spell_afterSteps (e := e) (s := locked) (k + 1)
  obtain ⟨last, -, -, drawn⟩ := spell_stepOnce (e := e) (locked.afterSteps e k)
  obtain ⟨rate, window, heq⟩ :=
    present_cases (locked.afterSteps e (k + 1)).leave (.ofNat (k + 1)) now
  have frames : locked.shared.counter.frames = s.shared.counter.frames := by
    rw [hl]
    exact hb.frames
  have held : locked.shared.frame.held = true := by rw [hl]; rfl
  have taken : locked.shared.frame.acquisitions =
      s.shared.frame.acquisitions + .ofNat (looks before) + 1 := by
    rw [hl, ← hb.acquisitions]
    rfl
  -- the lock is held through the burst, so no look of a controller succeeds
  have unseen : looks during = 0 := by
    refine List.countP_eq_zero.mpr fun x hx => ?_
    simp [(burst.seen x hx).2, held]
  refine ⟨during, ?_⟩
  rw [heq]
  exact {
    begun := by rw [hl]; exact hb.history
    made := burst.history
    ended := ⟨_, rfl⟩
    unstepped := hb.unstepped
    steps := steps
    unfinished := ⟨hb.unfinished, burst.unfinished⟩
    positive := Nat.succ_pos k
    fast := fun j hj hjk => by
      obtain ⟨i, rfl⟩ := Nat.exists_eq_succ_of_ne_zero (Nat.pos_iff_ne_zero.mp hj)
      exact (hk i (Nat.lt_of_succ_lt_succ hjk)).2
    slow := slow
    taken := taken
    kept := by
      change (locked.afterSteps e (k + 1)).shared.frame.acquisitions = _
      rw [burst.acquisitions, unseen]
      exact UInt64.add_zero _
    free := fun x hx => (hb.seen x hx).2.trans free
    held := fun x hx => (burst.seen x hx).2.trans held
    released := rfl
    seen := fun x hx => by
      obtain hx | hx := List.mem_append.mp hx
      · rw [(burst.seen x hx).1, frames]
      · exact (hb.seen x hx).1
    frames := by
      change (locked.afterSteps e (k + 1)).shared.counter.frames + .ofNat (k + 1) = _
      rw [burst.frames, frames]
    ready := rfl
    buffer := by
      change (locked.afterSteps e (k + 1)).shared.frame.buffer = _
      rw [afterSteps_succ, drawn]
      rfl }

/-- **What a tick does to the frame.** -/
theorem frameAfter_of_tick {r : TickResult} {times : TickTimes} {limit : Nat}
    (free : s.shared.frame.held = false) (h : s.tick e times limit = (r, s')) :
    FrameAfter e limit s r s' := by
  have begun : Still s (s.record .tick) [_] := .one rfl rfl ⟨rfl, rfl⟩ rfl rfl
  -- whatever the tick comes to, until its burst it is still
  obtain ⟨-, rfl, rfl⟩ | ⟨-, p, s₁, hp, ends⟩ := tick_cases h
  · exact .of_still ⟨nofun, nofun, nofun⟩ begun
  obtain ⟨new, opened⟩ := still_of_preamble hp
  have opened := begun.trans opened
  obtain ⟨error, -, rfl, rfl⟩ | ⟨-, hc⟩ := ends
  · exact .of_still ⟨nofun, nofun, nofun⟩ opened
  obtain ⟨-, rfl, rfl⟩ | ⟨-, ⟨-, rfl, rfl⟩ | ⟨-, how, s₂, hb, ends⟩⟩ := runOrPark_cases hc
  · have parked : Still s₁ s₁.park [_] := .one rfl rfl ⟨rfl, rfl⟩ rfl rfl
    exact .of_still ⟨nofun, nofun, nofun⟩ (opened.trans parked)
  · exact .of_still ⟨nofun, nofun, nofun⟩ opened
  obtain ⟨k, hk, burst⟩ := burst_cases hb
  obtain ⟨s₃, new, still, locked⟩ := still_enter (e := e) s₁
  have opened := opened.trans still
  have history := (congrArg Scheduler.history locked).trans opened.history
  -- how the burst ends says how the tick does; the other pairs contradict each other
  obtain ⟨steps, hf, rfl, rfl⟩ | ⟨hp, rfl, rfl⟩ | ⟨hu, rfl, rfl⟩ := ends
  · obtain ⟨hs, rfl, -, slow⟩ | ⟨hn, -⟩ | ⟨hn, -⟩ := burst
    · obtain rfl : steps = .ofNat (k + 1) := by
        rw [hs, UInt64.zero_add] at hf
        exact (BurstEnd.finished.inj hf).symm
      obtain ⟨during, made⟩ := frameMade_of_burst opened free locked hk slow times.presented
      refine ⟨?_, fun other => absurd rfl (other _), nofun, nofun⟩
      rintro _ ⟨⟩
      exact ⟨_, _, _, _, rfl, made⟩
    · exact absurd (hn.symm.trans hf) nofun
    · exact absurd (hn.symm.trans hf) nofun
  · obtain ⟨hn, -⟩ | ⟨-, gaveUp⟩ | ⟨hn, -⟩ := burst
    · exact absurd (hn.symm.trans hp) nofun
    · exact ⟨nofun, fun _ hn => absurd rfl hn, fun _ => ⟨_, _, k, history, hk, gaveUp⟩, nofun⟩
    · exact absurd (hn.symm.trans hp) nofun
  · obtain ⟨hn, -⟩ | ⟨hn, -⟩ | ⟨-, rfl⟩ := burst
    · exact absurd (hn.symm.trans hu) nofun
    · exact absurd (hn.symm.trans hu) nofun
    · exact ⟨nofun, fun _ _ hn => absurd rfl hn, nofun, fun _ => ⟨_, _, history, hk⟩⟩

end Tick

/-! ### Whole runs -/

/-- Where no frame is in the making, the counters agree with the history. -/
structure Accounted (s : Scheduler σ) : Prop where
  /-- Controllers read the steps of all finished frames, -/
  frames : s.shared.counter.frames = (presented s.history).sum
  /-- which are all the steps that the engine was asked for. -/
  steps : UInt64.ofNat (stepCount s.history) = (presented s.history).sum
  acquisitions : s.shared.frame.acquisitions =
    UInt64.ofNat ((presented s.history).length + looks s.history)
  free : s.shared.frame.held = false
  ready : s.shared.frame.ready = frameWaits s.history

section Run

variable {e : Engine σ} {s s₁ s' : Scheduler σ} {before during new : List Entry} {p : Point}

/-- While no frame is made the counters keep agreeing with the history. -/
theorem Accounted.still (ha : Accounted s) (h : Still s s' new) : Accounted s' where
  frames := by rw [h.frames, h.history, presented_append, h.unfinished, List.nil_append, ha.frames]
  steps := by
    rw [h.history, stepCount_append, h.unstepped, Nat.zero_add, presented_append, h.unfinished,
      List.nil_append, ha.steps]
  acquisitions := by
    rw [h.acquisitions, h.history, presented_append, h.unfinished, List.nil_append, looks_append,
      ha.acquisitions, ← UInt64.ofNat_add, Nat.add_assoc, Nat.add_comm (looks new)]
  free := h.held.trans ha.free
  ready := by rw [h.ready, h.history, frameWaits_append _ h.unfinished, ha.ready]

/-- A frame that is made adds as many steps to the count as to the calls. -/
theorem Accounted.made {k : Nat} (ha : Accounted s) (h : FrameMade e k s s₁ s' before during) :
    Accounted s' := by
  obtain ⟨v, ended⟩ := h.ended
  have history : s'.history = ⟨.present (.ofNat k), v⟩ :: (during ++ (before ++ s.history)) := by
    rw [ended, h.made, h.begun]
  have finished : presented s'.history = .ofNat k :: presented s.history := by
    rw [history]
    change UInt64.ofNat k :: presented _ = _
    rw [presented_append, presented_append, h.unfinished.1, h.unfinished.2]
    rfl
  -- whoever looks in the burst is turned away
  have unseen : looks during = 0 :=
    List.countP_eq_zero.mpr fun x hx => by simp [h.held x hx]
  refine ⟨?_, ?_, ?_, h.released, ?_⟩
  · rw [h.frames, finished, List.sum_cons, ha.frames, UInt64.add_comm]
  · rw [finished, List.sum_cons, history]
    change UInt64.ofNat (stepCount (during ++ (before ++ s.history))) = _
    rw [stepCount_append, stepCount_append, h.steps, h.unstepped, Nat.zero_add, UInt64.ofNat_add,
      ha.steps]
  · have counted : (presented s.history).length + 1 + looks (during ++ (before ++ s.history)) =
        (presented s.history).length + looks s.history + looks before + 1 := by
      rw [looks_append, looks_append, unseen]
      omega
    rw [h.kept, h.taken, finished, List.length_cons, history, ha.acquisitions]
    change _ = UInt64.ofNat (_ + looks (during ++ (before ++ s.history)))
    rw [counted, UInt64.ofNat_add _ 1, UInt64.ofNat_add _ (looks before)]
    rfl
  · rw [h.ready, history]
    rfl

/-- A tick that comes back makes a frame or leaves it alone. -/
theorem Accounted.after {r : TickResult} {limit : Nat} (ha : Accounted s)
    (h : FrameAfter e limit s r s') (back : Point.ofResult r ≠ .broken) : Accounted s' := by
  by_cases hk : ∃ k, r = .done (.stepped k)
  · obtain ⟨k, hk⟩ := hk
    obtain ⟨k, s₁, before, during, -, made⟩ := h.stepped k hk
    exact ha.made made
  · have comes : r ≠ .panicked ∧ r ≠ .unfinished := by
      constructor <;> rintro rfl <;> exact back rfl
    obtain ⟨new, still⟩ := h.still (fun k h => hk ⟨k, h⟩) comes.1 comes.2
    exact ha.still still

/-- The release has nothing to do with frames. -/
theorem still_release (s : Scheduler σ) : ∃ new, Still s (s.release e) new := by
  have stopped : Still s ((s.publish .stopping).modify Shared.requestStop) [_] :=
    .one rfl rfl ⟨rfl, rfl⟩ rfl rfl
  obtain ⟨new, closed⟩ := still_closeRom (e := e) ((s.publish .stopping).modify Shared.requestStop)
  have vanished : Still (((s.publish .stopping).modify Shared.requestStop).closeRom e)
      (s.release e) [_] := .one rfl rfl ⟨rfl, rfl⟩ rfl rfl
  exact ⟨_, (stopped.trans closed).trans vanished⟩

/-- **The counters of a run agree with its history**, as long as every tick comes back. -/
theorem accounted_run {s₀ : Scheduler σ} (ha : Accounted s₀) (hr : Run e s₀ p s)
    (back : p ≠ .broken) : Accounted s := by
  induction hr with
  | start => exact ha
  | control _ c ih =>
    obtain ⟨new, still⟩ := still_control e _ c
    exact (ih back).still still
  | outside _ files cheats ih => exact (ih back).still (.same rfl rfl rfl)
  | tick _ times limit h ih =>
    -- a tick begins between two others, where nobody holds the lock
    have before := ih nofun
    exact before.after (frameAfter_of_tick before.free h) back
  | stop _ _ ih | abort _ ih =>
    obtain ⟨new, still⟩ := still_release (e := e) _
    exact (ih nofun).still still

end Run

/-- **Frames, steps and the frame lock agree.** As long as every tick comes back, between any two of
its events a run has emulated the frames that controllers read: the steps of all finished frames,
whatever ROMs were loaded in between, and all that the engine was asked for. The lock was taken once
for each of these frames and once for each look of a controller; nobody holds it; and a frame is
ready if one was finished that was not fetched since. Every tick makes a frame with one hold of the
lock, or leaves the frame alone. The counters say all this modulo 2^64. -/
theorem frame_accounting {e : Engine σ} {engine : σ} {workingDirectory : Path} {modes : Modes}
    {sink : Sink} {files : FileTree} {now : Nat} {p : Point} {s : Scheduler σ}
    (hr : Run e (.start e engine workingDirectory modes sink files now) p s) (back : p ≠ .broken) :
    s.shared.counter.frames = (presented s.history).sum ∧
      s.shared.counter.frames = UInt64.ofNat (stepCount s.history) ∧
      s.shared.frame.acquisitions = UInt64.ofNat ((presented s.history).length + looks s.history) ∧
      s.shared.frame.held = false ∧
      s.shared.frame.ready = frameWaits s.history ∧
      ∀ times limit, FrameAfter e limit s (s.tick e times limit).1 (s.tick e times limit).2 := by
  have begun : Accounted (.start e engine workingDirectory modes sink files now) :=
    ⟨rfl, rfl, rfl, rfl, rfl⟩
  obtain ⟨frames, steps, acquisitions, free, ready⟩ := accounted_run begun hr back
  refine ⟨frames, frames.trans steps.symm, acquisitions, free, ready, ?_⟩
  intro times limit
  have ticked : s.tick e times limit = ((s.tick e times limit).1, (s.tick e times limit).2) := rfl
  exact frameAfter_of_tick free ticked

/-- A burst of three steps, in the second of which a controller looks and is turned away; after it
the next look succeeds. -/
theorem frame_accounting_burst :
    let e := ScriptedEngine.engine
    let s₀ := (scripted { burst := 3, hooks := [.on .step 2 [.control .peek]] }).control e
      (.load sampleRom)
    let s₁ := (s₀.tick e {} 5).2
    let s₂ := s₁.control e .peek
    (s₀.tick e {} 5).1 = .done (.stepped 3) ∧ FrameAfter e 5 s₀ (s₀.tick e {} 5).1 s₁ ∧
      presented s₂.history = [3] ∧ s₂.shared.counter.frames = 3 ∧ stepCount s₂.history = 3 ∧
      looks s₂.history = 1 ∧ s₂.shared.frame.acquisitions = 2 ∧ s₂.shared.frame.held = false ∧
      s₂.shared.frame.ready = true := by
  intro e s₀ s₁ s₂
  have asked : Run e _ .between s₀ := Run.start.control _
  have result : (s₀.tick e {} 5).1 = .done (.stepped 3) := by decide +kernel
  obtain ⟨-, -, -, -, -, each⟩ := frame_accounting asked nofun
  -- the look from inside the second step is not counted, the one after the tick is
  have looked : Run e _ .between s₂ := (asked.done {} 5 _ result).control .peek
  obtain ⟨-, steps, acquisitions, free, ready, -⟩ := frame_accounting looked nofun
  have made : presented s₂.history = [3] := by decide +kernel
  have seen : looks s₂.history = 1 := by decide +kernel
  have asked : stepCount s₂.history = 3 := by decide +kernel
  have waits : frameWaits s₂.history = true := by decide +kernel
  rw [asked] at steps
  rw [made, seen] at acquisitions
  have holds : UInt64.ofNat (([3] : List UInt64).length + 1) = 2 := rfl
  have frames : s₂.shared.counter.frames = 3 := steps
  exact ⟨result, each {} 5, made, frames, asked, seen, acquisitions.trans holds, free,
    ready.trans waits⟩

end EmuScheduler
