import EmuScheduler.Proofs.Effects

/-!
# The loop, one step at a time

`Scheduler.tick` says what a whole tick comes to. What holds in the middle of one (inside a callback
of the engine, between two mode changes, before the check that precedes sleep) is a matter of its
single steps, and so is what other controllers can come between. This file gives the loop as a step
relation: `Point` says where the loop is, and `Loop e p s p' s'` that it goes from `p` to `p'` and
takes the scheduler from `s` to `s'` in one step that nothing else can interrupt. Every step is one
of the operations of which `Scheduler.tick` and `Scheduler.release` are made; none of them is said
anew.

`Reached e s₀ p s` closes the steps under what comes from outside: controls, at the points where a
controller can act between two steps of a loop that nobody else disturbs (`Point.Open`: between two
ticks and inside the three calls that an engine may use controls in), and changes to the files and
to the cheat list. An invariant of the scheduler is proved by one case for each step.

The relation follows the program. A tick begins with its `Preamble`, all that comes before it runs
or parks; the lemmas on it follow the parts of a tick, one each, and `Preamble.followedBy` carries
the paths of two parts together. `tick_cases` and `runOrPark_cases` list what a tick can come to, so
that what one tick does is read off the cases and the steps of its preamble, without unfolding the
program again. `Reached.tick` says that a tick from a reached state ends in a reached state, and
`Reached.release` the same of the end of a run.
-/

namespace EmuScheduler

open Scheduler

variable {σ : Type}

/-- Where the loop is, between one step and the next. -/
inductive Point where
  /-- No tick is going on. -/
  | between
  /-- The working tree is to be created. -/
  | preparing
  | purging
  /-- The engine is to be told its directories. -/
  | directing
  | settingUp
  /-- Inside the engine's own setting up, which will have this answer. -/
  | inSetUp (answer : Except EngineError Unit)
  /-- Whether the engine is ready is to be seen. -/
  | checking
  | engaging
  | loading
  /-- A load was taken, and is to be announced. -/
  | starting (rom : Path)
  /-- The ROM of before is to be closed. -/
  | closing (rom : Path)
  | asking (rom : Path)
  /-- Inside the engine's loading, which will have this answer. -/
  | inLoad (rom : Path) (accepted : Bool)
  | configuring
  /-- These modes are still to be looked at. -/
  | applying (kinds : List ModeKind)
  /-- To run or to park. -/
  | choosing
  | running
  | unmuting
  | locking
  /-- A step is due, after so many. -/
  | stepping (steps : UInt64)
  /-- Inside the step of that number, in which the engine gives up or does not. -/
  | inStep (steps : UInt64) (panics : Bool)
  | presenting (steps : UInt64)
  | parking
  /-- The pause flag was read; the phase that follows from it is to be made known. -/
  | publishing (phase : Phase)
  | sleeping
  /-- A tick has failed, and no other follows. -/
  | failed (error : SchedulerError)
  /-- A tick did not come back. -/
  | broken
  /-- The run is over, with an error or without: its end is to be made known as a request to
  stop. -/
  | stopping (error? : Option SchedulerError)
  /-- The ROM is to be closed for good. -/
  | emptying (error? : Option SchedulerError)
  | vanishing (error? : Option SchedulerError)
  | released (error? : Option SchedulerError)

namespace Point

/-- Where the loop goes after a part that may fail. -/
def after : Except SchedulerError Unit → Point → Point
  | .ok _, p => p
  | .error error, _ => .failed error

@[simp] theorem after_ok (u : Unit) (p : Point) : after (.ok u) p = p := rfl

@[simp] theorem after_error (error : SchedulerError) (p : Point) :
    after (.error error) p = .failed error := rfl

/-- A part that may fail leads to where the loop goes on, or to where a tick has failed. -/
theorem after_elim {motive : Point → Prop} {r : Except SchedulerError Unit} {p : Point}
    (hp : motive p) (failed : ∀ error, motive (.failed error)) : motive (after r p) := by
  cases r with
  | ok u => exact hp
  | error error => exact failed error

/-- It leads nowhere else. -/
theorem after_ne {r : Except SchedulerError Unit} {p q : Point} (hp : p ≠ q)
    (hq : ∀ error, q ≠ .failed error) : after r p ≠ q :=
  after_elim (motive := (· ≠ q)) hp fun error => (hq error).symm

/-- Whether a controller can act here while nothing else disturbs the loop: outside a tick, and
where the engine does so inside a call. -/
def Open : Point → Prop
  | .between | .inSetUp _ | .inLoad _ _ | .inStep _ _ | .failed _ | .broken | .released _ => True
  | _ => False

/-- Whether the loop is in a tick and has not come to running or parking yet. -/
def Early : Point → Prop
  | .preparing | .purging | .directing | .settingUp | .inSetUp _ | .checking | .engaging
  | .loading | .starting _ | .closing _ | .asking _ | .inLoad _ _ | .configuring
  | .applying _ => True
  | _ => False

/-- Where a tick begins: only the first one prepares. -/
def entry (phase : Phase) : Point :=
  if phase = .uninitialized then .preparing else .loading

/-- Where a burst ends. -/
def ofBurstEnd : BurstEnd → Point
  | .finished steps => .presenting steps
  | .panicked | .unfinished => .broken

/-- Where a tick ends. -/
def ofResult : TickResult → Point
  | .done _ => .between
  | .failed error => .failed error
  | .panicked | .unfinished => .broken

end Point

/-- **The steps of the loop.** The times that a tick is given are those of its steps `accept` and
`present`; a burst that is cut off because no more steps are allowed ends in `abandon`. -/
inductive Loop (e : Engine σ) : Point → Scheduler σ → Point → Scheduler σ → Prop
  | halt {s : Scheduler σ} (h : s.shared.stopping = true) :
      Loop e .between s .between (s.record .tick)
  | first {s : Scheduler σ} (h : s.shared.stopping = false)
      (fresh : s.shared.phase = .uninitialized) :
      Loop e .between s .preparing (s.record .tick)
  | begin {s : Scheduler σ} (h : s.shared.stopping = false)
      (prepared : s.shared.phase ≠ .uninitialized) :
      Loop e .between s .loading (s.record .tick)
  | create {s s' : Scheduler σ} {r : Except SchedulerError Unit}
      (h : (s.publish .initializing).createTree (.below s.workingDirectory) = (r, s')) :
      Loop e .preparing s (.after r .purging) s'
  | purge {s s' : Scheduler σ} {r : Except SchedulerError Unit}
      (h : s.purgeImages e (.below s.workingDirectory) = (r, s')) :
      Loop e .purging s (.after r .directing) s'
  | direct {s : Scheduler σ} :
      Loop e .directing s .settingUp
        (s.order e (.setDirectories (WorkingTree.below s.workingDirectory).root
          (WorkingTree.below s.workingDirectory).temp))
  | skip {s : Scheduler σ} (h : e.isReady s.engine = true) : Loop e .settingUp s .checking s
  | setUp {s : Scheduler σ} (h : e.isReady s.engine = false) :
      Loop e .settingUp s (.inSetUp (e.setUp s.engine).answer)
        { s.record (.call .setUp) with engine := (e.setUp s.engine).engine }
  | setUpEnds {s : Scheduler σ} {answer : Except EngineError Unit} :
      Loop e (.inSetUp answer) s (.after (answer.mapError .engine) .checking) s
  | check {s : Scheduler σ} :
      Loop e .checking s (.after (s.requireReady e "initialize") .engaging) s
  | engage {s : Scheduler σ} :
      Loop e .engaging s .loading
        (((s.withAudio e Audio.engage).record
          (.prepared (WorkingTree.below s.workingDirectory).root)).publish .idle)
  | noLoad {s : Scheduler σ} (h : s.shared.requests.rom.take.1 = none) :
      Loop e .loading s .configuring s
  | takeLoad {s : Scheduler σ} {rom : Path} (h : s.shared.requests.rom.take.1 = some rom) :
      Loop e .loading s (.starting rom)
        (s.modify fun h =>
          { h with requests := { h.requests with rom := s.shared.requests.rom.take.2 } })
  | announce {s : Scheduler σ} {rom : Path} :
      Loop e (.starting rom) s (.closing rom) (s.emit (.started rom))
  | close {s : Scheduler σ} {rom : Path} : Loop e (.closing rom) s (.asking rom) (s.closeRom e)
  | load {s : Scheduler σ} {rom : Path} :
      Loop e (.asking rom) s (.inLoad rom (e.load s.engine s.files rom).answer)
        { s.record (.call (.load rom)) with engine := (e.load s.engine s.files rom).engine }
  | accept {s : Scheduler σ} {rom : Path} (now : Nat) :
      Loop e (.inLoad rom true) s .configuring (s.acceptRom e rom now)
  | reject {s : Scheduler σ} {rom : Path} :
      Loop e (.inLoad rom false) s .configuring (s.rejectRom rom)
  | configure {s : Scheduler σ} :
      Loop e .configuring s (.applying ModeKind.all) (s.record .configure)
  | apply {s s' : Scheduler σ} {k : ModeKind} {ks : List ModeKind}
      {r : Except SchedulerError Unit} (h : s.applyMode e k = (r, s')) :
      Loop e (.applying (k :: ks)) s (.after r (.applying ks)) s'
  | configured {s : Scheduler σ} : Loop e (.applying []) s .choosing s
  | choose {s : Scheduler σ} (h : (s.romLoaded && !s.shared.paused) = true) :
      Loop e .choosing s (.after (s.requireReady e "step") .running) s
  | rest {s : Scheduler σ} (h : (s.romLoaded && !s.shared.paused) = false) :
      Loop e .choosing s .parking s
  | run {s : Scheduler σ} : Loop e .running s .unmuting (s.publish .running)
  | unmute {s : Scheduler σ} :
      Loop e .unmuting s .locking (s.withAudio e (Audio.unmute · s.shared.paused))
  | lock {s : Scheduler σ} :
      Loop e .locking s (.stepping 0) (s.modify fun h => { h with frame := h.frame.acquire })
  | step {s : Scheduler σ} {n : UInt64} :
      Loop e (.stepping n) s
        (.inStep (n + 1) (e.step s.engine s.shared.frame.buffer).answer.panics)
        ({ s.record (.call .step) with
            engine := (e.step s.engine s.shared.frame.buffer).engine }.modify fun h =>
          { h with frame :=
              { h.frame with
                buffer := (e.step s.engine s.shared.frame.buffer).answer.buffer } })
  | again {s : Scheduler σ} {n : UInt64} (h : e.fastForwards s.engine = true) :
      Loop e (.inStep n false) s (.stepping n) s
  | finish {s : Scheduler σ} {n : UInt64} (h : e.fastForwards s.engine = false) :
      Loop e (.inStep n false) s (.presenting n)
        (s.modify fun h => { h with frame := h.frame.release })
  | giveUp {s : Scheduler σ} {n : UInt64} :
      Loop e (.inStep n true) s .broken (s.modify fun h => { h with frame := h.frame.release })
  | abandon {s : Scheduler σ} {n : UInt64} :
      Loop e (.stepping n) s .broken (s.modify fun h => { h with frame := h.frame.release })
  | present {s : Scheduler σ} {n : UInt64} (now : Nat) :
      Loop e (.presenting n) s .between (s.present n now)
  | park {s : Scheduler σ} :
      Loop e .parking s (.publishing (parkedPhase s.shared.paused)) s
  | publish {s : Scheduler σ} {phase : Phase} :
      Loop e (.publishing phase) s .sleeping (s.publish phase)
  | sleep {s : Scheduler σ} :
      Loop e .sleeping s .between (s.modify (·.sleepUnlessWork s.romLoaded))
  | stop {s : Scheduler σ} (h : s.shared.stopping = true) :
      Loop e .between s (.stopping none) (s.publish .stopping)
  | abort {s : Scheduler σ} {error : SchedulerError} :
      Loop e (.failed error) s (.stopping (some error)) (s.publish .stopping)
  | requestStop {s : Scheduler σ} {error? : Option SchedulerError} :
      Loop e (.stopping error?) s (.emptying error?) (s.modify Shared.requestStop)
  | empty {s : Scheduler σ} {error? : Option SchedulerError} :
      Loop e (.emptying error?) s (.vanishing error?) (s.closeRom e)
  | vanish {s : Scheduler σ} {error? : Option SchedulerError} :
      Loop e (.vanishing error?) s (.released error?) (s.publish .stopped)

/-- The scheduler after others have changed the files and the cheat list. -/
def Scheduler.outside (s : Scheduler σ) (files : FileTree) (cheats : CheatStore) : Scheduler σ :=
  { s with files := files }.modify fun h => { h with cheats := cheats }

/-- **What a scheduler that began in `s₀` can come to**, with the loop at `p`. -/
inductive Reached (e : Engine σ) (s₀ : Scheduler σ) : Point → Scheduler σ → Prop
  | start : Reached e s₀ .between s₀
  | loop {p p' : Point} {s s' : Scheduler σ} (hr : Reached e s₀ p s) (h : Loop e p s p' s') :
      Reached e s₀ p' s'
  | control {p : Point} {s : Scheduler σ} (hr : Reached e s₀ p s) (hp : p.Open) (c : Control) :
      Reached e s₀ p (s.control e c)
  | outside {p : Point} {s : Scheduler σ} (hr : Reached e s₀ p s) (files : FileTree)
      (cheats : CheatStore) : Reached e s₀ p (s.outside files cheats)

/-- **The preamble of a tick**: what the loop comes to from `p₀` and `s₀` by steps that come before
it runs or parks, with the controls of the engine's visits on the way. -/
inductive Preamble (e : Engine σ) (p₀ : Point) (s₀ : Scheduler σ) : Point → Scheduler σ → Prop
  | start : Preamble e p₀ s₀ p₀ s₀
  | loop {p p' : Point} {s s' : Scheduler σ} (hp : Preamble e p₀ s₀ p s) (early : p.Early)
      (h : Loop e p s p' s') : Preamble e p₀ s₀ p' s'
  | control {p : Point} {s : Scheduler σ} (hp : Preamble e p₀ s₀ p s) (early : p.Early)
      (ho : p.Open) (c : Control) : Preamble e p₀ s₀ p (s.control e c)

/-! ### The parts of a tick before it runs or parks -/

namespace Preamble

variable {e : Engine σ} {s₀ s : Scheduler σ} {p₀ p q : Point}

/-- Controls may come at the open points before a frame is begun. -/
theorem controls (hp : Preamble e p₀ s₀ p s) (early : p.Early) (ho : p.Open)
    (cs : List Control) : Preamble e p₀ s₀ p (s.controls e cs) := by
  induction cs generalizing s with
  | nil => exact hp
  | cons c cs ih => exact ih (hp.control early ho c)

/-- Two parts of a tick, the second of which is left out if the first fails. -/
theorem followedBy {r : Except SchedulerError Unit × Scheduler σ}
    {next : Scheduler σ → Except SchedulerError Unit × Scheduler σ}
    (hp : Preamble e p₀ s₀ (.after r.1 p) r.2)
    (hnext : Preamble e p₀ s₀ p r.2 → Preamble e p₀ s₀ (.after (next r.2).1 q) (next r.2).2) :
    Preamble e p₀ s₀ (.after (Scheduler.followedBy r next).1 q)
      (Scheduler.followedBy r next).2 := by
  obtain ⟨r, s⟩ := r
  cases r with
  | ok u => exact hnext hp
  | error error => exact hp

/-- The engine is set up unless it is ready, and controllers may act from inside. -/
theorem setUpEngine (hp : Preamble e p₀ s₀ .settingUp s) :
    Preamble e p₀ s₀ (.after (s.setUpEngine e).1 .checking) (s.setUpEngine e).2 := by
  unfold Scheduler.setUpEngine
  split
  · next ready => exact hp.loop trivial (.skip ready)
  · next ready =>
    have called := hp.loop trivial (.setUp (by simpa using ready))
    exact (called.controls trivial trivial _).loop trivial .setUpEnds

/-- The directories are the same on the whole way, for no part of it changes which the working
directory is. -/
theorem setUpAll (hp : Preamble e p₀ s₀ .preparing s) :
    Preamble e p₀ s₀ (.after (s.setUpAll e).1 .loading) (s.setUpAll e).2 := by
  refine followedBy (hp.loop trivial (.create rfl)) fun created => ?_
  refine followedBy (created.loop trivial (.purge rfl)) fun purged => ?_
  -- a step reads the working directory anew, where the program has computed the tree once
  have directed := purged.loop trivial .direct
  rw [purgeImages_workingDirectory] at directed
  refine followedBy directed.setUpEngine fun setUp => ?_
  refine followedBy (setUp.loop trivial .check) fun ready => ?_
  have engaged := ready.loop trivial .engage
  rw [setUpEngine_workingDirectory, order_workingDirectory, purgeImages_workingDirectory]
    at engaged
  exact engaged

/-- Only the first tick takes the way through the preparations. -/
theorem prepare (hp : Preamble e p₀ s₀ (.entry s.shared.phase) s) :
    Preamble e p₀ s₀ (.after (s.prepare e).1 .loading) (s.prepare e).2 := by
  unfold Point.entry at hp
  unfold Scheduler.prepare
  split
  · next fresh =>
    rw [if_pos fresh] at hp
    exact hp.setUpAll
  · next known =>
    rw [if_neg known] at hp
    exact hp

/-- The answer of the engine to a load. -/
theorem answered {rom : Path} {accepted : Bool} (hp : Preamble e p₀ s₀ (.inLoad rom accepted) s)
    (now : Nat) :
    Preamble e p₀ s₀ .configuring
      (if accepted then s.acceptRom e rom now else s.rejectRom rom) := by
  cases accepted with
  | true => exact hp.loop trivial (.accept now)
  | false => exact hp.loop trivial .reject

/-- What the engine does from inside the load comes before its answer has any effect. -/
theorem loadRom {rom : Path} (hp : Preamble e p₀ s₀ (.asking rom) s) (now : Nat) :
    Preamble e p₀ s₀ .configuring (s.loadRom e rom now) :=
  ((hp.loop trivial .load).controls trivial trivial _).answered now

/-- A load that waits is settled, and then the modes are looked at. -/
theorem settleLoad (hp : Preamble e p₀ s₀ .loading s) (now : Nat) :
    Preamble e p₀ s₀ .configuring (s.settleLoad e now) := by
  unfold Scheduler.settleLoad
  split
  · next h => exact hp.loop trivial (.noLoad (congrArg Prod.fst h))
  · next rom rest h =>
    obtain rfl : s.shared.requests.rom.take.2 = rest := congrArg Prod.snd h
    have taken := hp.loop trivial (.takeLoad (congrArg Prod.fst h))
    exact ((taken.loop trivial .announce).loop trivial .close).loadRom now

/-- The modes are applied one by one, until one is refused. -/
theorem applyModes {ks : List ModeKind} (hp : Preamble e p₀ s₀ (.applying ks) s) :
    Preamble e p₀ s₀ (.after (Scheduler.applyModes e ks s).1 .choosing)
      (Scheduler.applyModes e ks s).2 := by
  induction ks generalizing s with
  | nil => exact hp.loop trivial .configured
  | cons k ks ih => exact followedBy (hp.loop trivial (.apply rfl)) ih

/-- The stage of a tick in which the modes are applied. -/
theorem configure (hp : Preamble e p₀ s₀ .configuring s) :
    Preamble e p₀ s₀ (.after (s.configure e).1 .choosing) (s.configure e).2 :=
  (hp.loop trivial .configure).applyModes

end Preamble

/-! ### What a tick comes to -/

section Cases

variable {e : Engine σ} {s s' : Scheduler σ} {r : TickResult} {times : TickTimes}
  {now limit : Nat}

/-- **What a tick comes to**: nothing, if the scheduler is to end; otherwise a preamble that fails,
or one that leads to the choice between running and parking. -/
theorem tick_cases (h : s.tick e times limit = (r, s')) :
    (s.shared.stopping = true ∧ r = .done .stopping ∧ s' = s.record .tick) ∨
      s.shared.stopping = false ∧ ∃ p s₁,
        Preamble e (.entry s.shared.phase) (s.record .tick) p s₁ ∧
          ((∃ error, p = .failed error ∧ r = .failed error ∧ s' = s₁) ∨
            p = .choosing ∧ s₁.runOrPark e times.presented limit = (r, s')) := by
  unfold Scheduler.tick at h
  dsimp only at h
  split at h
  · next stopping =>
    cases h
    exact .inl ⟨stopping, rfl, rfl⟩
  · next going =>
    refine .inr ⟨(Bool.not_eq_true _).mp going, ?_⟩
    -- the parts of a tick, each of which may end it with an error
    have prepared : Preamble e (.entry s.shared.phase) (s.record .tick)
        (.after ((s.record .tick).prepare e).1 .loading) ((s.record .tick).prepare e).2 :=
      Preamble.prepare .start
    split at h
    · next error s₁ h₁ =>
      cases h
      rw [h₁] at prepared
      exact ⟨_, _, prepared, .inl ⟨error, rfl, rfl, rfl⟩⟩
    · next u s₁ h₁ =>
      rw [h₁] at prepared
      have configured := (prepared.settleLoad times.loaded).configure
      split at h
      · next error s₂ h₂ =>
        cases h
        rw [h₂] at configured
        exact ⟨_, _, configured, .inl ⟨error, rfl, rfl, rfl⟩⟩
      · next u s₂ h₂ =>
        rw [h₂] at configured
        exact ⟨_, _, configured, .inr ⟨rfl, h⟩⟩

/-- The scheduler as it goes into a burst: it is known to run, sound is on unless a pause came in
between, and the frame lock is taken. -/
def Scheduler.enter (e : Engine σ) (s : Scheduler σ) : Scheduler σ :=
  ((s.publish .running).withAudio e (Audio.unmute · s.shared.paused)).modify fun h =>
    { h with frame := h.frame.acquire }

/-- The scheduler after a burst, with the frame lock given back. -/
def Scheduler.leave (s : Scheduler σ) : Scheduler σ :=
  s.modify fun h => { h with frame := h.frame.release }

/-- After its preamble a tick parks, or fails because the engine is not set up, or makes a burst. -/
theorem runOrPark_cases (h : s.runOrPark e now limit = (r, s')) :
    ((s.romLoaded && !s.shared.paused) = false ∧ r = .done .parked ∧ s' = s.park) ∨
      (s.romLoaded && !s.shared.paused) = true ∧
        ((e.isReady s.engine = false ∧ r = .failed (.notInitialized "step") ∧ s' = s) ∨
          e.isReady s.engine = true ∧ ∃ how s₁, (s.enter e).burst e limit 0 = (how, s₁) ∧
            ((∃ steps, how = .finished steps ∧ r = .done (.stepped steps) ∧
                s' = s₁.leave.present steps now) ∨
              (how = .panicked ∧ r = .panicked ∧ s' = s₁.leave) ∨
              (how = .unfinished ∧ r = .unfinished ∧ s' = s₁.leave))) := by
  unfold Scheduler.runOrPark at h
  split at h
  · next runs =>
    refine .inr ⟨runs, ?_⟩
    unfold Scheduler.runFrame Scheduler.requireReady at h
    -- a frame is begun only with an engine that is ready
    by_cases ready : e.isReady s.engine = true
    · rw [if_pos ready] at h
      refine .inr ⟨ready, _, _, rfl, ?_⟩
      dsimp only at h
      split at h
      · next steps hb =>
        cases h
        exact .inl ⟨steps, hb, rfl, rfl⟩
      · next hb =>
        cases h
        right; left
        exact ⟨hb, rfl, rfl⟩
      · next hb =>
        cases h
        right; right
        exact ⟨hb, rfl, rfl⟩
    · rw [if_neg ready] at h
      cases h
      exact .inl ⟨(Bool.not_eq_true _).mp ready, rfl, rfl⟩
  · next rests =>
    cases h
    exact .inl ⟨(Bool.not_eq_true _).mp rests, rfl, rfl⟩

end Cases

namespace Reached

variable {e : Engine σ} {s₀ s s' : Scheduler σ} {p p' : Point}

theorem controls (hr : Reached e s₀ p s) (ho : p.Open) (cs : List Control) :
    Reached e s₀ p (s.controls e cs) := by
  induction cs generalizing s with
  | nil => exact hr
  | cons c cs ih => exact ih (hr.control ho c)

/-- What the loop does in a preamble it can do. -/
theorem preamble (hr : Reached e s₀ p s) (hp : Preamble e p s p' s') : Reached e s₀ p' s' := by
  induction hp with
  | start => exact hr
  | loop _ _ h ih => exact ih.loop h
  | control _ _ ho c ih => exact ih.control ho c

/-! ### Running and parking -/

/-- A step, with what controllers do from inside it. -/
theorem stepOnce {n : UInt64} (hr : Reached e s₀ (.stepping n) s) :
    Reached e s₀ (.inStep (n + 1) (s.stepOnce e).1) (s.stepOnce e).2 :=
  (hr.loop .step).controls trivial _

/-- A burst is a step after another, until one of them is not to be followed at once. -/
theorem burst {n : UInt64} (hr : Reached e s₀ (.stepping n) s) (limit : Nat) :
    Reached e s₀ (.ofBurstEnd (s.burst e limit n).1) (s.burst e limit n).2.leave := by
  -- the lock is held through the whole burst and given back by its last step, however it ends
  induction limit generalizing n s with
  | zero => exact hr.loop .abandon
  | succ limit ih =>
    have stepped := hr.stepOnce
    unfold Scheduler.burst
    dsimp only
    split
    · next panics =>
      rw [panics] at stepped
      exact stepped.loop .giveUp
    · next goesOn =>
      rw [Bool.not_eq_true] at goesOn
      rw [goesOn] at stepped
      split
      · next again => exact ih (stepped.loop (.again again))
      · next done => exact stepped.loop (.finish (by simpa using done))

theorem runOrPark {r : TickResult} {now limit : Nat} (hr : Reached e s₀ .choosing s)
    (h : s.runOrPark e now limit = (r, s')) : Reached e s₀ (.ofResult r) s' := by
  obtain ⟨rests, rfl, rfl⟩ | ⟨runs, ⟨unready, rfl, rfl⟩ | ⟨ready, how, s₁, hb, ends⟩⟩ :=
    runOrPark_cases h
  · -- to park is to make the phase known and to sleep unless there is work
    exact (((hr.loop (.rest rests)).loop .park).loop .publish).loop .sleep
  · have chosen := hr.loop (.choose runs)
    unfold Scheduler.requireReady at chosen
    rw [if_neg (by simp [unready])] at chosen
    exact chosen
  · have chosen := hr.loop (.choose runs)
    unfold Scheduler.requireReady at chosen
    rw [if_pos ready] at chosen
    -- the ways in which a burst ends are the ways in which the loop leaves it
    have stepped := (((chosen.loop .run).loop .unmute).loop .lock).burst limit
    change Reached e s₀ (.ofBurstEnd ((s.enter e).burst e limit 0).1)
      ((s.enter e).burst e limit 0).2.leave at stepped
    rw [hb] at stepped
    obtain ⟨steps, rfl, rfl, rfl⟩ | ⟨rfl, rfl, rfl⟩ | ⟨rfl, rfl, rfl⟩ := ends
    · exact stepped.loop (.present now)
    · exact stepped
    · exact stepped

/-! ### Ticks and the end of a run -/

/-- **The loop follows the program**: a tick is a path of its steps, with the controls of the
engine's visits on the way. -/
theorem tick {r : TickResult} {times : TickTimes} {limit : Nat} (hr : Reached e s₀ .between s)
    (h : s.tick e times limit = (r, s')) : Reached e s₀ (.ofResult r) s' := by
  obtain ⟨stopping, rfl, rfl⟩ | ⟨going, p, s₁, hp, ends⟩ := tick_cases h
  · exact hr.loop (.halt stopping)
  · have begun : Reached e s₀ (.entry s.shared.phase) (s.record .tick) := by
      unfold Point.entry
      split
      · next fresh => exact hr.loop (.first going fresh)
      · next known => exact hr.loop (.begin going known)
    have opened := begun.preamble hp
    obtain ⟨error, rfl, rfl, rfl⟩ | ⟨rfl, hc⟩ := ends
    · exact opened
    · exact opened.runOrPark hc

/-- The end of a run, once the scheduler is about to end or a tick has failed. -/
theorem release {error? : Option SchedulerError}
    (hr : Reached e s₀ (.stopping error?) (s.publish .stopping)) :
    Reached e s₀ (.released error?) (s.release e) :=
  ((hr.loop .requestStop).loop .empty).loop .vanish

end Reached
end EmuScheduler
