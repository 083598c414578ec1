import EmuScheduler.Scheduler.Control
import EmuScheduler.WorkingTree

/-!
# Ticks

One tick of the loop: prepare the working tree and the engine if that was not tried before, settle
a load that waits, apply the latest change of each mode, and then either make one frame, or go to
sleep if there is nothing to run. A frame takes one step, or several while the engine fast-forwards,
all under one hold of the frame lock. Steps are counted modulo 2^64, like the frames that
controllers read.
-/

namespace EmuScheduler

/-- What a tick did. -/
inductive TickOutcome where
  /-- It made a frame in so many steps. -/
  | stepped (steps : UInt64)
  /-- There was nothing to run. -/
  | parked
  /-- The scheduler is to end, so it did nothing. -/
  | stopping
  deriving DecidableEq, Repr

/-- How a tick ends. -/
inductive TickResult where
  | done (outcome : TickOutcome)
  | failed (error : SchedulerError)
  /-- The engine gave up in a step. -/
  | panicked
  /-- The engine was still fast-forwarding when no more steps were allowed. -/
  | unfinished
  deriving DecidableEq, Repr

/-- When the parts of a tick happen that measure the frame rate, in nanoseconds. -/
structure TickTimes where
  loaded : Nat := 0
  presented : Nat := 0
  deriving DecidableEq, Repr, Inhabited

/-- The phase of a loop that has nothing to run. -/
def parkedPhase (paused : Bool) : Phase :=
  if paused then .paused else .idle

/-- Whether the loop must not sleep: it is to end, to load, or to run. -/
def Shared.hasWork (h : Shared) (romLoaded : Bool) : Bool :=
  h.stopping || h.requests.rom.isPending || (romLoaded && !h.paused)

/-- Falls asleep unless there is work. Nothing can come between the check and the sleep. -/
def Shared.sleepUnlessWork (h : Shared) (romLoaded : Bool) : Shared :=
  { h with gate := h.gate.sleepUnless (h.hasWork romLoaded) }

namespace Scheduler

variable {σ : Type}

/-- Refuses to use an engine that is not set up. -/
def requireReady (e : Engine σ) (s : Scheduler σ) (operation : String) :
    Except SchedulerError Unit :=
  if e.isReady s.engine then .ok () else .error (.notInitialized operation)

/-! ## Preparing -/

/-- Goes on after what succeeded. -/
def followedBy (r : Except SchedulerError Unit × Scheduler σ)
    (next : Scheduler σ → Except SchedulerError Unit × Scheduler σ) :
    Except SchedulerError Unit × Scheduler σ :=
  match r.1 with
  | .ok _ => next r.2
  | .error error => (.error error, r.2)

/-- Creates what is missing of the working tree. -/
def createTree (s : Scheduler σ) (w : WorkingTree) : Except SchedulerError Unit × Scheduler σ :=
  let r := w.create s.files
  (r.1.mapError .io, { s with files := r.2 })

/-- Removes the ROM images of an earlier run. -/
def purgeImages (e : Engine σ) (s : Scheduler σ) (w : WorkingTree) :
    Except SchedulerError Unit × Scheduler σ :=
  let r := w.purge s.files (e.imageExtension s.engine)
  let s := { s with files := r.2 }
  match r.1 with
  | .ok removed => (.ok (), s.record (.purge w.temp removed))
  | .error cause => (.error (.io cause), s)

/-- Sets the engine up, unless it is ready. -/
def setUpEngine (e : Engine σ) (s : Scheduler σ) : Except SchedulerError Unit × Scheduler σ :=
  if e.isReady s.engine then (.ok (), s)
  else
    let s := s.record (.call .setUp)
    let visit := e.setUp s.engine
    (visit.answer.mapError .engine, { s with engine := visit.engine }.controls e visit.controls)

/-- Prepares the working tree and the engine. -/
def setUpAll (e : Engine σ) (s : Scheduler σ) : Except SchedulerError Unit × Scheduler σ :=
  let w := WorkingTree.below s.workingDirectory
  followedBy ((s.publish .initializing).createTree w) fun s =>
  followedBy (s.purgeImages e w) fun s =>
  followedBy ((s.order e (.setDirectories w.root w.temp)).setUpEngine e) fun s =>
  followedBy (s.requireReady e "initialize", s) fun s =>
    (.ok (), ((s.withAudio e Audio.engage).record (.prepared w.root)).publish .idle)

/-- Prepares on the first tick and does nothing on later ones. -/
def prepare (e : Engine σ) (s : Scheduler σ) : Except SchedulerError Unit × Scheduler σ :=
  if s.shared.phase = .uninitialized then s.setUpAll e else (.ok (), s)

/-! ## Loading -/

/-- Closes the ROM that is open, if one is. -/
def closeRom (e : Engine σ) (s : Scheduler σ) : Scheduler σ :=
  if s.romLoaded then
    { s.order e .closeRom with romLoaded := false }.modify fun h => { h with rom? := none }
  else s

/-- What follows when the engine accepted a ROM: it runs, paused or not. -/
def acceptRom (e : Engine σ) (s : Scheduler σ) (rom : Path) (now : Nat) : Scheduler σ :=
  let s := s.record (.accept rom)
  let s := { s with romLoaded := true }.modify fun h => { h with rom? := some rom }
  let s := s.setPaused e false
  { s with rate := ⟨now, s.shared.counter.frames.toNat⟩ }.emit (.ended rom)

/-- What follows when the engine refused a ROM. -/
def rejectRom (s : Scheduler σ) (rom : Path) : Scheduler σ :=
  ((s.record (.reject rom)).emit (.ended rom)).emit (.failed rom)

/-- Asks the engine to load a ROM. -/
def loadRom (e : Engine σ) (s : Scheduler σ) (rom : Path) (now : Nat) : Scheduler σ :=
  let s := s.record (.call (.load rom))
  let visit := e.load s.engine s.files rom
  let s := { s with engine := visit.engine }.controls e visit.controls
  if visit.answer then s.acceptRom e rom now else s.rejectRom rom

/-- Settles the load that waits, if one does. -/
def settleLoad (e : Engine σ) (s : Scheduler σ) (now : Nat) : Scheduler σ :=
  match s.shared.requests.rom.take with
  | (none, _) => s
  | (some rom, rest) =>
    let s := s.modify fun h => { h with requests := { h.requests with rom := rest } }
    ((s.emit (.started rom)).closeRom e).loadRom e rom now

/-! ## Configuring -/

/-- What the engine is asked for when a mode is applied, as an error names it. -/
def operation : ModeKind → String
  | .renderer => "set_renderer_3d"
  | .soundCore => "set_sound_core"
  | .cpu => "set_cpu_mode"
  | .soundSync => "set_sound_sync_mode"

/-- Takes the change of a mode that waits and gives it to the engine. If the engine is not set up,
the change is lost. -/
def applyMode (e : Engine σ) (s : Scheduler σ) (k : ModeKind) :
    Except SchedulerError Unit × Scheduler σ :=
  match s.shared.requests.takeMode k with
  | (none, _) => (.ok (), s)
  | (some mode, rest) =>
    followedBy (requireReady e s (operation k), s.modify fun h => { h with requests := rest })
      fun s => (.ok (), s.order e (.setMode mode))

/-- Applies the changes of some modes, one after the other. -/
def applyModes (e : Engine σ) :
    List ModeKind → Scheduler σ → Except SchedulerError Unit × Scheduler σ
  | [], s => (.ok (), s)
  | k :: ks, s => followedBy (s.applyMode e k) (applyModes e ks)

/-- Applies the mode changes that wait, each kind in its turn. -/
def configure (e : Engine σ) (s : Scheduler σ) : Except SchedulerError Unit × Scheduler σ :=
  applyModes e ModeKind.all (s.record .configure)

/-! ## Running -/

/-- How a burst of steps ends. -/
inductive BurstEnd where
  | finished (steps : UInt64)
  | panicked
  | unfinished
  deriving DecidableEq, Repr

/-- Makes one step; the answer is whether the engine gave up. -/
def stepOnce (e : Engine σ) (s : Scheduler σ) : Bool × Scheduler σ :=
  let s := s.record (.call .step)
  let visit := e.step s.engine s.shared.frame.buffer
  let s := { s with engine := visit.engine }.modify fun h =>
    { h with frame := { h.frame with buffer := visit.answer.buffer } }
  (visit.answer.panics, s.controls e visit.controls)

/-- Steps until the engine does not fast-forward, at most `limit` times, after `steps` steps. -/
def burst (e : Engine σ) : Nat → UInt64 → Scheduler σ → BurstEnd × Scheduler σ
  | 0, _, s => (.unfinished, s)
  | limit + 1, steps, s =>
    let r := s.stepOnce e
    if r.1 then (.panicked, r.2)
    else if e.fastForwards r.2.engine then burst e limit (steps + 1) r.2
    else (.finished (steps + 1), r.2)

/-- Makes the finished frame known and counts its steps. -/
def present (s : Scheduler σ) (steps : UInt64) (now : Nat) : Scheduler σ :=
  let s := (s.record (.present steps)).modify fun h =>
    { h with frame := h.frame.markReady, counter := h.counter.advance steps }
  let sample := s.rate.sample now s.shared.counter.frames.toNat
  let s := { s with rate := sample.2 }
  match sample.1 with
  | some rate => s.modify fun h => { h with counter := { h.counter with rate } }
  | none => s

/-- Makes one frame. -/
def runFrame (e : Engine σ) (s : Scheduler σ) (now limit : Nat) : TickResult × Scheduler σ :=
  match s.requireReady e "step" with
  | .error error => (.failed error, s)
  | .ok _ =>
    let paused := (s.publish .running).shared.paused
    let s := (s.publish .running).withAudio e (Audio.unmute · paused)
    let r := (s.modify fun h => { h with frame := h.frame.acquire }).burst e limit 0
    let s := r.2.modify fun h => { h with frame := h.frame.release }
    match r.1 with
    | .finished steps => (.done (.stepped steps), s.present steps now)
    | .panicked => (.panicked, s)
    | .unfinished => (.unfinished, s)

/-- Makes known that there is nothing to run, and sleeps unless that has changed. -/
def park (s : Scheduler σ) : Scheduler σ :=
  (s.publish (parkedPhase s.shared.paused)).modify (·.sleepUnlessWork s.romLoaded)

/-! ## The tick -/

/-- Makes a frame, or parks. -/
def runOrPark (e : Engine σ) (s : Scheduler σ) (now limit : Nat) : TickResult × Scheduler σ :=
  if s.romLoaded && !s.shared.paused then s.runFrame e now limit else (.done .parked, s.park)

/-- One round of the loop, of at most `limit` steps. -/
def tick (e : Engine σ) (times : TickTimes) (limit : Nat) (s : Scheduler σ) :
    TickResult × Scheduler σ :=
  let s := s.record .tick
  if s.shared.stopping then (.done .stopping, s)
  else
    match s.prepare e with
    | (.error error, s) => (.failed error, s)
    | (.ok _, s) =>
      match (s.settleLoad e times.loaded).configure e with
      | (.error error, s) => (.failed error, s)
      | (.ok _, s) => s.runOrPark e times.presented limit

end Scheduler
end EmuScheduler
