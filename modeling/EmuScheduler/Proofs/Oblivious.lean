import EmuScheduler.Proofs.Interleaving

/-!
# What the scheduler does not look at

The history is a record for the reader, and notifications are counted for whoever wants to know; no
operation looks at either. So a scheduler with another past (`Scheduler.onto`) does the same: each
operation has the same outcome, adds the same entries to its history, and leaves a scheduler that
differs in its past alone. This file says so of every operation, from the smallest to a loop that
runs by itself, and of the steps of the loop and of a world. Each lemma moves `onto` from before an
operation to after it, and follows from those on its parts.

`Scheduler.forget` takes the past away. Two schedulers that are the same without it are one
scheduler with two pasts (`onto_forget`), which is how these lemmas are used. `Scheduler.carryOn`
lets a scheduler go on with some moves, and `goAlike_of_forget` says that the past makes no
difference to what it does; `follows_of_forget` says the same of its loop with controllers beside
it.
-/

namespace EmuScheduler

namespace Scheduler

variable {σ : Type}

/-- The scheduler with `past` before its history and so many notifications more. -/
def onto (past : List Entry) (n : UInt64) (s : Scheduler σ) : Scheduler σ :=
  { s with
    history := s.history ++ past
    shared :=
      { s.shared with
        gate :=
          { s.shared.gate with notifications := s.shared.gate.notifications + n } } }

/-- The scheduler without its past. -/
def forget (s : Scheduler σ) : Scheduler σ :=
  { s with
    history := []
    shared := { s.shared with gate := { s.shared.gate with notifications := 0 } } }

variable {past : List Entry} {n : UInt64} {s : Scheduler σ}

/-- A scheduler is what is left without its past, put onto that past. -/
theorem onto_forget (s : Scheduler σ) :
    s.forget.onto s.history s.shared.gate.notifications = s := by
  unfold onto forget
  simp

/-! ### Recording and telling -/

section Operations

variable (e : Engine σ) (past n s)

/-- What happens is put before the past, whatever that is. -/
theorem onto_record (a : Action) : (s.onto past n).record a = (s.record a).onto past n := rfl

theorem onto_publish (phase : Phase) :
    (s.onto past n).publish phase = (s.publish phase).onto past n := rfl

/-- What the engine is told does not depend on the past. -/
theorem onto_tellMuted (t : Option Bool) :
    (s.onto past n).tellMuted e t = (s.tellMuted e t).onto past n := by
  cases t <;> rfl

theorem onto_withAudio (change : Audio → Audio × Option Bool) :
    (s.onto past n).withAudio e change = (s.withAudio e change).onto past n :=
  onto_tellMuted past n (s.modify fun h => { h with audio := (change s.shared.audio).1 }) e _

/-- A notification counts from wherever the count was. -/
theorem onto_notify :
    (s.onto past n).modify Shared.notify = (s.modify Shared.notify).onto past n := by
  unfold onto modify Shared.notify Gate.notify
  dsimp only
  rw [UInt64.add_assoc, UInt64.add_comm n, UInt64.add_assoc]

/-- Nor does a control. -/
theorem onto_control (c : Control) :
    (s.onto past n).control e c = (s.control e c).onto past n := by
  -- the controls that wake the loop count a notification, and a pause has a section of the audio
  -- lock
  cases c with
  | load rom =>
    exact onto_notify past n ((s.record (.control (.load rom))).modify (·.requestLoad rom))
  | pause paused =>
    cases paused with
    | true =>
      let stored := (s.record (.control (.pause true))).modify (·.storePaused true)
      exact onto_withAudio past n stored e Audio.mute
    | false =>
      exact onto_notify past n ((s.record (.control (.pause false))).modify (·.storePaused false))
  | shutdown =>
    exact onto_notify past n ((s.record (.control .shutdown)).modify Shared.requestStop)
  | wake => exact onto_notify past n (s.record (.control .wake))
  | _ => rfl

/-- One control after the other. -/
theorem onto_controls (cs : List Control) :
    (s.onto past n).controls e cs = (s.controls e cs).onto past n := by
  induction cs generalizing s with
  | nil => rfl
  | cons c cs ih =>
    -- the hypothesis is about every scheduler, and is used of the one after the first control
    change ((s.onto past n).control e c).controls e cs = _
    rw [onto_control, ih]
    rfl

/-! ### The parts of a tick -/

/-- The outcome of an operation, with another past behind it. -/
def ontoResult {α : Type} (r : α × Scheduler σ) : α × Scheduler σ :=
  (r.1, r.2.onto past n)

/-- Two parts of which neither depends on the past. -/
theorem onto_followedBy {r r' : Except SchedulerError Unit × Scheduler σ}
    {next next' : Scheduler σ → Except SchedulerError Unit × Scheduler σ}
    (hr : r' = ontoResult past n r)
    (hn : ∀ s, next' (s.onto past n) = ontoResult past n (next s)) :
    followedBy r' next' = ontoResult past n (followedBy r next) := by
  obtain ⟨r, s⟩ := r
  rw [hr]
  cases r with
  | ok u => exact hn s
  | error error => rfl

theorem onto_createTree (w : WorkingTree) :
    (s.onto past n).createTree w = ontoResult past n (s.createTree w) := rfl

/-- A purge looks at the files, and is recorded if it succeeds. -/
theorem onto_purgeImages (w : WorkingTree) :
    (s.onto past n).purgeImages e w = ontoResult past n (s.purgeImages e w) := by
  unfold purgeImages
  rw [show (s.onto past n).files = s.files from rfl,
    show (s.onto past n).engine = s.engine from rfl]
  dsimp only
  cases (w.purge s.files (e.imageExtension s.engine)).1 <;> rfl

/-- The engine is asked whether it is ready, and not the history. -/
theorem onto_setUpEngine :
    (s.onto past n).setUpEngine e = ontoResult past n (s.setUpEngine e) := by
  unfold setUpEngine
  change (if e.isReady s.engine then _ else _) = _
  split
  · rfl
  · let called := { s.record (.call .setUp) with engine := (e.setUp s.engine).engine }
    exact congrArg (Prod.mk _) (onto_controls past n called e _)

theorem onto_engage (root : Path) :
    (((s.onto past n).withAudio e Audio.engage).record (.prepared root)).publish .idle =
      (((s.withAudio e Audio.engage).record (.prepared root)).publish .idle).onto past n := by
  rw [onto_withAudio]
  rfl

theorem onto_setUpAll : (s.onto past n).setUpAll e = ontoResult past n (s.setUpAll e) := by
  unfold setUpAll
  refine onto_followedBy past n rfl fun s => ?_
  refine onto_followedBy past n (onto_purgeImages ..) fun s => ?_
  refine onto_followedBy past n (onto_setUpEngine past n (s.order e _) e) fun s => ?_
  refine onto_followedBy past n rfl fun s => ?_
  exact congrArg (Prod.mk _) (onto_engage ..)

/-- Whether there is anything to prepare is read off the phase. -/
theorem onto_prepare : (s.onto past n).prepare e = ontoResult past n (s.prepare e) := by
  unfold prepare
  change (if s.shared.phase = .uninitialized then _ else _) = _
  split
  · exact onto_setUpAll ..
  · rfl

/-- Whether a ROM is open is a flag of the loop. -/
theorem onto_closeRom : (s.onto past n).closeRom e = (s.closeRom e).onto past n := by
  unfold closeRom
  change (if s.romLoaded then _ else _) = _
  split <;> rfl

/-- A load is settled by the answer of the engine. -/
theorem onto_loadRom (rom : Path) (now : Nat) :
    (s.onto past n).loadRom e rom now = (s.loadRom e rom now).onto past n := by
  let visit := e.load s.engine s.files rom
  let s₁ := { s.record (.call (.load rom)) with engine := visit.engine }
  change (if visit.answer then ((s₁.onto past n).controls e visit.controls).acceptRom e rom now
    else ((s₁.onto past n).controls e visit.controls).rejectRom rom) =
    (if visit.answer then (s₁.controls e visit.controls).acceptRom e rom now
      else (s₁.controls e visit.controls).rejectRom rom).onto past n
  rw [onto_controls]
  split <;> rfl

/-- The load that waits is in its mailbox. -/
theorem onto_settleLoad (now : Nat) :
    (s.onto past n).settleLoad e now = (s.settleLoad e now).onto past n := by
  unfold settleLoad
  rw [show (s.onto past n).shared.requests = s.shared.requests from rfl]
  obtain ⟨rom?, rest⟩ := s.shared.requests.rom.take
  cases rom? with
  | none => rfl
  | some rom =>
    let s₁ := s.modify fun h => { h with requests := { h.requests with rom := rest } }
    change (((s₁.emit (.started rom)).onto past n).closeRom e).loadRom e rom now = _
    rw [onto_closeRom, onto_loadRom]

/-- So are the modes. -/
theorem onto_applyMode (k : ModeKind) :
    (s.onto past n).applyMode e k = ontoResult past n (s.applyMode e k) := by
  unfold applyMode
  rw [show (s.onto past n).shared.requests = s.shared.requests from rfl]
  obtain ⟨mode?, rest⟩ := s.shared.requests.takeMode k
  cases mode? with
  | none => rfl
  | some mode => exact onto_followedBy past n rfl fun s => rfl

/-- One mode after the other. -/
theorem onto_applyModes (ks : List ModeKind) :
    applyModes e ks (s.onto past n) = ontoResult past n (applyModes e ks s) := by
  -- an error ends the stage in both
  induction ks generalizing s with
  | nil => rfl
  | cons k ks ih => exact onto_followedBy past n (onto_applyMode ..) ih

theorem onto_configure : (s.onto past n).configure e = ontoResult past n (s.configure e) :=
  onto_applyModes past n (s.record .configure) e _

/-! ### Running and parking -/

/-- A step depends on the engine and the frame. -/
theorem onto_stepOnce : (s.onto past n).stepOnce e = ontoResult past n (s.stepOnce e) := by
  let visit := e.step s.engine s.shared.frame.buffer
  let stepped := { s.record (.call .step) with engine := visit.engine }.modify fun h =>
    { h with frame := { h.frame with buffer := visit.answer.buffer } }
  exact congrArg (Prod.mk _) (onto_controls past n stepped e _)

/-- So does a burst, step by step. -/
theorem onto_burst (limit : Nat) (steps : UInt64) :
    burst e limit steps (s.onto past n) = ontoResult past n (burst e limit steps s) := by
  -- by induction on the steps that it may still take
  induction limit generalizing steps s with
  | zero => rfl
  | succ limit ih =>
    unfold burst
    rw [onto_stepOnce]
    -- whether it goes on depends on the engine alone
    obtain ⟨panics, s₁⟩ := s.stepOnce e
    change (if panics then _ else if e.fastForwards s₁.engine then _ else _) = ontoResult past n
      (if panics then _ else if e.fastForwards s₁.engine then _ else _)
    cases panics with
    | true => rfl
    | false =>
      cases e.fastForwards s₁.engine with
      | true => exact ih s₁ (steps + 1)
      | false => rfl

/-- The rate is measured by the count of frames and by the clock. -/
theorem onto_present (steps : UInt64) (now : Nat) :
    (s.onto past n).present steps now = (s.present steps now).onto past n := by
  unfold present
  dsimp only [onto, record, modify]
  -- whether the window is full does not depend on the past
  cases (s.rate.sample now (s.shared.counter.advance steps).frames.toNat).1 <;> rfl

theorem onto_enter :
    (((s.onto past n).publish .running).withAudio e
        (Audio.unmute · ((s.onto past n).publish .running).shared.paused)).modify
          (fun h => { h with frame := h.frame.acquire }) =
      (((s.publish .running).withAudio e
        (Audio.unmute · (s.publish .running).shared.paused)).modify fun h =>
          { h with frame := h.frame.acquire }).onto past n := by
  rw [onto_publish, onto_withAudio]
  rfl

/-- A whole frame. -/
theorem onto_runFrame (now limit : Nat) :
    (s.onto past n).runFrame e now limit = ontoResult past n (s.runFrame e now limit) := by
  unfold runFrame
  -- the frame begins with the question whether the engine is ready
  rw [show (s.onto past n).requireReady e "step" = s.requireReady e "step" from rfl]
  cases s.requireReady e "step" with
  | error error => rfl
  | ok u =>
    dsimp only
    rw [onto_enter, onto_burst]
    obtain ⟨how, s₁⟩ := burst e limit 0
      (((s.publish .running).withAudio e
        (Audio.unmute · (s.publish .running).shared.paused)).modify fun h =>
          { h with frame := h.frame.acquire })
    cases how with
    | finished steps =>
      let left := s₁.modify fun h => { h with frame := h.frame.release }
      exact congrArg (Prod.mk _) (onto_present past n left steps now)
    | panicked | unfinished => rfl

/-- Whether there is something to run is not read off the past. -/
theorem onto_runOrPark (now limit : Nat) :
    (s.onto past n).runOrPark e now limit = ontoResult past n (s.runOrPark e now limit) := by
  unfold runOrPark
  change (if s.romLoaded && !s.shared.paused then _ else _) = ontoResult past n
    (if s.romLoaded && !s.shared.paused then _ else _)
  split
  · exact onto_runFrame ..
  · rfl

/-! ### Ticks and runs -/

/-- **A tick does not depend on the past.** -/
theorem onto_tick (times : TickTimes) (limit : Nat) :
    (s.onto past n).tick e times limit = ontoResult past n (s.tick e times limit) := by
  unfold tick
  -- the flag that ends a run is read before anything else
  change (if s.shared.stopping then _ else _) = ontoResult past n
    (if s.shared.stopping then _ else _)
  split
  · rfl
  · rw [onto_record, onto_prepare]
    obtain ⟨r, s₁⟩ := (s.record .tick).prepare e
    cases r with
    | error error => rfl
    | ok u =>
      dsimp only [ontoResult]
      rw [onto_settleLoad, onto_configure]
      obtain ⟨r, s₂⟩ := (s₁.settleLoad e times.loaded).configure e
      cases r with
      | error error => rfl
      | ok u => exact onto_runOrPark ..

/-- Nor does the release. -/
theorem onto_release : (s.onto past n).release e = (s.release e).onto past n := by
  unfold release
  rw [show ((s.onto past n).publish .stopping).modify Shared.requestStop =
    ((s.publish .stopping).modify Shared.requestStop).onto past n from rfl, onto_closeRom]
  rfl

/-- Nor does a round of the loop. -/
theorem onto_round (times : TickTimes) (limit : Nat) :
    (s.onto past n).round e times limit = ontoResult past n (s.round e times limit) := by
  unfold round
  rw [onto_tick]
  obtain ⟨r, s₁⟩ := s.tick e times limit
  cases r with
  | done outcome =>
    cases outcome with
    | stopping => exact congrArg (Prod.mk _) (onto_release ..)
    | stepped | parked => rfl
  | failed error => exact congrArg (Prod.mk _) (onto_release ..)
  | panicked | unfinished => rfl

/-- Nor do several of them. -/
theorem onto_advance (clock : Nat → TickTimes) (limit rounds : Nat) :
    (s.onto past n).advance e clock limit rounds =
      ontoResult past n (s.advance e clock limit rounds) := by
  induction rounds generalizing s with
  | zero => rfl
  | succ rounds ih =>
    unfold advance
    rw [onto_round]
    obtain ⟨progress, s₁⟩ := s.round e (clock rounds) limit
    cases progress with
    | going => exact ih s₁
    | _ => rfl

end Operations

/-! ### Going on -/

/-- Something to do with a scheduler next. -/
inductive Move where
  | tick (times : TickTimes) (limit : Nat)
  | control (c : Control)
  | outside (files : FileTree) (cheats : CheatStore)
  /-- The loop runs by itself until it sleeps or ends. -/
  | run (clock : Nat → TickTimes) (limit rounds : Nat)

/-- What a move comes to. -/
inductive Outcome where
  | ticked (result : TickResult)
  | ran (progress : Progress)
  | done
  deriving DecidableEq, Repr

/-- The outcome of a move and what it makes of the scheduler. -/
def move (e : Engine σ) (s : Scheduler σ) : Move → Outcome × Scheduler σ
  | .tick times limit => (.ticked (s.tick e times limit).1, (s.tick e times limit).2)
  | .control c => (.done, s.control e c)
  | .outside files cheats => (.done, s.outside files cheats)
  | .run clock limit rounds =>
    (.ran (s.advance e clock limit rounds).1, (s.advance e clock limit rounds).2)

/-- The outcomes of some moves, one after the other, and what they make of the scheduler. -/
def carryOn (e : Engine σ) (s : Scheduler σ) : List Move → List Outcome × Scheduler σ
  | [] => ([], s)
  | m :: rest =>
    ((s.move e m).1 :: ((s.move e m).2.carryOn e rest).1, ((s.move e m).2.carryOn e rest).2)

section Going

variable (e : Engine σ) (past n s)

/-- So no public call depends on the past. -/
theorem onto_move (m : Move) : (s.onto past n).move e m = ontoResult past n (s.move e m) := by
  cases m with
  | tick times limit =>
    exact congrArg (fun r => (Outcome.ticked r.1, r.2)) (onto_tick past n s e times limit)
  | control c => exact congrArg (Prod.mk Outcome.done) (onto_control ..)
  | outside files cheats => rfl
  | run clock limit rounds =>
    exact congrArg (fun r => (Outcome.ran r.1, r.2)) (onto_advance past n s e clock limit rounds)

/-- Nor do any number of calls. -/
theorem onto_carryOn (moves : List Move) :
    (s.onto past n).carryOn e moves = ontoResult past n (s.carryOn e moves) := by
  induction moves generalizing s with
  | nil => rfl
  | cons m rest ih =>
    unfold carryOn
    rw [onto_move]
    dsimp only [ontoResult]
    rw [ih]
    rfl

end Going
end Scheduler

/-! ### The loop, and others beside it -/

section Loop

open Scheduler

variable {ι σ : Type} {e : Engine σ} {s t : Scheduler σ} {p p' : Point} {past : List Entry}
  {n : UInt64}

/-- **A step of the loop does not depend on the past**: it leaves the past behind what it comes to,
and with any other past it is the same step. -/
theorem loop_onto (hl : Loop e p (s.onto past n) p' t) :
    ∃ s' : Scheduler σ, t = s'.onto past n ∧
      ∀ past' n', Loop e p (s.onto past' n') p' (s'.onto past' n') := by
  -- the step that was made onto one past is the step that is made onto any other
  cases hl with
  | halt h => exact ⟨s.record .tick, rfl, fun _ _ => .halt h⟩
  | first h fresh => exact ⟨s.record .tick, rfl, fun _ _ => .first h fresh⟩
  | begin h prepared => exact ⟨s.record .tick, rfl, fun _ _ => .begin h prepared⟩
  | create h =>
    cases h
    exact ⟨_, congrArg Prod.snd (onto_createTree past n (s.publish .initializing) _),
      fun _ _ => .create rfl⟩
  | purge h =>
    rw [onto_purgeImages] at h
    cases h
    exact ⟨_, rfl, fun _ _ => .purge (onto_purgeImages ..)⟩
  | direct => exact ⟨s.order e _, rfl, fun _ _ => .direct⟩
  | skip h => exact ⟨s, rfl, fun _ _ => .skip h⟩
  | setUp h =>
    exact ⟨{ s.record (.call .setUp) with engine := (e.setUp s.engine).engine }, rfl,
      fun _ _ => .setUp h⟩
  | setUpEnds => exact ⟨s, rfl, fun _ _ => .setUpEnds⟩
  | check => exact ⟨s, rfl, fun _ _ => .check⟩
  | engage => exact ⟨_, onto_engage past n s e _, fun _ _ => onto_engage _ _ s e _ ▸ .engage⟩
  | noLoad h => exact ⟨s, rfl, fun _ _ => .noLoad h⟩
  | takeLoad h =>
    exact ⟨s.modify fun h =>
      { h with requests := { h.requests with rom := s.shared.requests.rom.take.2 } }, rfl,
      fun _ _ => .takeLoad h⟩
  | @announce _ rom => exact ⟨s.emit (.started rom), rfl, fun _ _ => .announce⟩
  | close => exact ⟨_, onto_closeRom past n s e, fun _ _ => onto_closeRom _ _ s e ▸ .close⟩
  | @load _ rom =>
    exact ⟨{ s.record (.call (.load rom)) with engine := (e.load s.engine s.files rom).engine },
      rfl, fun _ _ => .load⟩
  | @accept _ rom now => exact ⟨s.acceptRom e rom now, rfl, fun _ _ => .accept now⟩
  | @reject _ rom => exact ⟨s.rejectRom rom, rfl, fun _ _ => .reject⟩
  | configure => exact ⟨s.record .configure, rfl, fun _ _ => .configure⟩
  | apply h =>
    rw [onto_applyMode] at h
    cases h
    exact ⟨_, rfl, fun _ _ => .apply (onto_applyMode ..)⟩
  | configured => exact ⟨s, rfl, fun _ _ => .configured⟩
  | choose h => exact ⟨s, rfl, fun _ _ => .choose h⟩
  | rest h => exact ⟨s, rfl, fun _ _ => .rest h⟩
  | run => exact ⟨s.publish .running, rfl, fun _ _ => .run⟩
  | unmute =>
    exact ⟨_, onto_withAudio past n s e _, fun _ _ => onto_withAudio _ _ s e _ ▸ .unmute⟩
  | lock => exact ⟨s.modify fun h => { h with frame := h.frame.acquire }, rfl, fun _ _ => .lock⟩
  | step =>
    let visit := e.step s.engine s.shared.frame.buffer
    exact ⟨{ s.record (.call .step) with engine := visit.engine }.modify fun h =>
      { h with frame := { h.frame with buffer := visit.answer.buffer } }, rfl, fun _ _ => .step⟩
  | again h => exact ⟨s, rfl, fun _ _ => .again h⟩
  | finish h =>
    exact ⟨s.modify fun h => { h with frame := h.frame.release }, rfl, fun _ _ => .finish h⟩
  | giveUp => exact ⟨s.modify fun h => { h with frame := h.frame.release }, rfl, fun _ _ => .giveUp⟩
  | abandon =>
    exact ⟨s.modify fun h => { h with frame := h.frame.release }, rfl, fun _ _ => .abandon⟩
  | @present _ steps now =>
    exact ⟨_, onto_present past n s steps now,
      fun _ _ => onto_present _ _ s steps now ▸ .present now⟩
  | park => exact ⟨s, rfl, fun _ _ => .park⟩
  | @publish _ phase => exact ⟨s.publish phase, rfl, fun _ _ => .publish⟩
  | sleep => exact ⟨s.modify (·.sleepUnlessWork s.romLoaded), rfl, fun _ _ => .sleep⟩
  | stop h => exact ⟨s.publish .stopping, rfl, fun _ _ => .stop h⟩
  | abort => exact ⟨s.publish .stopping, rfl, fun _ _ => .abort⟩
  | requestStop => exact ⟨s.modify Shared.requestStop, rfl, fun _ _ => .requestStop⟩
  | empty => exact ⟨_, onto_closeRom past n s e, fun _ _ => onto_closeRom _ _ s e ▸ .empty⟩
  | vanish => exact ⟨s.publish .stopped, rfl, fun _ _ => .vanish⟩

/-- The parts of a control, one after the other. -/
theorem onto_runParts (xs : List ControlPart) :
    (s.onto past n).runParts e xs = (s.runParts e xs).onto past n := by
  induction xs generalizing s with
  | nil => rfl
  | cons x xs ih =>
    have first : (s.onto past n).runPart e x = (s.runPart e x).onto past n := by
      cases x with
      | notify => exact onto_notify ..
      | mute => exact onto_withAudio ..
      | _ => rfl
    change ((s.onto past n).runPart e x).runParts e xs = _
    rw [first]
    exact ih

namespace World

/-- The world with another past behind its scheduler. -/
def onto (past : List Entry) (n : UInt64) (w : World ι σ) : World ι σ :=
  { w with scheduler := w.scheduler.onto past n }

variable [DecidableEq ι] {w w' w₀ : World ι σ}

/-- The same of the steps of a world. -/
theorem step_onto (hs : Step e (w.onto past n) w') :
    ∃ w₁ : World ι σ, w' = w₁.onto past n ∧
      ∀ past' n', Step e (w.onto past' n') (w₁.onto past' n') := by
  -- who makes the step sees what is shared, and never the history
  cases hs with
  | loop awake hl =>
    obtain ⟨s, rfl, same⟩ := loop_onto hl
    exact ⟨{ w with point := _, scheduler := s }, rfl, fun _ _ => .loop awake (same _ _)⟩
  | call i c idle =>
    let xs := c.parts.take 1
    have begun (past : List Entry) (n : UInt64) :
        ((w.scheduler.onto past n).record (.control c)).runParts e xs =
          ((w.scheduler.record (.control c)).runParts e xs).onto past n :=
      onto_runParts (s := w.scheduler.record (.control c)) xs
    refine ⟨⟨w.point, (w.scheduler.record (.control c)).runParts e xs, _⟩,
      congrArg (World.mk w.point · _) (begun past n), fun past' n' => ?_⟩
    unfold World.onto
    dsimp only
    rw [← begun]
    exact .call i c idle
  | @act i x rest next =>
    have acted (past : List Entry) (n : UInt64) :
        (w.scheduler.onto past n).runPart e x = (w.scheduler.runPart e x).onto past n :=
      onto_runParts [x]
    refine ⟨⟨w.point, w.scheduler.runPart e x, _⟩,
      congrArg (World.mk w.point · _) (acted past n), fun past' n' => ?_⟩
    unfold World.onto
    dsimp only
    rw [← acted]
    exact .act next
  | outside files cheats =>
    exact ⟨{ w with scheduler := w.scheduler.outside files cheats }, rfl,
      fun _ _ => .outside files cheats⟩

/-- **What a world comes to does not depend on the past.** -/
theorem reachable_onto (hr : Reachable e (w₀.onto past n) w') :
    ∃ w : World ι σ, w' = w.onto past n ∧
      ∀ past' n', Reachable e (w₀.onto past' n') (w.onto past' n') := by
  induction hr with
  | start => exact ⟨w₀, rfl, fun _ _ => .start⟩
  | step _ hs ih =>
    obtain ⟨w, rfl, before⟩ := ih
    obtain ⟨w₁, rfl, same⟩ := step_onto hs
    exact ⟨w₁, rfl, fun past' n' => (before past' n').step (same past' n')⟩

end World

/-! ### Schedulers that differ in their past alone -/

/-- The two go on alike: whatever is done with them, each move has the same outcome, adds the same
entries to the history, and leaves them as they were, different in their past alone. -/
def Scheduler.GoAlike (e : Engine σ) (s₁ s₂ : Scheduler σ) : Prop :=
  ∀ moves : List Move,
    (s₁.carryOn e moves).1 = (s₂.carryOn e moves).1 ∧
      (s₁.carryOn e moves).2.forget = (s₂.carryOn e moves).2.forget ∧
      ∃ new, (s₁.carryOn e moves).2.history = new ++ s₁.history ∧
        (s₂.carryOn e moves).2.history = new ++ s₂.history

/-- Whatever the first world can come to, the second can as well, and the same happens on the
way. -/
def World.Follows [DecidableEq ι] (e : Engine σ) (w v : World ι σ) : Prop :=
  ∀ w', Reachable e w w' → ∃ v', Reachable e v v' ∧
    v'.point = w'.point ∧ v'.todo = w'.todo ∧ v'.scheduler.forget = w'.scheduler.forget ∧
      ∃ new, w'.scheduler.history = new ++ w.scheduler.history ∧
        v'.scheduler.history = new ++ v.scheduler.history

section Forget

variable {s₁ s₂ : Scheduler σ}

/-- **Two schedulers that differ in their past alone go on alike.** -/
theorem goAlike_of_forget (h : s₁.forget = s₂.forget) : s₁.GoAlike e s₂ := by
  intro moves
  -- both are the first without its past, each with a past of its own
  have first := onto_carryOn s₁.history s₁.shared.gate.notifications s₁.forget e moves
  have second := onto_carryOn s₂.history s₂.shared.gate.notifications s₁.forget e moves
  rw [onto_forget] at first
  rw [h, onto_forget, ← h] at second
  rw [first, second]
  exact ⟨rfl, rfl, _, rfl, rfl⟩

/-- **Their loops do so too**, with controllers beside them. -/
theorem follows_of_forget [DecidableEq ι] (h : s₁.forget = s₂.forget) (p : Point)
    (todo : ι → List ControlPart) : World.Follows e ⟨p, s₁, todo⟩ ⟨p, s₂, todo⟩ := by
  intro w₁ hr
  have base : (⟨p, s₁, todo⟩ : World ι σ) = World.onto s₁.history s₁.shared.gate.notifications
      ⟨p, s₁.forget, todo⟩ := congrArg (World.mk p · todo) (onto_forget s₁).symm
  rw [base] at hr
  -- so what the first world comes to has its past at the end, where the other may stand as well
  obtain ⟨w, rfl, same⟩ := World.reachable_onto hr
  have other := same s₂.history s₂.shared.gate.notifications
  unfold World.onto at other
  dsimp only at other
  rw [h, onto_forget] at other
  exact ⟨_, other, rfl, rfl, rfl, w.scheduler.history, rfl, rfl⟩

end Forget
end Loop
end EmuScheduler
