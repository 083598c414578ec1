import EmuScheduler.Proofs.EngineProtocol
import EmuScheduler.Proofs.FrameAccounting
import EmuScheduler.Proofs.Sound

/-!
# After a failed start

A run ends with the first tick that fails. Who ticks by hand can go on after it, and this file says
what comes of that if it was the start that failed: a directory could not be made, the engine
refused to be set up, or it was not ready afterwards.

One would expect later ticks to leave the engine and all that waits alone (`LeavesAlone`), until a
start succeeds. `failed_start_not_final` says that they do not. The first tick alone prepares, and
whether one is the first is read off the phase, which the preparations change before they can fail;
so no later tick prepares anything, and each goes on to what comes next. A load that waits is given
to the engine, ready or not; of the modes that wait the first is given to the engine or, if that is
not ready, taken and lost; and once nothing waits the loop makes known that it idles. The theorem
says exactly which ticks leave all alone: those of a scheduler that is to end, and those that have a
ROM to run on an engine that is not ready.
-/

namespace EmuScheduler

open Scheduler

variable {σ : Type} {e : Engine σ}

/-- **What public calls can make of a scheduler**, in any order and whatever ticks come to. -/
inductive Session (e : Engine σ) (s₀ : Scheduler σ) : Scheduler σ → Prop
  | start : Session e s₀ s₀
  | control {s : Scheduler σ} (hs : Session e s₀ s) (c : Control) : Session e s₀ (s.control e c)
  | outside {s : Scheduler σ} (hs : Session e s₀ s) (files : FileTree) (cheats : CheatStore) :
      Session e s₀ (s.outside files cheats)
  | tick {s : Scheduler σ} (hs : Session e s₀ s) (times : TickTimes) (limit : Nat) :
      Session e s₀ (s.tick e times limit).2

/-- Whether a call makes use of an engine that was set up. -/
def EngineCall.isUse : EngineCall → Bool
  | .load _ | .step | .order .closeRom | .order (.setMode _) => true
  | _ => false

/-- Whether a phase says that the engine was set up. -/
def Phase.isUp : Phase → Bool
  | .idle | .running | .paused => true
  | _ => false

/-- Whether a load or a mode change waits. -/
def Requests.Waits (r : Requests) : Prop :=
  r.rom.isPending = true ∨ ∃ k, r.waiting? k ≠ none

/-- From `s` to `s'` no use was made of the engine, nothing that waited was taken, and the phase
does not say that the engine was set up. -/
structure LeavesAlone (s s' : Scheduler σ) : Prop where
  unused : ∃ new, s'.history = new ++ s.history ∧ ∀ c ∈ calls new, c.isUse = false
  load : s.shared.requests.rom.isPending = true → s'.shared.requests.rom.isPending = true
  modes : ∀ k, s.shared.requests.waiting? k ≠ none → s'.shared.requests.waiting? k ≠ none
  phase : s'.shared.phase.isUp = false

/-! ### Only the first tick prepares -/

section Known

variable {s₀ s s' : Scheduler σ} {p p' : Point} {phase : Phase}

/-- The phase that is made known by who parks was chosen from the pause flag. -/
theorem known_of_publishing (hr : Reached e s₀ p s) (hp : p = .publishing phase) :
    phase ≠ .uninitialized := by
  induction hr with
  | start => cases hp
  | control _ ho => exact (hp ▸ ho : (Point.publishing phase).Open).elim
  | outside _ _ _ ih => exact ih hp
  | loop _ hl =>
    cases hl with
    | park =>
      -- the one step that comes there with a phase of its own choosing
      cases hp
      exact parkedPhase_known _
    | create | purge | setUpEnds | check | apply | choose =>
      exact absurd hp (Point.after_ne nofun nofun)
    | _ => cases hp

/-- A scheduler whose phase is past the beginning stays past it. -/
theorem known_of_loop (hr : Reached e s₀ p s) (known : s.shared.phase ≠ .uninitialized)
    (hl : Loop e p s p' s') : s'.shared.phase ≠ .uninitialized := by
  obtain same | rfl | ⟨other, -⟩ := phase_of_loop hl
  · rw [same]
    exact known
  · exact known_of_publishing hr rfl
  · exact other

/-- So does every way of the loop from there. -/
theorem known_reached (hr : Reached e s₀ p s) (known : s₀.shared.phase ≠ .uninitialized) :
    s.shared.phase ≠ .uninitialized := by
  induction hr with
  | start => exact known
  | loop hr hl ih => exact known_of_loop hr ih hl
  | control _ _ c ih =>
    rw [control_shared, Shared.control_phase]
    exact ih
  | outside _ _ _ ih => exact ih

/-- What every way of the loop keeps, public calls keep too: a tick is a run of its own, which may
begin anywhere. -/
theorem Session.kept {P : Scheduler σ → Prop}
    (reached : ∀ {s p t}, P s → Reached e s p t → P t) (h : P s₀) (hs : Session e s₀ s) : P s := by
  induction hs with
  | start => exact h
  | control _ c ih => exact reached ih (Reached.start.control trivial c)
  | outside _ files cheats ih => exact reached ih (Reached.start.outside files cheats)
  | @tick s _ times limit ih => exact reached ih (Reached.start.tick (Prod.eta _).symm)

/-- And so do public calls. -/
theorem known_session (hs : Session e s₀ s) (known : s₀.shared.phase ≠ .uninitialized) :
    s.shared.phase ≠ .uninitialized :=
  hs.kept (P := (·.shared.phase ≠ .uninitialized)) (fun known hr => known_reached hr known) known

/-- Past the beginning there is nothing to prepare. -/
theorem prepare_of_known (known : s.shared.phase ≠ .uninitialized) :
    s.prepare e = (.ok (), s) :=
  if_neg known

/-- A tick of a scheduler that is to end. -/
theorem tick_of_stopping (stops : s.shared.stopping = true) (times : TickTimes) (limit : Nat) :
    s.tick e times limit = (.done .stopping, s.record .tick) := by
  unfold Scheduler.tick
  exact if_pos stops

/-- A tick of a scheduler that is not to end. -/
theorem tick_of_going (going : s.shared.stopping = false) (times : TickTimes) (limit : Nat) :
    s.tick e times limit =
      match (s.record .tick).prepare e with
      | (.error error, s₁) => (.failed error, s₁)
      | (.ok _, s₁) =>
        match (s₁.settleLoad e times.loaded).configure e with
        | (.error error, s₂) => (.failed error, s₂)
        | (.ok _, s₂) => s₂.runOrPark e times.presented limit := by
  have goesOn : ¬(s.record .tick).shared.stopping = true := by
    change ¬s.shared.stopping = true
    rw [going]
    exact Bool.false_ne_true
  exact if_neg goesOn

/-- A tick that is not the first begins with the load that waits; it fails with the modes, or runs
or parks. -/
theorem tick_of_known (known : s.shared.phase ≠ .uninitialized) (going : s.shared.stopping = false)
    (times : TickTimes) (limit : Nat) {r : Except SchedulerError Unit × Scheduler σ}
    (h : ((s.record .tick).settleLoad e times.loaded).configure e = r) :
    (∃ error, r.1 = .error error ∧ s.tick e times limit = (.failed error, r.2)) ∨
      r.1 = .ok () ∧ s.tick e times limit = r.2.runOrPark e times.presented limit := by
  rw [tick_of_going going, prepare_of_known (s := s.record .tick) known]
  dsimp only
  rw [h]
  obtain ⟨r, s'⟩ := r
  cases r with
  | ok u => exact .inr ⟨rfl, rfl⟩
  | error error => exact .inl ⟨error, rfl, rfl⟩

end Known

/-! ### What a tick goes on to -/

section Tick

variable {s s' : Scheduler σ} {k : ModeKind} {ks : List ModeKind} {now limit : Nat}

/-- A history only grows; `mid` is what happened in between. -/
theorem LeavesAlone.unused_of_suffix (h : LeavesAlone s s') {mid : List Entry}
    (hm : mid ++ s.history <:+ s'.history) : ∀ c ∈ calls mid, c.isUse = false := by
  obtain ⟨new, history, unused⟩ := h.unused
  obtain ⟨newer, heq⟩ := hm
  rw [history, ← List.append_assoc] at heq
  obtain rfl : newer ++ mid = new := List.append_cancel_right heq
  intro c hc
  refine unused c ?_
  rw [calls_append]
  exact List.mem_append_right _ hc

/-- Up to the run of a frame a tick only adds to the history. -/
theorem suffix_preamble {p₀ p : Point} (hp : Preamble e p₀ s p s') : s.history <:+ s'.history := by
  obtain ⟨new, still⟩ := still_of_preamble hp
  exact ⟨new, still.history.symm⟩

/-- So does a burst, step by step. -/
theorem suffix_burst {n : UInt64} : s.history <:+ (s.burst e limit n).2.history := by
  induction limit generalizing n s with
  | zero => exact List.suffix_refl _
  | succ limit ih =>
    obtain ⟨new, spell, -⟩ := spell_stepOnce (e := e) s
    have stepped : s.history <:+ (s.stepOnce e).2.history := ⟨new, spell.history.symm⟩
    unfold Scheduler.burst
    dsimp only
    -- after a step the burst ends, because the engine gave up, or goes on, or ends with a frame
    split
    · exact stepped
    · split
      · exact stepped.trans ih
      · exact stepped

/-- And so does what comes after the preamble. -/
theorem suffix_runOrPark : s.history <:+ (s.runOrPark e now limit).2.history := by
  obtain ⟨-, -, heq⟩ | ⟨-, ⟨-, -, heq⟩ | ⟨-, how, s₁, hb, ends⟩⟩ :=
    runOrPark_cases (e := e) (s := s) (Prod.eta (s.runOrPark e now limit)).symm
  · rw [heq]
    exact List.suffix_cons _ _
  · rewrite [heq]
    exact List.suffix_refl _
  · -- a burst, which is entered, runs and is left
    obtain ⟨s₂, new, still, entered⟩ := still_enter (e := e) s
    have opened : s.history <:+ (s.enter e).history := by
      rw [entered]
      exact ⟨new, still.history.symm⟩
    have ended : (s.enter e).history <:+ s₁.history := by
      have grown : (s.enter e).history <:+ ((s.enter e).burst e limit 0).2.history := suffix_burst
      rw [hb] at grown
      exact grown
    have left := opened.trans ended
    obtain ⟨steps, -, -, heq⟩ | ⟨-, -, heq⟩ | ⟨-, -, heq⟩ := ends
    · obtain ⟨rate, window, made⟩ := present_cases s₁.leave steps now
      rw [heq, made]
      exact left.trans (List.suffix_cons _ _)
    · rw [heq]
      exact left
    · rw [heq]
      exact left

/-- A load that waits is given to the engine, whether or not it is ready. -/
theorem asked_of_settleLoad {rom : Path} (hw : s.shared.requests.rom.take.1 = some rom)
    (now : Nat) :
    ∃ mid, mid ++ s.history <:+ (s.settleLoad e now).history ∧ .load rom ∈ calls mid := by
  unfold Scheduler.settleLoad
  split
  · next h => exact absurd (hw.symm.trans (congrArg Prod.fst h)) nofun
  · next rom' rest h =>
    obtain rfl : rom = rom' := Option.some.inj (hw.symm.trans (congrArg Prod.fst h))
    dsimp only
    generalize hs₁ : Scheduler.emit _ (.started rom) = s₁
    have announced : ∃ x, s₁.history = x :: s.history := ⟨_, by rw [← hs₁]; rfl⟩
    obtain ⟨x, announced⟩ := announced
    obtain ⟨new, closed⟩ := still_closeRom (e := e) s₁
    -- the load is announced and the old ROM closed; then the engine is called, and no check
    -- stands before that
    let visit := e.load (s₁.closeRom e).engine (s₁.closeRom e).files rom
    let called : Scheduler σ :=
      { (s₁.closeRom e).record (.call (.load rom)) with engine := visit.engine }
    have visited : Preamble e (.inLoad rom visit.answer) called (.inLoad rom visit.answer) called :=
      .start
    have rest := suffix_preamble ((visited.controls trivial trivial visit.controls).answered now)
    refine ⟨⟨.call (.load rom), (s₁.closeRom e).view⟩ :: (new ++ [x]), ?_, List.mem_cons_self⟩
    rw [List.cons_append, List.append_assoc, List.singleton_append, ← announced, ← closed.history]
    exact rest

/-- Where no mode change waits there is nothing to apply. -/
theorem applyModes_of_none (hn : ∀ k, s.shared.requests.waiting? k = none) :
    applyModes e ks s = (.ok (), s) := by
  induction ks with
  | nil => rfl
  | cons k ks ih =>
    obtain ⟨-, hr, hs⟩ | ⟨mode, hm, -⟩ := applyMode_cases (e := e) (s := s) (k := k)
      (Prod.eta (s.applyMode e k)).symm
    · unfold Scheduler.applyModes Scheduler.followedBy
      rw [hr, hs]
      exact ih
    · exact absurd ((hn k).symm.trans hm) nofun

/-- Of the mode changes that wait the first is given to the engine; or the engine is not ready, and
the change is lost. -/
theorem taken_of_applyModes (hk : k ∈ ks) (hw : s.shared.requests.waiting? k ≠ none) :
    (∃ mid mode, mid ++ s.history <:+ (applyModes e ks s).2.history ∧
        .order (.setMode mode) ∈ calls mid) ∨
      ∃ j, s.shared.requests.waiting? j ≠ none ∧
        applyModes e ks s = (.error (.notInitialized (operation j)),
          s.modify fun h => { h with requests := (s.shared.requests.takeMode j).2 }) := by
  induction ks with
  | nil => exact absurd hk List.not_mem_nil
  | cons j ks ih =>
    obtain ⟨hn, hr, hs⟩ | ⟨mode, hm, ⟨hr, hs⟩ | ⟨hr, hs⟩⟩ :=
      applyMode_cases (e := e) (s := s) (k := j) (Prod.eta (s.applyMode e j)).symm
    · -- nothing of this kind waits, so the change is among the others
      have later : k ∈ ks := by
        refine (List.mem_cons.mp hk).resolve_left ?_
        rintro rfl
        exact hw hn
      unfold Scheduler.applyModes Scheduler.followedBy
      rw [hr, hs]
      exact ih later
    · -- the engine is ready, and is given what waits
      left
      obtain ⟨v, given⟩ : ∃ v, (s.applyMode e j).2.history =
          ⟨.call (.order (.setMode mode)), v⟩ :: s.history := ⟨_, by rw [hs]; rfl⟩
      have begun : Preamble e (.applying ks) (s.applyMode e j).2 (.applying ks)
          (s.applyMode e j).2 := .start
      have rest := suffix_preamble begun.applyModes
      rw [given] at rest
      refine ⟨[⟨.call (.order (.setMode mode)), v⟩], mode, ?_, List.mem_singleton.mpr rfl⟩
      unfold Scheduler.applyModes Scheduler.followedBy
      rw [hr]
      exact rest
    · -- it is not, but the change has left its mailbox
      right
      refine ⟨j, by rw [hm]; exact Option.some_ne_none _, ?_⟩
      unfold Scheduler.applyModes Scheduler.followedBy
      rw [hr, hs]

/-- In a burst no phase is made known. -/
theorem phase_burst {n : UInt64} : (s.burst e limit n).2.shared.phase = s.shared.phase := by
  have stepped (s : Scheduler σ) : (s.stepOnce e).2.shared.phase = s.shared.phase :=
    controls_phase ..
  -- by induction on the steps that it may still take
  induction limit generalizing n s with
  | zero => rfl
  | succ limit ih =>
    unfold Scheduler.burst
    dsimp only
    split
    · exact stepped s
    · split
      · exact ih.trans (stepped s)
      · exact stepped s

/-- Who parks, or runs an engine that is ready, makes that known. -/
theorem isUp_runOrPark
    (h : (s.romLoaded && !s.shared.paused) = false ∨ e.isReady s.engine = true) :
    (s.runOrPark e now limit).2.shared.phase.isUp = true := by
  obtain ⟨-, -, heq⟩ | ⟨runs, ⟨unready, -, -⟩ | ⟨-, how, s₁, hb, ends⟩⟩ :=
    runOrPark_cases (e := e) (s := s) (Prod.eta (s.runOrPark e now limit)).symm
  · rw [heq]
    change (parkedPhase s.shared.paused).isUp = true
    unfold parkedPhase
    split <;> rfl
  · obtain rests | ready := h
    · exact absurd (rests.symm.trans runs) Bool.false_ne_true
    · exact absurd (unready.symm.trans ready) Bool.false_ne_true
  · -- a frame begins by making known that it runs, and nothing in it changes that
    have running : s₁.shared.phase = .running := by
      have kept : ((s.enter e).burst e limit 0).2.shared.phase = (s.enter e).shared.phase :=
        phase_burst
      rw [hb] at kept
      refine kept.trans ?_
      change ((s.publish .running).withAudio e (Audio.unmute · s.shared.paused)).shared.phase = _
      rw [withAudio_shared]
      rfl
    obtain ⟨steps, -, -, heq⟩ | ⟨-, -, heq⟩ | ⟨-, -, heq⟩ := ends
    · obtain ⟨rate, window, made⟩ := present_cases s₁.leave steps now
      rw [heq, made]
      exact congrArg Phase.isUp running
    · rw [heq]
      exact congrArg Phase.isUp running
    · rw [heq]
      exact congrArg Phase.isUp running

/-- With a ROM to run on an engine that is not ready a tick fails, and has done nothing. -/
theorem runOrPark_of_unready (runs : (s.romLoaded && !s.shared.paused) = true)
    (unready : e.isReady s.engine = false) :
    s.runOrPark e now limit = (.failed (.notInitialized "step"), s) := by
  unfold Scheduler.runOrPark
  rw [if_pos runs]
  unfold Scheduler.runFrame Scheduler.requireReady
  rw [if_neg (by simp [unready])]

end Tick

/-! ### Ticks that leave all alone -/

section Alone

variable {s s' : Scheduler σ} {times : TickTimes} {limit : Nat}

/-- To apply the modes only adds to the history. -/
theorem suffix_configure : s.history <:+ (s.configure e).2.history := by
  have begun : Preamble e .configuring s .configuring s := .start
  exact suffix_preamble begun.configure

/-- What happened before a tick runs or parks is in its history. -/
theorem suffix_tick (known : s.shared.phase ≠ .uninitialized) (going : s.shared.stopping = false)
    (times : TickTimes) (limit : Nat) :
    (((s.record .tick).settleLoad e times.loaded).configure e).2.history <:+
      (s.tick e times limit).2.history := by
  obtain ⟨error, -, heq⟩ | ⟨-, heq⟩ := tick_of_known (e := e) known going times limit rfl
  · rewrite [heq]
    exact List.suffix_refl _
  · rw [heq]
    exact suffix_runOrPark

/-- Every load that waits is given to the engine. -/
theorem asked_of_tick (known : s.shared.phase ≠ .uninitialized) (going : s.shared.stopping = false)
    {rom : Path} (hw : s.shared.requests.rom.take.1 = some rom) :
    ∃ mid, mid ++ s.history <:+ (s.tick e times limit).2.history ∧ .load rom ∈ calls mid := by
  obtain ⟨mid, grown, asked⟩ :=
    asked_of_settleLoad (e := e) (s := s.record .tick) hw times.loaded
  refine ⟨mid ++ [⟨.tick, s.view⟩], ?_, ?_⟩
  · rw [List.append_assoc]
    exact (grown.trans suffix_configure).trans (suffix_tick known going times limit)
  · rw [calls_append]
    exact List.mem_append_left _ asked

/-- Where no load waits the tick goes on to the modes. -/
theorem settleLoad_of_none (hn : s.shared.requests.rom.isPending = false) (now : Nat) :
    s.settleLoad e now = s := by
  unfold Scheduler.settleLoad
  split
  · rfl
  · next rom rest h =>
    have waits : s.shared.requests.rom.value? = some rom := congrArg Prod.fst h
    unfold Mailbox.isPending at hn
    rw [waits] at hn
    exact absurd hn nofun

/-- A tick that leaves all alone has nothing before it to take: it would give a load to the engine,
and a mode too or lose it. -/
theorem not_waits_of_leavesAlone (known : s.shared.phase ≠ .uninitialized)
    (going : s.shared.stopping = false) (h : LeavesAlone s (s.tick e times limit).2) :
    ¬s.shared.requests.Waits := by
  have unasked : s.shared.requests.rom.isPending = false := by
    cases hw : s.shared.requests.rom.value? with
    | none =>
      unfold Mailbox.isPending
      rw [hw]
      rfl
    | some rom =>
      have taken : s.shared.requests.rom.take.1 = some rom := hw
      obtain ⟨mid, grown, asked⟩ := asked_of_tick (e := e) known going taken
      exact absurd (h.unused_of_suffix grown _ asked) nofun
  rintro (pending | ⟨k, hk⟩)
  · exact absurd (unasked.symm.trans pending) Bool.false_ne_true
  · have all : k ∈ ModeKind.all := by cases k <;> decide
    have settled : (s.record .tick).settleLoad e times.loaded = s.record .tick :=
      settleLoad_of_none (s := s.record .tick) unasked _
    have taken := taken_of_applyModes (e := e) (s := (s.record .tick).record .configure) all hk
    have configured := tick_of_known (e := e) known going times limit rfl
    have grown := suffix_tick (e := e) known going times limit
    rw [settled] at configured grown
    obtain ⟨mid, mode, given, hm⟩ | ⟨j, hj, lost⟩ := taken
    · -- the engine was given the mode
      have before : mid ++ [⟨.configure, s.view⟩, ⟨.tick, s.view⟩] ++ s.history <:+
          (s.tick e times limit).2.history := by
        rw [List.append_assoc]
        exact given.trans grown
      refine absurd (h.unused_of_suffix before (.order (.setMode mode)) ?_) nofun
      rw [calls_append]
      exact List.mem_append_left _ hm
    · -- the tick failed with the mode in its hands
      have failed : ((s.record .tick).configure e) = _ := lost
      rw [failed] at configured
      obtain ⟨error, -, heq⟩ | ⟨hn, -⟩ := configured
      · refine h.modes j hj ?_
        rw [heq]
        change ((s.shared.requests.takeMode j).2).waiting? j = none
        rw [Requests.waiting?_takeMode, if_pos rfl]
      · exact absurd hn nofun

/-- Where nothing waits a tick only runs or parks. -/
theorem tick_of_not_waits (known : s.shared.phase ≠ .uninitialized)
    (going : s.shared.stopping = false) (hn : ¬s.shared.requests.Waits) :
    s.tick e times limit =
      ((s.record .tick).record .configure).runOrPark e times.presented limit := by
  have unasked : s.shared.requests.rom.isPending = false :=
    (Bool.not_eq_true _).mp fun pending => hn (.inl pending)
  have unchanged (k : ModeKind) : s.shared.requests.waiting? k = none :=
    Classical.not_not.mp fun hk => hn (.inr ⟨k, hk⟩)
  -- so neither the load nor a mode gives the tick anything to do
  have settled : (s.record .tick).settleLoad e times.loaded = s.record .tick :=
    settleLoad_of_none (s := s.record .tick) unasked _
  have configured : (s.record .tick).configure e = (.ok (), (s.record .tick).record .configure) :=
    applyModes_of_none unchanged
  have ticked := tick_of_known (e := e) known going times limit rfl
  rw [settled, configured] at ticked
  obtain ⟨error, hr, -⟩ | ⟨-, heq⟩ := ticked
  · exact absurd hr nofun
  · exact heq

/-- **The ticks that leave all alone**, of a scheduler that was ticked before. -/
theorem leavesAlone_tick_iff (known : s.shared.phase ≠ .uninitialized) :
    LeavesAlone s (s.tick e times limit).2 ↔
      s.shared.phase.isUp = false ∧
        (s.shared.stopping = true ∨
          ¬s.shared.requests.Waits ∧ (s.romLoaded && !s.shared.paused) = true ∧
            e.isReady s.engine = false) := by
  cases going : s.shared.stopping with
  | true =>
    -- the tick is over with its entry
    rw [tick_of_stopping going]
    constructor
    · intro h
      exact ⟨h.phase, .inl rfl⟩
    · rintro ⟨down, -⟩
      exact ⟨⟨[⟨.tick, s.view⟩], rfl, nofun⟩, id, fun _ hk => hk, down⟩
  | false =>
    let s₁ := (s.record .tick).record .configure
    constructor
    · intro h
      have idle := not_waits_of_leavesAlone known going h
      have down := h.phase
      rw [tick_of_not_waits known going idle] at down
      -- a tick that parks or runs would make it known
      have stuck : ¬((s₁.romLoaded && !s₁.shared.paused) = false ∨ e.isReady s₁.engine = true) :=
        fun up => absurd (down.symm.trans (isUp_runOrPark up)) Bool.false_ne_true
      rw [not_or, Bool.not_eq_false, Bool.not_eq_true] at stuck
      rw [runOrPark_of_unready stuck.1 stuck.2] at down
      exact ⟨down, .inr ⟨idle, stuck⟩⟩
    · rintro ⟨down, stopping | ⟨idle, runs, unready⟩⟩
      · exact absurd stopping Bool.false_ne_true
      · rw [tick_of_not_waits known going idle, runOrPark_of_unready (s := s₁) runs unready]
        exact ⟨⟨[⟨.configure, s.view⟩, ⟨.tick, s.view⟩], rfl, nofun⟩, id, fun _ hk => hk, down⟩

end Alone

/-! ### The start -/

section Start

variable {s s' : Scheduler σ} {r : Except SchedulerError Unit × Scheduler σ}
  {next : Scheduler σ → Except SchedulerError Unit × Scheduler σ} {error : SchedulerError}

/-- From `s` to `s'` the phase is the same, and every mode change that waited still waits or was
displaced by a newer one. -/
structure Awaiting (s s' : Scheduler σ) : Prop where
  phase : s'.shared.phase = s.shared.phase
  waiting : ∀ k, s.shared.requests.waiting? k ≠ none → s'.shared.requests.waiting? k ≠ none

namespace Awaiting

variable {s₁ : Scheduler σ}

/-- An operation that touches nothing that is shared. -/
theorem of_shared (h : s'.shared = s.shared) : Awaiting s s' where
  phase := by rw [h]
  waiting k hk := by
    rw [h]
    exact hk

theorem trans (h : Awaiting s s₁) (h' : Awaiting s₁ s') : Awaiting s s' where
  phase := h'.phase.trans h.phase
  waiting k hk := h'.waiting k (h.waiting k hk)

/-- Controls take nothing from a mailbox, and make no phase known. -/
theorem controls (s : Scheduler σ) (cs : List Control) : Awaiting s (s.controls e cs) := by
  induction cs generalizing s with
  | nil => exact of_shared rfl
  | cons c cs ih =>
    have first : Awaiting s (s.control e c) := by
      refine ⟨?_, (Grown.control s e c).waiting⟩
      rw [control_shared, Shared.control_phase]
    exact first.trans (ih _)

theorem createTree (s : Scheduler σ) (w : WorkingTree) : Awaiting s (s.createTree w).2 :=
  of_shared rfl

theorem purgeImages (s : Scheduler σ) (w : WorkingTree) : Awaiting s (s.purgeImages e w).2 := by
  obtain ⟨files, heq | ⟨removed, heq⟩⟩ :=
    purgeImages_cases (e := e) (s := s) (w := w) (Prod.eta (s.purgeImages e w)).symm
  · rw [heq]
    exact of_shared rfl
  · rw [heq]
    exact of_shared rfl

theorem order (s : Scheduler σ) (o : Order) : Awaiting s (s.order e o) :=
  of_shared rfl

/-- While it is being set up the engine may have controls made. -/
theorem setUpEngine (s : Scheduler σ) : Awaiting s (s.setUpEngine e).2 := by
  unfold Scheduler.setUpEngine
  split
  · exact of_shared rfl
  · have called : Awaiting s
        { s.record (.call .setUp) with engine := (e.setUp s.engine).engine } := of_shared rfl
    exact called.trans (controls _ _)

/-- Two parts in a row of which one fails. -/
theorem followedBy (hr : Awaiting s r.2) (h : (Scheduler.followedBy r next).1 = .error error)
    (hnext : Awaiting s r.2 → (next r.2).1 = .error error → Awaiting s (next r.2).2) :
    Awaiting s (Scheduler.followedBy r next).2 := by
  obtain ⟨r, s₁⟩ := r
  cases r with
  | ok u => exact hnext hr h
  | error error => exact hr

end Awaiting

/-- **Preparations that fail** have made known that they began, and have taken nothing. -/
theorem awaiting_of_setUpAll (h : (s.setUpAll e).1 = .error error) :
    Awaiting (s.publish .initializing) (s.setUpAll e).2 := by
  refine Awaiting.followedBy (.createTree _ _) h fun created h => ?_
  refine Awaiting.followedBy (created.trans (.purgeImages _ _)) h fun purged h => ?_
  refine Awaiting.followedBy (purged.trans ((Awaiting.order _ _).trans (.setUpEngine _))) h
    fun setUp h => ?_
  refine Awaiting.followedBy setUp h fun _ h => ?_
  -- after the check nothing can fail any more
  exact absurd h nofun

end Start

/-- **A failed start is not final.** Who goes on ticking after preparations that have failed finds
every mode waiting and the phase that says that they go on, and no later tick prepares anything. Of
the ticks of whatever session follows, those leave the engine and all that waits alone that are said
here and no others: every tick that is not to end gives a load that waits to the engine, and the
first of them takes at least a mode. -/
theorem failed_start_not_final {engine : σ} {workingDirectory : Path} {modes : Modes}
    {sink : Sink} {files : FileTree} {now : Nat} {s : Scheduler σ} {error : SchedulerError}
    (hr : Run e (.start e engine workingDirectory modes sink files now) .between s)
    (going : s.shared.stopping = false)
    (fails : ((s.record .tick).prepare e).1 = .error error) :
    let s₁ := ((s.record .tick).prepare e).2
    (∀ times limit, s.tick e times limit = (.failed error, s₁)) ∧
      s₁.shared.phase = .initializing ∧ (∀ k, s₁.shared.requests.waiting? k ≠ none) ∧
      (∀ cs times limit, (s₁.controls e cs).shared.stopping = false →
        ¬LeavesAlone (s₁.controls e cs) ((s₁.controls e cs).tick e times limit).2) ∧
      ∀ s₂, Session e s₁ s₂ →
        (s₂.record .tick).prepare e = (.ok (), s₂.record .tick) ∧
          ∀ times limit,
            (LeavesAlone s₂ (s₂.tick e times limit).2 ↔
              s₂.shared.phase.isUp = false ∧
                (s₂.shared.stopping = true ∨
                  ¬s₂.shared.requests.Waits ∧ (s₂.romLoaded && !s₂.shared.paused) = true ∧
                    e.isReady s₂.engine = false)) ∧
              (s₂.shared.stopping = false → ∀ rom, s₂.shared.requests.rom.take.1 = some rom →
                ∃ mid, mid ++ s₂.history <:+ (s₂.tick e times limit).2.history ∧
                  .load rom ∈ calls mid) := by
  intro s₁
  have fresh : s.shared.phase = .uninitialized := by
    by_contra known
    rw [prepare_of_known (s := s.record .tick) known] at fails
    exact absurd fails nofun
  -- nothing was called before the first tick, so no mode was given to the engine
  have waiting (k : ModeKind) : s.shared.requests.waiting? k ≠ none := by
    obtain ⟨ho, hp⟩ := annotated_start e engine workingDirectory modes sink files now
    obtain ⟨-, begun, settable⟩ := annotated_reached ho hp hr.reached
    obtain ⟨-, silent⟩ := begun.resolve_right fun hb => hb.1 fresh
    refine (settable k).resolve_left ?_
    rintro ⟨mode, -, given⟩
    rw [silent] at given
    exact absurd given List.not_mem_nil
  have prepares : (s.record .tick).prepare e = (s.record .tick).setUpAll e := if_pos fresh
  -- the phase is past the beginning from the first thing that the preparations do
  have awaiting : Awaiting ((s.record .tick).publish .initializing) s₁ := by
    change Awaiting _ ((s.record .tick).prepare e).2
    rw [prepares] at fails ⊢
    exact awaiting_of_setUpAll fails
  have phase : s₁.shared.phase = .initializing := awaiting.phase
  have kept (k : ModeKind) : s₁.shared.requests.waiting? k ≠ none := awaiting.waiting k (waiting k)
  have known : s₁.shared.phase ≠ .uninitialized := by
    rw [phase]
    exact nofun
  refine ⟨fun times limit => ?_, phase, kept, fun cs times limit later alone => ?_,
    fun s₂ hs => ?_⟩
  · have failed : (s.record .tick).prepare e = (.error error, s₁) := Prod.ext fails rfl
    rw [tick_of_going going, failed]
  · have afterwards := Awaiting.controls (e := e) s₁ cs
    have known : (s₁.controls e cs).shared.phase ≠ .uninitialized := by
      rw [afterwards.phase]
      exact known
    have idle := not_waits_of_leavesAlone known later alone
    exact idle (.inr ⟨.renderer, afterwards.waiting _ (kept _)⟩)
  · have known := known_session hs known
    exact ⟨prepare_of_known (s := s₂.record .tick) known, fun times limit =>
      ⟨leavesAlone_tick_iff known, fun going rom hw => asked_of_tick known going hw⟩⟩

/-- An engine that refuses to be set up; a ROM waits, and the next tick gives it to the engine, also
if a controller was there in between. -/
theorem failed_start_not_final_refused :
    let e := ScriptedEngine.engine
    let s := (scripted { setUpError? := some "no firmware" }).control e (.load sampleRom)
    let s₁ := ((s.record .tick).prepare e).2
    let s₂ := s₁.controls e [.wake]
    s.tick e {} 1 = (.failed (.engine (.setupFailed "no firmware")), s₁) ∧
      ¬LeavesAlone s₂ (s₂.tick e {} 1).2 ∧
      ∃ mid, mid ++ s₁.history <:+ (s₁.tick e {} 1).2.history ∧ .load sampleRom ∈ calls mid := by
  intro e s s₁ s₂
  have asked : Run e _ .between s := Run.start.control _
  have fails : ((s.record .tick).prepare e).1 = .error (.engine (.setupFailed "no firmware")) := by
    decide +kernel
  -- the modes wait still, so the tick behind a wake-up has something to take
  obtain ⟨failed, -, -, next, later⟩ := failed_start_not_final asked rfl fails
  have going : s₁.shared.stopping = false := by decide +kernel
  have waits : s₁.shared.requests.rom.take.1 = some sampleRom := by decide +kernel
  obtain ⟨-, ticks⟩ := later s₁ .start
  exact ⟨failed {} 1, next [.wake] {} 1 (by decide +kernel), (ticks {} 1).2 going sampleRom waits⟩

/-- An engine that refuses to be set up is asked to load all the same, and the modes are lost one by
one, until the loop says that it idles. -/
theorem failed_start_idles :
    let e := ScriptedEngine.engine
    let s := (scripted { setUpError? := some "no firmware", accept := false }).control e
      (.load sampleRom)
    let w := WorkingTree.below s.workingDirectory
    let tick (s : Scheduler ScriptedEngine) := (s.tick e {} 1).2
    let s₁ := tick s
    (s.tick e {} 1).1 = .failed (.engine (.setupFailed "no firmware")) ∧
      calls s₁.history = [.setUp, .order (.setDirectories w.root w.temp)] ∧
      s₁.shared.requests.waiting? .renderer = some (.renderer .softRasterizer) ∧
      (s₁.tick e {} 1).1 = .failed (.notInitialized "set_renderer_3d") ∧
      (tick s₁).shared.requests.waiting? .renderer = none ∧
      (tick^[5] s₁).engine.ready = false ∧ (tick^[5] s₁).shared.phase = .idle ∧
      calls (tick^[5] s₁).history =
        [.load sampleRom, .setUp, .order (.setDirectories w.root w.temp)] := by
  intro e s w tick s₁
  -- four ticks after the start for the modes, of which the first has the load too, and one that
  -- parks
  refine ⟨?_, ?_, ?_, ?_, ?_, ?_, ?_, ?_⟩ <;> decide +kernel

end EmuScheduler
