import EmuScheduler.Proofs.Pausing

/-!
# The phases that are made known

The phases that the loop makes known are a path of a graph (`Phase.next`): from the beginning
through the preparations to the three phases of a loop at work, among which it goes back and forth,
and from all of these to the end. This file shows it of every order of the steps of the loop and of
any number of controllers.

The invariant is `Ordered`. It ties the phase to the point where the loop is (`Point.phases`),
because which phase the loop makes known next is a matter of the point. With it goes what is known
of the engine where the loop is about to say that it runs (`Fit`): a ROM is open, and the engine has
answered that it is set up. A controller that pauses may tell the engine to be quiet in between, so
what is known is that the engine was told nothing else since its answer (`Answered`).
-/

namespace EmuScheduler

open Scheduler World

variable {ι σ : Type} {e : Engine σ} {s s' : Scheduler σ} {p p' : Point} {h : List Entry}

/-- The phases that may follow. A loop at work makes its phase known with every round, changed or
not. -/
def Phase.next : Phase → List Phase
  | .uninitialized => [.initializing, .stopping]
  | .initializing => [.idle, .stopping]
  | .idle | .running | .paused => [.idle, .running, .paused, .stopping]
  | .stopping => [.stopped]
  | .stopped => []

/-- The phases that were made known, newest first, and that of the beginning. -/
def phases : List Entry → List Phase
  | [] => [.uninitialized]
  | x :: older =>
    match x.action with
    | .publish _ after => after :: phases older
    | _ => phases older

/-- What the engine is told of its sound makes no phase known. -/
@[simp] theorem phases_told {v : View} {t : Option Bool} :
    phases (toldEntries v t ++ h) = phases h := by
  cases t <;> rfl

/-- The phases that the loop can be in at a point. -/
def Point.phases : Point → List Phase
  | .between => [.uninitialized, .idle, .running, .paused]
  | .preparing => [.uninitialized]
  | .purging | .directing | .settingUp | .inSetUp _ | .checking | .engaging => [.initializing]
  | .failed _ => [.initializing, .idle, .running, .paused]
  | .stopping _ | .emptying _ | .vanishing _ => [.stopping]
  | .released _ => [.stopped]
  | _ => [.idle, .running, .paused]

/-- What holds of the phase with the loop at a point. -/
structure Ordered (s : Scheduler σ) (p : Point) : Prop where
  path : (EmuScheduler.phases s.history).IsChain fun later earlier => later ∈ earlier.next
  current : (EmuScheduler.phases s.history).head? = some s.shared.phase
  place : s.shared.phase ∈ p.phases
  /-- A loop that parks says whether it idles or pauses. -/
  chosen : ∀ phase, p = .publishing phase → phase = .idle ∨ phase = .paused

namespace Ordered

/-- What makes no phase known. -/
theorem keep (ho : Ordered s p)
    (hh : EmuScheduler.phases s'.history = EmuScheduler.phases s.history)
    (hp : s'.shared.phase = s.shared.phase) (place : s.shared.phase ∈ p'.phases)
    (chosen : ∀ phase, p' = .publishing phase → phase = .idle ∨ phase = .paused) :
    Ordered s' p' where
  path := hh ▸ ho.path
  current := by rw [hh, hp, ho.current]
  place := hp ▸ place
  chosen := chosen

/-- A phase is made known that may follow. -/
theorem publish (ho : Ordered s p) {phase : Phase} (hn : phase ∈ s.shared.phase.next)
    (place : phase ∈ p'.phases) (chosen : ∀ phase, p' ≠ .publishing phase) :
    Ordered (s.publish phase) p' where
  path := by
    change (phase :: EmuScheduler.phases s.history).IsChain _
    refine List.isChain_cons.mpr ⟨fun earlier he => ?_, ho.path⟩
    rw [ho.current] at he
    exact Option.some.inj he ▸ hn
  current := rfl
  place := place
  chosen phase hp := absurd hp (chosen phase)

/-- A part of a tick that may fail. -/
theorem after (ho : Ordered s p) (r : Except SchedulerError Unit)
    (hp : p.phases ⊆ [.initializing, .idle, .running, .paused]) : Ordered s (.after r p) := by
  cases r with
  | ok u => exact ho
  | error error => exact ⟨ho.path, ho.current, hp ho.place, nofun⟩

/-- A section of the audio lock leaves the phases alone. -/
theorem withAudio (ho : Ordered s p) (change : Audio → Audio × Option Bool) :
    Ordered (s.withAudio e change) p :=
  ho.keep (by rw [withAudio_history, phases_told]) (by rw [withAudio_shared]) ho.place ho.chosen

/-- So does closing the ROM. -/
theorem closeRom (ho : Ordered s p) (place : s.shared.phase ∈ p'.phases)
    (chosen : ∀ phase, p' ≠ .publishing phase) : Ordered (s.closeRom e) p' := by
  obtain ⟨-, heq⟩ | ⟨-, heq⟩ := closeRom_cases e s
  all_goals
    rw [heq]
    exact ho.keep rfl rfl place fun phase hp => absurd hp (chosen phase)

end Ordered

/-- From a loop at work all its phases may follow, and the end. -/
theorem next_of_up {phase : Phase} (h : phase ∈ [Phase.idle, .running, .paused]) :
    phase.next = [.idle, .running, .paused, .stopping] := by
  cases phase <;> first | rfl | exact absurd h (by decide)

/-- **The loop makes known only phases that may follow.** -/
theorem ordered_loop (ho : Ordered s p) (hl : Loop e p s p' s') : Ordered s' p' := by
  cases hl with
  | first _ fresh => exact ho.keep rfl rfl (fresh ▸ List.mem_cons_self) nofun
  | begin _ prepared =>
    exact ho.keep rfl rfl ((List.mem_cons.mp ho.place).resolve_left prepared) nofun
  | create hc =>
    -- the phase is known before the directories are made, so also where making them fails
    obtain ⟨files, rfl⟩ := createTree_cases hc
    have fresh : s.shared.phase = .uninitialized := List.mem_singleton.mp ho.place
    have known : Ordered (s.publish .initializing) .purging :=
      ho.publish (by rw [fresh]; decide) List.mem_cons_self nofun
    have created : Ordered { s.publish .initializing with files } .purging :=
      known.keep rfl rfl known.place nofun
    exact created.after _ (by decide)
  | purge hc =>
    have purged : Ordered s' .directing := by
      obtain ⟨files, rfl | ⟨removed, rfl⟩⟩ := purgeImages_cases hc
      all_goals exact ho.keep rfl rfl ho.place nofun
    exact purged.after _ (by decide)
  | setUpEnds =>
    have same : Ordered s .checking := ho.keep rfl rfl ho.place nofun
    exact same.after _ (by decide)
  | check =>
    have same : Ordered s .engaging := ho.keep rfl rfl ho.place nofun
    exact same.after _ (by decide)
  | engage =>
    -- the engine is told its mute state first, and the preparations are over after that
    have told : Ordered (s.withAudio e Audio.engage) .engaging := ho.withAudio _
    let root := (WorkingTree.below s.workingDirectory).root
    have prepared : Ordered ((s.withAudio e Audio.engage).record (.prepared root)) .engaging :=
      told.keep rfl rfl told.place told.chosen
    refine prepared.publish ?_ List.mem_cons_self nofun
    rw [List.mem_singleton.mp prepared.place]
    decide
  | close => exact ho.closeRom ho.place nofun
  | empty => exact ho.closeRom ho.place nofun
  | @apply _ _ k ks r ha =>
    have applied : Ordered s' (.applying ks) := by
      obtain ⟨-, rfl, rfl⟩ | ⟨mode, -, ⟨rfl, rfl⟩ | ⟨rfl, rfl⟩⟩ := applyMode_cases ha
      all_goals exact ho.keep rfl rfl ho.place nofun
    exact applied.after _ (List.subset_cons_self ..)
  | choose =>
    have same : Ordered s .running := ho.keep rfl rfl ho.place nofun
    exact same.after _ (List.subset_cons_self ..)
  | run =>
    refine ho.publish ?_ (by decide) nofun
    rw [next_of_up ho.place]
    decide
  | unmute =>
    have told : Ordered (s.withAudio e (Audio.unmute · s.shared.paused)) .unmuting := ho.withAudio _
    exact told.keep rfl rfl told.place nofun
  | @present _ n now =>
    obtain ⟨rate, window, heq⟩ := present_cases (s := s) n now
    rw [heq]
    exact ho.keep rfl rfl (List.mem_cons_of_mem _ ho.place) nofun
  | park =>
    -- which of the two phases it is was decided here, before controllers can pause again
    refine ho.keep rfl rfl ho.place fun phase hp => ?_
    obtain rfl := Point.publishing.inj hp
    unfold parkedPhase
    split
    · exact .inr rfl
    · exact .inl rfl
  | @publish _ phase =>
    have parked := ho.chosen phase rfl
    refine ho.publish ?_ ?_ nofun
    · rw [next_of_up ho.place]
      obtain rfl | rfl := parked <;> decide
    · obtain rfl | rfl := parked <;> decide
  | sleep => exact ho.keep rfl rfl (List.mem_cons_of_mem _ ho.place) nofun
  | stop =>
    -- a scheduler may be told to stop before its first tick
    refine ho.publish ?_ List.mem_cons_self nofun
    obtain fresh | up := List.mem_cons.mp ho.place
    · rw [fresh]
      decide
    · rw [next_of_up up]
      decide
  | abort =>
    -- a tick fails in the preparations or after them
    refine ho.publish ?_ List.mem_cons_self nofun
    obtain preparing | up := List.mem_cons.mp ho.place
    · rw [preparing]
      decide
    · rw [next_of_up up]
      decide
  | vanish =>
    refine ho.publish ?_ List.mem_cons_self nofun
    rw [List.mem_singleton.mp ho.place]
    decide
  | _ => exact ho.keep rfl rfl ho.place nofun

/-! ### Where the loop is about to say that it runs -/

/-- The loop says nowhere else that it runs. -/
theorem phases_of_loop (ho : Ordered s p) (hl : Loop e p s p' s') (hp : p ≠ .running) :
    phases s'.history = phases s.history ∨
      ∃ phase, phase ≠ .running ∧ phases s'.history = phase :: phases s.history := by
  -- the steps that make a phase known come with the phase; the others leave the list as it is
  cases hl with
  | create hc =>
    obtain ⟨files, rfl⟩ := createTree_cases hc
    exact .inr ⟨.initializing, nofun, rfl⟩
  | purge hc => obtain ⟨files, rfl | ⟨removed, rfl⟩⟩ := purgeImages_cases hc <;> exact .inl rfl
  | engage =>
    refine .inr ⟨.idle, nofun, ?_⟩
    change .idle :: phases (s.withAudio e Audio.engage).history = _
    rw [withAudio_history, phases_told]
  | close | empty =>
    left
    obtain ⟨-, heq⟩ | ⟨-, heq⟩ := closeRom_cases e s
    · rw [heq]
    · rw [heq]
      rfl
  | apply ha =>
    obtain ⟨-, rfl, rfl⟩ | ⟨mode, -, ⟨rfl, rfl⟩ | ⟨rfl, rfl⟩⟩ := applyMode_cases ha
    all_goals exact .inl rfl
  | run => exact absurd rfl hp
  | unmute =>
    rw [withAudio_history, phases_told]
    exact .inl rfl
  | @present _ n now =>
    obtain ⟨rate, window, heq⟩ := present_cases (s := s) n now
    rw [heq]
    exact .inl rfl
  | @publish _ phase =>
    refine .inr ⟨phase, ?_, rfl⟩
    obtain rfl | rfl := ho.chosen phase rfl <;> exact nofun
  | stop | abort => exact .inr ⟨.stopping, nofun, rfl⟩
  | vanish => exact .inr ⟨.stopped, nofun, rfl⟩
  | _ => exact .inl rfl

/-- Whether an order is one to be quiet or to sound. -/
def Order.isSound : Order → Bool
  | .muteAudio _ | .muteMic _ => true
  | _ => false

/-- An engine has answered that it is set up, and was told nothing since but of sound. -/
def Answered (e : Engine σ) (engine : σ) : Prop :=
  ∃ (g : σ) (os : List Order), e.isReady g = true ∧ (∀ o ∈ os, o.isSound = true) ∧
    os.foldl e.obey g = engine

/-- An order about sound does not make the engine unready. -/
theorem Answered.obey {engine : σ} (ha : Answered e engine) {o : Order} (ho : o.isSound = true) :
    Answered e (e.obey engine o) := by
  obtain ⟨g, os, ready, sound, rfl⟩ := ha
  refine ⟨g, os ++ [o], ready, fun x hx => ?_, List.foldl_concat ..⟩
  obtain hx | hx := List.mem_append.mp hx
  · exact sound x hx
  · rw [List.mem_singleton.mp hx]
    exact ho

/-- So a section of the audio lock leaves it ready. -/
theorem Answered.withAudio (ha : Answered e s.engine) (change : Audio → Audio × Option Bool) :
    Answered e (s.withAudio e change).engine := by
  have told (s : Scheduler σ) (ha : Answered e s.engine) (t : Option Bool) :
      Answered e (s.tellMuted e t).engine := by
    cases t with
    | none => exact ha
    | some muted => exact (ha.obey (o := .muteAudio muted) rfl).obey (o := .muteMic muted) rfl
  exact told (s.modify fun h => { h with audio := (change s.shared.audio).1 }) ha _

/-- Whether the loop has closed the ROM for good. -/
def Point.isClosed : Point → Bool
  | .vanishing _ | .released _ => true
  | _ => false

/-- What holds of the ROM and the engine with the loop at a point. -/
structure Fit (e : Engine σ) (s : Scheduler σ) (p : Point) : Prop where
  /-- The loop and the controllers agree on whether a ROM is open. -/
  agreed : s.romLoaded = s.shared.rom?.isSome
  ready : p = .running → s.romLoaded = true ∧ Answered e s.engine
  closed : p.isClosed = true → s.romLoaded = false

section Fit

/-- The loop changes in one step whether a ROM is open and whether controllers see it. -/
theorem agreed_loop (ha : s.romLoaded = s.shared.rom?.isSome) (hl : Loop e p s p' s') :
    s'.romLoaded = s'.shared.rom?.isSome := by
  cases hl with
  | create hc =>
    obtain ⟨files, rfl⟩ := createTree_cases hc
    exact ha
  | purge hc => obtain ⟨files, rfl | ⟨removed, rfl⟩⟩ := purgeImages_cases hc <;> exact ha
  | engage =>
    change (s.withAudio e Audio.engage).romLoaded = (s.withAudio e Audio.engage).shared.rom?.isSome
    rw [withAudio_shared, withAudio_romLoaded]
    exact ha
  | close | empty =>
    obtain ⟨-, heq⟩ | ⟨-, heq⟩ := closeRom_cases e s <;> rw [heq]
    · exact ha
    · rfl
  -- the loop sets its own flag and the one that shows together
  | accept => rfl
  | apply hm =>
    obtain ⟨-, rfl, rfl⟩ | ⟨mode, -, ⟨rfl, rfl⟩ | ⟨rfl, rfl⟩⟩ := applyMode_cases hm <;> exact ha
  | unmute =>
    rw [withAudio_shared, withAudio_romLoaded]
    exact ha
  | @present _ n now =>
    obtain ⟨rate, window, heq⟩ := present_cases (s := s) n now
    rw [heq]
    exact ha
  | _ => exact ha

/-- The loop is about to say that it runs only after the engine has answered that it is set up. -/
theorem ready_loop (hl : Loop e p s p' s') (hp : p' = .running) :
    s'.romLoaded = true ∧ Answered e s'.engine := by
  cases hl with
  | create | purge | setUpEnds | check | apply => exact absurd hp (Point.after_ne nofun nofun)
  | choose runs =>
    -- the answer was asked for just now, and nothing was told since
    refine ⟨(Bool.and_eq_true_iff.mp runs).1, s.engine, [], ?_, nofun, rfl⟩
    unfold requireReady at hp
    split at hp
    · assumption
    · exact absurd hp nofun
  | _ => exact absurd hp nofun

/-- Where the ROM is closed for good none is opened any more. -/
theorem closed_loop (hc : p.isClosed = true → s.romLoaded = false) (hl : Loop e p s p' s')
    (hp : p'.isClosed = true) : s'.romLoaded = false := by
  cases hl with
  | create | purge | setUpEnds | check | apply | choose =>
    refine absurd hp (ne_true_of_eq_false ?_)
    exact Point.after_elim (motive := (·.isClosed = false)) rfl fun _ => rfl
  | empty =>
    -- only this step leads to where the ROM is closed for good
    obtain ⟨empty, heq⟩ | ⟨-, heq⟩ := closeRom_cases e s <;> rw [heq]
    · exact empty
    · rfl
  | vanish => exact hc rfl
  | _ => exact absurd hp Bool.false_ne_true

/-- A step of the loop keeps what holds of the ROM and the engine, from point to point. -/
theorem fit_loop (hf : Fit e s p) (hl : Loop e p s p' s') : Fit e s' p' where
  agreed := agreed_loop hf.agreed hl
  ready := ready_loop hl
  closed := closed_loop hf.closed hl

end Fit

/-! ### What controllers do beside the loop -/

/-- Whether an action is one of a controller: a control, or the engine told to be quiet. -/
def Action.isBeside : Action → Bool
  | .control _ => true
  | .call (.order o) => o.isSound
  | _ => false

/-- What a controller makes of a scheduler, adding `new` to the history. -/
structure Beside (e : Engine σ) (s s' : Scheduler σ) (new : List Entry) : Prop where
  history : s'.history = new ++ s.history
  entries : ∀ x ∈ new, x.action.isBeside = true
  phase : s'.shared.phase = s.shared.phase
  rom : s'.shared.rom? = s.shared.rom?
  loaded : s'.romLoaded = s.romLoaded
  stopping : s.shared.stopping = true → s'.shared.stopping = true
  answered : Answered e s.engine → Answered e s'.engine

namespace Beside

variable {s₁ : Scheduler σ} {new newer : List Entry} {x : ControlPart}

/-- One control after another, while the loop rests. -/
theorem trans (h : Beside e s s₁ new) (h' : Beside e s₁ s' newer) :
    Beside e s s' (newer ++ new) where
  history := by rw [h'.history, h.history, List.append_assoc]
  entries x hx := (List.mem_append.mp hx).elim (h'.entries x) (h.entries x)
  phase := h'.phase.trans h.phase
  rom := h'.rom.trans h.rom
  loaded := h'.loaded.trans h.loaded
  stopping stops := h'.stopping (h.stopping stops)
  answered ha := h'.answered (h.answered ha)

/-- That a control was begun is recorded. -/
theorem record (s : Scheduler σ) (c : Control) :
    Beside e s (s.record (.control c)) [⟨.control c, s.view⟩] where
  history := rfl
  entries _ hx := List.mem_singleton.mp hx ▸ rfl
  phase := rfl
  rom := rfl
  loaded := rfl
  stopping := id
  answered := id

/-- What changes neither the history nor the engine. -/
theorem plain (history : s'.history = s.history) (engine : s'.engine = s.engine)
    (phase : s'.shared.phase = s.shared.phase) (rom : s'.shared.rom? = s.shared.rom?)
    (loaded : s'.romLoaded = s.romLoaded)
    (stopping : s.shared.stopping = true → s'.shared.stopping = true) : Beside e s s' [] where
  history := history
  entries _ hx := absurd hx List.not_mem_nil
  phase := phase
  rom := rom
  loaded := loaded
  stopping := stopping
  answered ha := engine ▸ ha

/-- A pause mutes. -/
theorem mute (s : Scheduler σ) :
    Beside e s (s.withAudio e Audio.mute)
      (toldEntries { s.view with muted := s.shared.audio.mute.1.muted } s.shared.audio.mute.2) where
  history := withAudio_history ..
  entries x hx := by
    -- if there was sound, the engine is told twice, and otherwise not at all
    cases ht : s.shared.audio.mute.2 with
    | none =>
      rw [ht] at hx
      exact absurd hx List.not_mem_nil
    | some muted =>
      rw [ht] at hx
      unfold toldEntries at hx
      obtain rfl | hx := List.mem_cons.mp hx
      · rfl
      · exact List.mem_singleton.mp hx ▸ rfl
  phase := by rw [withAudio_shared]
  rom := by rw [withAudio_shared]
  loaded := withAudio_romLoaded ..
  stopping h := by rw [withAudio_shared]; exact h
  answered ha := ha.withAudio _

theorem part (s : Scheduler σ) (x : ControlPart) : ∃ new, Beside e s (s.runPart e x) new := by
  cases x with
  | mute => exact ⟨_, mute s⟩
  | storeStop => exact ⟨[], plain rfl rfl rfl rfl rfl fun _ => rfl⟩
  | _ => exact ⟨[], plain rfl rfl rfl rfl rfl id⟩

/-- Several parts of controls, one after the other. -/
theorem parts (s : Scheduler σ) (xs : List ControlPart) :
    ∃ new, Beside e s (s.runParts e xs) new := by
  induction xs generalizing s with
  | nil => exact ⟨[], plain rfl rfl rfl rfl rfl id⟩
  | cons x xs ih =>
    obtain ⟨new, first⟩ := part (e := e) s x
    obtain ⟨newer, rest⟩ := ih (s.runPart e x)
    exact ⟨_, first.trans rest⟩

/-- Controllers make no phase known. -/
theorem phases_eq (h : Beside e s s' new) : phases s'.history = phases s.history := by
  rw [h.history]
  -- the induction is on the entries alone; the two schedulers stay as they are
  have unpublished := h.entries
  clear h
  induction new with
  | nil => rfl
  | cons x new ih =>
    have rest := ih fun y hy => unpublished y (List.mem_cons_of_mem x hy)
    have own := unpublished x List.mem_cons_self
    obtain ⟨action, v⟩ := x
    cases action with
    | publish => exact absurd own Bool.false_ne_true
    | _ => exact rest

/-- What is beside the loop leaves the phases as they are. -/
theorem ordered (h : Beside e s s' new) (ho : Ordered s p) : Ordered s' p :=
  ho.keep h.phases_eq h.phase ho.place ho.chosen

/-- So does it keep what holds of the ROM and the engine. -/
theorem fit (h : Beside e s s' new) (hf : Fit e s p) : Fit e s' p where
  agreed := by rw [h.loaded, h.rom, hf.agreed]
  ready hp := by
    obtain ⟨loaded, answered⟩ := hf.ready hp
    exact ⟨h.loaded.trans loaded, h.answered answered⟩
  closed hp := h.loaded.trans (hf.closed hp)

end Beside

variable [DecidableEq ι] {w w' w₀ : World ι σ}

/-- **A step of a world is one of its loop, or one beside it.** -/
theorem step_cases (hs : World.Step e w w') :
    Loop e w.point w.scheduler w'.point w'.scheduler ∨
      w'.point = w.point ∧ ∃ new, Beside e w.scheduler w'.scheduler new := by
  cases hs with
  | loop _ hl => exact .inl hl
  | call i c idle =>
    obtain ⟨new, begun⟩ := Beside.parts (e := e) (w.scheduler.record (.control c)) (c.parts.take 1)
    exact .inr ⟨rfl, _, (Beside.record w.scheduler c).trans begun⟩
  | act => exact .inr ⟨rfl, Beside.part ..⟩
  | outside files cheats =>
    exact .inr ⟨rfl, [], .plain rfl rfl rfl rfl rfl id⟩

/-- The phases are in order in every world that is reached. -/
theorem ordered_reachable (ho : Ordered w₀.scheduler w₀.point) (hr : Reachable e w₀ w) :
    Ordered w.scheduler w.point := by
  induction hr with
  | start => exact ho
  | step _ hs ih =>
    obtain hl | ⟨here, new, beside⟩ := step_cases hs
    · exact ordered_loop ih hl
    · rw [here]
      exact beside.ordered ih

/-- What holds of the ROM and the engine holds in every world that is reached. -/
theorem fit_reachable (hf : Fit e w₀.scheduler w₀.point) (hr : Reachable e w₀ w) :
    Fit e w.scheduler w.point := by
  induction hr with
  | start => exact hf
  | step _ hs ih =>
    obtain hl | ⟨here, new, beside⟩ := step_cases hs
    · exact fit_loop ih hl
    · rw [here]
      exact beside.fit ih

end EmuScheduler
