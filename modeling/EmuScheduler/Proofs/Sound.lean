import EmuScheduler.Proofs.History
import EmuScheduler.Proofs.Interleaving
import Mathlib.Data.List.Chain

/-!
# Sound

Whether sound is muted is said twice, by the flag that controllers see and by the orders that the
engine was given, and it changes in three places: a pause mutes, the preparations tell the engine
the state that the flag has then, and a frame begins with an unmuting. `sound_mirror` says that the
two agree in every run, and that no order comes without need: the engine is never told what it was
told last.

`Mirrored` states this of one entry of a history. It speaks of every moment at which something
happens, the orders themselves apart: the flag has changed when the engine is told so, and nobody
looks in between.

The proof has two annotations. `SoundAt p` holds in every interleaving, so also for controllers that
were interrupted in the middle of a pause: until the preparations are over the engine was told
nothing and the flag is set (`Untold`), and from then on it was told what the flag says (`Told`).
`CalmAt p` is about controllers that nobody interrupts; with them a pause flag that is set always
comes with silence, so what the loop has read of the flag is still true at its next step.
-/

namespace EmuScheduler

open Scheduler

variable {σ : Type}

/-! ### Reading orders about the sound -/

/-- The mute state that the engine is told, if an action tells it one. -/
def Action.muting? : Action → Option Bool
  | .call (.order (.muteAudio muted)) => some muted
  | _ => none

/-- The same for the microphone. -/
def Action.micMuting? : Action → Option Bool
  | .call (.order (.muteMic muted)) => some muted
  | _ => none

/-- Whether an action says that the preparations are over. -/
def Action.isPrepared : Action → Bool
  | .prepared _ => true
  | _ => false

/-- The mute states that the engine was told, newest first. -/
def mutings (h : List Entry) : List Bool :=
  h.filterMap (·.action.muting?)

/-- The mute states of the microphone, newest first. -/
def micMutings (h : List Entry) : List Bool :=
  h.filterMap (·.action.micMuting?)

/-- Whether the preparations are over. -/
def wasPrepared (h : List Entry) : Bool :=
  h.any (·.action.isPrepared)

/-- Whether a controller has paused since the loop last turned to the modes. -/
def pausedSince : List Entry → Bool
  | [] => false
  | x :: older =>
    match x.action with
    | .configure => false
    | .control (.pause true) => true
    | _ => pausedSince older

/-- Each order about the sound is followed at once by the same one about the microphone, and this
one comes at no other time; the newest call is first. -/
structure Paired (cs : List EngineCall) : Prop where
  followed : ∀ muted older, .order (.muteAudio muted) :: older <:+ cs →
    .order (.muteMic muted) :: .order (.muteAudio muted) :: older <:+ cs
  preceded : ∀ muted older, .order (.muteMic muted) :: older <:+ cs →
    older.head? = some (.order (.muteAudio muted))

/-- **What an entry shows of the sound**, given those older than it, in a run that began in `s₀`. -/
structure Mirrored (e : Engine σ) (s₀ : Scheduler σ) (x : Entry) (older : List Entry) : Prop where
  /-- The engine is told the opposite of what it was told last, and first of all to be quiet. -/
  toggles : ∀ muted, x.action = .call (.order (.muteAudio muted)) →
    x.view.muted = muted ∧ (mutings older).headD false = !muted
  /-- Before the first order the engine has become ready. -/
  ready : ∀ muted, x.action = .call (.order (.muteAudio muted)) → mutings older = [] →
    ∃ s, Reached e s₀ .engaging s ∧ s.history = older ∧ e.isReady s.engine = true
  /-- Once the preparations are over, controllers see what the engine was told last. -/
  shown : wasPrepared older = true → (∀ muted, x.action ≠ .call (.order (.muteAudio muted))) →
    (mutings older).head? = some x.view.muted
  paused : x.view.paused = true → x.view.muted = true
  phase : x.view.phase = .paused → x.view.muted = true
  /-- A step that no pause has come before in its tick is made with sound. -/
  step : x.action = .call .step → pausedSince older = false →
    x.view.muted = false ∧ (mutings older).head? = some false

/-! ### Actions that leave the sound alone -/

/-- Whether an action has nothing to do with sound. -/
def Action.isSoundless : Action → Bool
  | .call (.order (.muteAudio _)) | .call (.order (.muteMic _)) | .call .step | .prepared _ => false
  | _ => true

section Soundless

variable {x : Entry} {h new : List Entry}

/-- One entry that is not about sound. -/
theorem soundless_cons (hx : x.action.isSoundless = true) :
    mutings (x :: h) = mutings h ∧ micMutings (x :: h) = micMutings h ∧
      wasPrepared (x :: h) = wasPrepared h := by
  obtain ⟨action, v⟩ := x
  -- the readings look at mutings, steps and the end of the preparations only
  cases action with
  | prepared => exact absurd hx Bool.false_ne_true
  | call c =>
    cases c with
    | step => exact absurd hx Bool.false_ne_true
    | order o =>
      cases o with
      | muteAudio | muteMic => exact absurd hx Bool.false_ne_true
      | _ => exact ⟨rfl, rfl, rfl⟩
    | _ => exact ⟨rfl, rfl, rfl⟩
  | _ => exact ⟨rfl, rfl, rfl⟩

/-- Entries that are not about sound change none of the readings. -/
theorem soundless_append (hn : ∀ x ∈ new, x.action.isSoundless = true) :
    mutings (new ++ h) = mutings h ∧ micMutings (new ++ h) = micMutings h ∧
      wasPrepared (new ++ h) = wasPrepared h := by
  induction new with
  | nil => exact ⟨rfl, rfl, rfl⟩
  | cons x new ih =>
    obtain ⟨hm, hc, hp⟩ := ih fun y hy => hn y (List.mem_cons_of_mem x hy)
    obtain ⟨hm', hc', hp'⟩ := soundless_cons (h := new ++ h) (hn x List.mem_cons_self)
    exact ⟨hm'.trans hm, hc'.trans hc, hp'.trans hp⟩

end Soundless

section Told

variable (v : View) (t : Option Bool) (h : List Entry)

/-- What the engine is told is a muting of the sound. -/
@[simp] theorem mutings_told : mutings (toldEntries v t ++ h) = t.toList ++ mutings h := by
  cases t <;> rfl

/-- The microphone is muted with the sound. -/
@[simp] theorem micMutings_told : micMutings (toldEntries v t ++ h) = t.toList ++ micMutings h := by
  cases t <;> rfl

@[simp] theorem wasPrepared_told : wasPrepared (toldEntries v t ++ h) = wasPrepared h := by
  cases t <;> rfl

@[simp] theorem pausedSince_told : pausedSince (toldEntries v t ++ h) = pausedSince h := by
  cases t <;> rfl

end Told

/-! ### In every interleaving -/

/-- The engine was told nothing yet, and sound is off. -/
structure Untold (s : Scheduler σ) : Prop where
  silent : mutings s.history = []
  mics : micMutings s.history = []
  unprepared : wasPrepared s.history = false
  muted : s.shared.audio.muted = true

/-- The preparations are over, and the engine was told last what controllers see. -/
structure Told (s : Scheduler σ) : Prop where
  head : (mutings s.history).head? = some s.shared.audio.muted
  mics : micMutings s.history = mutings s.history
  prepared : wasPrepared s.history = true
  /-- It will also be told what comes. -/
  engaged : s.shared.audio.engaged = true
  known : s.shared.phase ≠ .uninitialized

/-- What holds with the loop at a point. -/
def SoundAt (s : Scheduler σ) : Point → Prop
  | .between => s.shared.phase = .uninitialized ∧ Untold s ∨ Told s
  | .preparing | .purging | .directing | .settingUp | .inSetUp _ | .checking | .engaging => Untold s
  | .loading | .starting _ | .closing _ | .asking _ | .inLoad _ _ | .configuring | .applying _
  | .choosing | .running | .unmuting | .locking | .stepping _ | .inStep _ _ | .presenting _
  | .parking | .sleeping => Told s
  | .publishing phase => Told s ∧ phase ≠ .uninitialized
  | .failed _ | .broken | .stopping _ | .emptying _ | .vanishing _ | .released _ =>
    Untold s ∨ Told s

/-- From `s` to `s'` the sound was left alone; `new` is what happened. -/
structure Aside (s s' : Scheduler σ) (new : List Entry) : Prop where
  history : s'.history = new ++ s.history
  soundless : ∀ x ∈ new, x.action.isSoundless = true
  audio : s'.shared.audio = s.shared.audio
  /-- Whoever looks on the way sees the phase and the mute state of before, and a pause only if
  there was one. -/
  seen : ∀ x ∈ new, x.view.phase = s.shared.phase ∧ x.view.muted = s.shared.audio.muted ∧
    (x.view.paused = true → s.shared.paused = true)

section Aside

variable {e : Engine σ} {s s₁ s' : Scheduler σ} {p p' : Point} {new : List Entry} {x : Entry}

theorem Aside.same (hh : s'.history = s.history) (ha : s'.shared.audio = s.shared.audio) :
    Aside s s' [] :=
  ⟨hh, fun _ hx => absurd hx List.not_mem_nil, ha, fun _ hx => absurd hx List.not_mem_nil⟩

theorem Aside.one {a : Action} (hh : s'.history = ⟨a, s.view⟩ :: s.history)
    (hx : a.isSoundless = true) (ha : s'.shared.audio = s.shared.audio) :
    Aside s s' [⟨a, s.view⟩] where
  history := hh
  soundless _ hy := List.mem_singleton.mp hy ▸ hx
  audio := ha
  seen _ hy := List.mem_singleton.mp hy ▸ ⟨rfl, rfl, id⟩

/-- To close the ROM is not about sound. -/
theorem aside_closeRom (s : Scheduler σ) : ∃ new, Aside s (s.closeRom e) new := by
  obtain ⟨-, heq⟩ | ⟨-, heq⟩ := closeRom_cases e s
  · rw [heq]
    exact ⟨_, .same rfl rfl⟩
  · rw [heq]
    exact ⟨_, .one rfl rfl rfl⟩

/-- The places of the loop where it makes sound, or may make some. -/
def Point.Sounding : Point → Prop
  | .engaging | .unmuting | .stepping _ => True
  | _ => False

/-- **Everywhere else a step of the loop leaves the sound alone.** -/
theorem aside_of_loop (hl : Loop e p s p' s') (hp : ¬p.Sounding) : ∃ new, Aside s s' new := by
  -- the steps with a choice of their own, those that are excluded, and then those that add one
  -- entry or none
  cases hl with
  | create hc =>
    obtain ⟨files, rfl⟩ := createTree_cases hc
    exact ⟨_, .one rfl rfl rfl⟩
  | purge hc =>
    obtain ⟨files, rfl | ⟨removed, rfl⟩⟩ := purgeImages_cases hc
    · exact ⟨_, .same rfl rfl⟩
    · exact ⟨_, .one rfl rfl rfl⟩
  | @accept rom now =>
    refine ⟨[_, _], acceptRom_history .., by simp [Action.isSoundless], rfl, ?_⟩
    simp [view, Shared.view]
  | @reject rom =>
    refine ⟨[_, _, _], rejectRom_history .., by simp [Action.isSoundless], rfl, ?_⟩
    simp [view, Shared.view]
  | close | empty => exact aside_closeRom s
  | apply ha =>
    obtain ⟨-, rfl, rfl⟩ | ⟨mode, -, ⟨rfl, rfl⟩ | ⟨rfl, rfl⟩⟩ := applyMode_cases ha
    · exact ⟨_, .same rfl rfl⟩
    · exact ⟨_, .one rfl rfl rfl⟩
    · exact ⟨_, .same rfl rfl⟩
  | @present _ n now =>
    obtain ⟨rate, window, heq⟩ := present_cases (s := s) n now
    rw [heq]
    exact ⟨_, .one rfl rfl rfl⟩
  | engage | unmute | step | abandon => exact absurd trivial hp
  | halt | first | begin | direct | setUp | announce | load | configure | run | publish | stop
  | abort | vanish => exact ⟨_, .one rfl rfl rfl⟩
  | skip | setUpEnds | check | noLoad | takeLoad | configured | choose | rest | lock | again
  | finish | giveUp | park | sleep | requestStop => exact ⟨_, .same rfl rfl⟩

/-- The loop pauses nothing by itself. -/
theorem paused_of_loop (hl : Loop e p s p' s') (hp : s'.shared.paused = true) :
    s.shared.paused = true := by
  cases hl with
  | create hc =>
    obtain ⟨files, rfl⟩ := createTree_cases hc
    exact hp
  | purge hc => obtain ⟨files, rfl | ⟨removed, rfl⟩⟩ := purgeImages_cases hc <;> exact hp
  | engage =>
    change (s.withAudio e Audio.engage).shared.paused = true at hp
    rw [withAudio_shared] at hp
    exact hp
  -- an accepted load ends the pause, and nothing else in the loop touches it
  | accept => exact absurd hp Bool.false_ne_true
  | close | empty =>
    obtain ⟨rom?, same⟩ := closeRom_shared e s
    rw [same] at hp
    exact hp
  | apply ha =>
    obtain ⟨-, rfl, rfl⟩ | ⟨mode, -, ⟨rfl, rfl⟩ | ⟨rfl, rfl⟩⟩ := applyMode_cases ha
    all_goals exact hp
  | unmute =>
    rw [withAudio_shared] at hp
    exact hp
  | @present _ n now =>
    obtain ⟨rate, window, heq⟩ := present_cases (s := s) n now
    rw [heq] at hp
    exact hp
  | _ => exact hp

/-- Only where the loop parks it makes known a phase that it has chosen before. -/
theorem phase_of_loop (hl : Loop e p s p' s') :
    s'.shared.phase = s.shared.phase ∨ p = .publishing s'.shared.phase ∨
      s'.shared.phase ≠ .uninitialized ∧ s'.shared.phase ≠ .paused := by
  cases hl with
  | create hc =>
    obtain ⟨files, rfl⟩ := createTree_cases hc
    right; right
    exact ⟨nofun, nofun⟩
  | purge hc => obtain ⟨files, rfl | ⟨removed, rfl⟩⟩ := purgeImages_cases hc <;> exact .inl rfl
  | close | empty => exact .inl (closeRom_phase e s)
  | apply ha =>
    obtain ⟨-, rfl, rfl⟩ | ⟨mode, -, ⟨rfl, rfl⟩ | ⟨rfl, rfl⟩⟩ := applyMode_cases ha
    all_goals exact .inl rfl
  | unmute =>
    rw [withAudio_shared]
    exact .inl rfl
  | @present _ n now =>
    obtain ⟨rate, window, heq⟩ := present_cases (s := s) n now
    rw [heq]
    exact .inl rfl
  -- the one phase that is chosen from the pause flag
  | publish =>
    right; left
    rfl
  | engage | run | stop | abort | vanish =>
    right; right
    exact ⟨nofun, nofun⟩
  | _ => exact .inl rfl

/-- As long as nothing is about sound the engine was told nothing. -/
theorem Untold.aside (h : Untold s) (ha : Aside s s' new) : Untold s' := by
  obtain ⟨hm, hc, hp⟩ := soundless_append (h := s.history) ha.soundless
  rw [← ha.history] at hm hc hp
  exact ⟨hm.trans h.silent, hc.trans h.mics, hp.trans h.unprepared, by rw [ha.audio]; exact h.muted⟩

/-- And what it was told last stays what it was told last. -/
theorem Told.aside (h : Told s) (ha : Aside s s' new) (known : s'.shared.phase ≠ .uninitialized) :
    Told s' := by
  obtain ⟨hm, hc, hp⟩ := soundless_append (h := s.history) ha.soundless
  rw [← ha.history] at hm hc hp
  refine ⟨?_, ?_, hp.trans h.prepared, by rw [ha.audio]; exact h.engaged, known⟩
  · rw [hm, ha.audio]
    exact h.head
  · rw [hc, hm]
    exact h.mics

/-- Either the engine was told nothing, or it was told the mute state. -/
theorem SoundAt.cases (h : SoundAt s p) : Untold s ∨ Told s := by
  cases p with
  | between => exact h.imp_left And.right
  | publishing phase => exact .inr h.1
  | preparing | purging | directing | settingUp | inSetUp | checking | engaging => exact .inl h
  | failed | broken | stopping | emptying | vanishing | released => exact h
  | _ => exact .inr h

/-- What leaves the sound and the phase alone. -/
theorem SoundAt.aside (h : SoundAt s p) (ha : Aside s s' new)
    (hp : s'.shared.phase = s.shared.phase) : SoundAt s' p := by
  have untold : Untold s → Untold s' := fun hu => hu.aside ha
  have told : Told s → Told s' := fun ht => ht.aside ha (hp ▸ ht.known)
  cases p with
  | between => exact h.imp (fun fresh => ⟨hp.trans fresh.1, untold fresh.2⟩) told
  | publishing phase => exact ⟨told h.1, h.2⟩
  | preparing | purging | directing | settingUp | inSetUp | checking | engaging => exact untold h
  | failed | broken | stopping | emptying | vanishing | released => exact h.imp untold told
  | _ => exact told h

/-- A part that fails leaves the engine as it was told. -/
theorem SoundAt.after (h : SoundAt s p) (r : Except SchedulerError Unit) :
    SoundAt s (.after r p) := by
  cases r with
  | ok u => exact h
  | error error => exact h.cases

end Aside

section Sections

variable {e : Engine σ} {s s' : Scheduler σ} {p p' : Point}

/-- A section of the audio lock that tells the engine what it changes. -/
theorem Told.withAudio (h : Told s) {change : Audio → Audio × Option Bool}
    (hm : (change s.shared.audio).2.getD s.shared.audio.muted = (change s.shared.audio).1.muted)
    (he : (change s.shared.audio).1.engaged = s.shared.audio.engaged) :
    Told (s.withAudio e change) where
  head := by
    rw [withAudio_history, mutings_told, withAudio_shared, ← hm]
    cases (change s.shared.audio).2 with
    | none => exact h.head
    | some muted => rfl
  mics := by rw [withAudio_history, mutings_told, micMutings_told, h.mics]
  prepared := by rw [withAudio_history, wasPrepared_told]; exact h.prepared
  engaged := by rw [withAudio_shared]; exact he.trans h.engaged
  known := by rw [withAudio_shared]; exact h.known

/-- While nothing was told sound is off, so muting has nothing to do. -/
theorem Untold.mute (h : Untold s) : s.withAudio e Audio.mute = s := by
  unfold Scheduler.withAudio
  rw [Audio.mute_of_muted _ h.muted]
  rfl

/-- With the end of the preparations the engine is told to be quiet. -/
theorem Untold.engage (h : Untold s) (root : Path) :
    Told (((s.withAudio e Audio.engage).record (.prepared root)).publish .idle) where
  head := by
    change (mutings (s.withAudio e Audio.engage).history).head? = some _
    rw [withAudio_history, mutings_told]
    rfl
  mics := by
    change micMutings (s.withAudio e Audio.engage).history = mutings _
    rw [withAudio_history, micMutings_told, h.mics]
    -- both lists begin with the state that is told here, and were empty before
    change _ = mutings (s.withAudio e Audio.engage).history
    rw [withAudio_history, mutings_told, h.silent]
  prepared := rfl
  engaged := rfl
  known := nofun

/-- To mute tells the engine, if there was sound. -/
theorem SoundAt.mute (h : SoundAt s p) : SoundAt (s.withAudio e Audio.mute) p := by
  obtain untold | told := h.cases
  · rw [untold.mute]
    exact h
  · have muted : Told (s.withAudio e Audio.mute) :=
      told.withAudio (Audio.told_mute _ told.engaged) (Audio.mute_engaged _)
    -- an engine that was told something is past the preparations
    cases p with
    | between | failed | broken | stopping | emptying | vanishing | released => exact .inr muted
    | publishing phase => exact ⟨muted, h.2⟩
    | preparing | purging | directing | settingUp | inSetUp | checking | engaging =>
      exact absurd (h.unprepared.symm.trans told.prepared) Bool.false_ne_true
    | _ => exact muted

/-- A part of a control, wherever the loop is. -/
theorem SoundAt.part (h : SoundAt s p) (x : ControlPart) : SoundAt (s.runPart e x) p := by
  cases x with
  | mute => exact h.mute
  | _ => exact h.aside (.same rfl rfl) rfl

/-- One part of a control after another. -/
theorem SoundAt.parts (h : SoundAt s p) (xs : List ControlPart) : SoundAt (s.runParts e xs) p := by
  induction xs generalizing s with
  | nil => exact h
  | cons x xs ih => exact ih (h.part x)

theorem SoundAt.recordControl (h : SoundAt s p) (c : Control) : SoundAt (s.record (.control c)) p :=
  h.aside (.one rfl rfl rfl) rfl

/-- So a control leaves the engine knowing the mute state. -/
theorem SoundAt.control (h : SoundAt s p) (c : Control) : SoundAt (s.control e c) p := by
  rw [control_eq_parts]
  exact (h.recordControl c).parts c.parts

/-- **The engine goes on to be told what controllers see.** -/
theorem soundAt_loop (h : SoundAt s p) (hl : Loop e p s p' s') : SoundAt s' p' := by
  -- where the loop makes no sound, only the phase can change what is to be shown
  by_cases hp : p.Sounding
  · cases hl with
    | engage => exact Untold.engage h _
    | unmute => exact Told.withAudio h (Audio.told_unmute _ _) (Audio.unmute_engaged _ _)
    | step => exact ⟨h.head, h.mics, h.prepared, h.engaged, h.known⟩
    | abandon => exact .inr ⟨h.head, h.mics, h.prepared, h.engaged, h.known⟩
    | _ => exact hp.elim
  · obtain ⟨new, aside⟩ := aside_of_loop hl hp
    have known : s.shared.phase ≠ .uninitialized → s'.shared.phase ≠ .uninitialized := by
      intro before
      obtain same | rfl | ⟨other, -⟩ := phase_of_loop hl
      · rw [same]
        exact before
      · exact h.2
      · exact other
    have untold : Untold s → Untold s' := fun hu => hu.aside aside
    have told : Told s → Told s' := fun ht => ht.aside aside (known ht.known)
    cases hl with
    | halt => exact h.aside aside rfl
    -- the phase says whether the preparations are still to come
    | first _ fresh => exact untold (h.resolve_right fun ht => ht.known fresh).2
    | begin _ begun => exact told (h.resolve_left fun fresh => begun fresh.1)
    | create => exact SoundAt.after (p := .purging) (untold h) _
    | purge => exact SoundAt.after (p := .directing) (untold h) _
    | setUpEnds => exact SoundAt.after (p := .checking) (untold h) _
    | check => exact SoundAt.after (p := .engaging) (untold h) _
    | direct | skip | setUp => exact untold h
    | apply => exact SoundAt.after (p := .applying _) (told h) _
    | choose => exact SoundAt.after (p := .running) (told h) _
    | park => exact ⟨told h, parkedPhase_known _⟩
    | publish => exact told h.1
    | present | sleep | giveUp => exact .inr (told h)
    | stop => exact h.cases.imp untold told
    | abort | requestStop | empty | vanish => exact Or.imp untold told h
    | noLoad | takeLoad | announce | close | load | accept | reject | configure | configured | rest
    | run | lock | again | finish => exact told h
    | engage | unmute | step | abandon => exact absurd trivial hp

end Sections

/-! ### With controllers that nobody interrupts -/

/-- What holds at every point. -/
structure Heard (e : Engine σ) (s₀ s : Scheduler σ) : Prop where
  past : Throughout (Mirrored e s₀) s.history
  paired : Paired (calls s.history)
  paused : s.shared.paused = true → s.shared.audio.muted = true
  phase : s.shared.phase = .paused → s.shared.audio.muted = true

/-- What else holds with the loop at a point: what it has read of the pause flag is still true,
until a controller pauses. -/
def CalmAt (s : Scheduler σ) : Point → Prop
  | .running => s.shared.paused = false
  | .unmuting => s.shared.paused = false ∧ s.shared.phase = .running
  | .locking | .stepping _ | .inStep _ _ =>
    s.shared.audio.muted = false ∨ pausedSince s.history = true
  | .publishing phase => phase = .paused → s.shared.audio.muted = true
  | _ => True

section Paired

variable {cs : List EngineCall} {c : EngineCall}

/-- A call that mutes nothing is put before calls in pairs. -/
theorem Paired.cons (h : Paired cs) (hc : ∀ muted, c ≠ .order (.muteAudio muted))
    (hm : ∀ muted, c ≠ .order (.muteMic muted)) : Paired (c :: cs) where
  followed muted older hs := by
    obtain heq | hs := List.suffix_cons_iff.mp hs
    · exact absurd (List.cons.inj heq).1.symm (hc muted)
    · exact (h.followed muted older hs).trans (List.suffix_cons c cs)
  preceded muted older hs := by
    obtain heq | hs := List.suffix_cons_iff.mp hs
    · exact absurd (List.cons.inj heq).1.symm (hm muted)
    · exact h.preceded muted older hs

/-- A new pair is put before calls in pairs. -/
theorem Paired.told (h : Paired cs) (muted : Bool) :
    Paired (.order (.muteMic muted) :: .order (.muteAudio muted) :: cs) where
  followed m older hs := by
    -- an order is the older of the two new calls, or was there before
    obtain heq | hs := List.suffix_cons_iff.mp hs
    · exact absurd (List.cons.inj heq).1 nofun
    · obtain heq | hs := List.suffix_cons_iff.mp hs
      · cases heq
        exact List.suffix_refl _
      · have older := h.followed m older hs
        exact (older.trans (List.suffix_cons _ cs)).trans (List.suffix_cons _ _)
  preceded m older hs := by
    obtain heq | hs := List.suffix_cons_iff.mp hs
    · cases heq
      rfl
    · obtain heq | hs := List.suffix_cons_iff.mp hs
      · exact absurd (List.cons.inj heq).1 nofun
      · exact h.preceded m older hs

/-- What the engine is told comes in a pair. -/
theorem Paired.toldEntries {h : List Entry} (hp : Paired (calls h)) (v : View) (t : Option Bool) :
    Paired (calls (toldEntries v t ++ h)) := by
  cases t with
  | none => exact hp
  | some muted => exact hp.told muted

/-- What is not about sound breaks no pair. -/
theorem Paired.soundless {h new : List Entry} (hp : Paired (calls h))
    (hn : ∀ x ∈ new, x.action.isSoundless = true) : Paired (calls (new ++ h)) := by
  induction new with
  | nil => exact hp
  | cons x new ih =>
    have rest := ih fun y hy => hn y (List.mem_cons_of_mem x hy)
    have hx := hn x List.mem_cons_self
    obtain ⟨action, v⟩ := x
    cases action with
    | call c =>
      refine rest.cons ?_ ?_ <;> rintro muted rfl <;> exact absurd hx Bool.false_ne_true
    | _ => exact rest

end Paired

section Heard

variable {e : Engine σ} {s₀ s s' : Scheduler σ} {p p' : Point} {new : List Entry} {x : Entry}

/-- Once all is prepared, the engine was last told the mute state that shows. -/
theorem head?_of_wasPrepared (hs : Untold s ∨ Told s) (hw : wasPrepared s.history = true) :
    (mutings s.history).head? = some s.shared.audio.muted := by
  obtain untold | told := hs
  · exact absurd (untold.unprepared.symm.trans hw) Bool.false_ne_true
  · exact told.head

/-- An entry that is not about sound only has to show the mute state. -/
theorem Mirrored.of_soundless {older : List Entry} (hx : x.action.isSoundless = true)
    (shown : wasPrepared older = true → (mutings older).head? = some x.view.muted)
    (paused : x.view.paused = true → x.view.muted = true)
    (phase : x.view.phase = .paused → x.view.muted = true) : Mirrored e s₀ x older where
  -- an entry about sound is none of these
  toggles muted h := by
    rw [h] at hx
    exact absurd hx Bool.false_ne_true
  ready muted h := by
    rw [h] at hx
    exact absurd hx Bool.false_ne_true
  shown hw _ := shown hw
  paused := paused
  phase := phase
  step h := by
    rw [h] at hx
    exact absurd hx Bool.false_ne_true

/-- Entries aside are mirrored, for they show what the engine was told. -/
theorem Heard.append (h : Heard e s₀ s) (hs : Untold s ∨ Told s) (ha : Aside s s' new) :
    Throughout (Mirrored e s₀) (new ++ s.history) := by
  obtain ⟨-, soundless, -, seen⟩ := ha
  induction new with
  | nil => exact h.past
  | cons x new ih =>
    have older : ∀ y ∈ new, y ∈ x :: new := fun y hy => List.mem_cons_of_mem x hy
    have rest := ih (fun y hy => soundless y (older y hy)) fun y hy => seen y (older y hy)
    -- the orders are those of before, and so is the state that is seen
    obtain ⟨hm, -, hp⟩ :=
      soundless_append (h := s.history) fun y hy => soundless y (older y hy)
    obtain ⟨phase, muted, paused⟩ := seen x List.mem_cons_self
    rw [List.cons_append]
    refine throughout_cons.mpr ⟨.of_soundless (soundless x List.mem_cons_self) ?_ ?_ ?_, rest⟩
    · rw [hm, hp, muted]
      exact head?_of_wasPrepared hs
    · rw [muted]
      exact fun hx => h.paused (paused hx)
    · rw [muted, phase]
      exact h.phase

/-- A step aside keeps all that was heard. -/
theorem Heard.aside (h : Heard e s₀ s) (hs : Untold s ∨ Told s) (ha : Aside s s' new)
    (paused : s'.shared.paused = true → s.shared.paused = true)
    (phase : s'.shared.phase = .paused → s.shared.audio.muted = true) : Heard e s₀ s' where
  past := by
    rw [ha.history]
    exact h.append hs ha
  paired := by
    rw [ha.history]
    exact h.paired.soundless ha.soundless
  paused := by
    rw [ha.audio]
    exact fun hp => h.paused (paused hp)
  phase := by
    rw [ha.audio]
    exact phase

/-- A section of the audio lock. -/
theorem heard_withAudio {change : Audio → Audio × Option Bool}
    (past : Throughout (Mirrored e s₀) s.history) (paired : Paired (calls s.history))
    (toggles : ∀ muted, (change s.shared.audio).2 = some muted →
      (change s.shared.audio).1.muted = muted ∧ (mutings s.history).headD false = !muted)
    (ready : ∀ muted, (change s.shared.audio).2 = some muted → mutings s.history = [] →
      ∃ s₁, Reached e s₀ .engaging s₁ ∧ s₁.history = s.history ∧ e.isReady s₁.engine = true)
    (paused : s.shared.paused = true → (change s.shared.audio).1.muted = true)
    (phase : s.shared.phase = .paused → (change s.shared.audio).1.muted = true) :
    Heard e s₀ (s.withAudio e change) where
  past := by
    rw [withAudio_history]
    refine throughout_told past (fun muted ht => ?_) fun muted ht => ?_
    · -- the flag has changed already
      refine ⟨fun m hm => ?_, fun m hm => ?_, fun _ hn => absurd rfl (hn muted), paused, phase,
        nofun⟩
      · cases hm
        exact toggles muted ht
      · exact ready muted ht
    · -- and with the order for the microphone the engine is told the same
      refine ⟨nofun, nofun, fun _ _ => ?_, paused, phase, nofun⟩
      change some muted = some _
      rw [(toggles muted ht).1]
  paired := by
    rw [withAudio_history]
    exact paired.toldEntries _ _
  paused := by rw [withAudio_shared]; exact paused
  phase := by rw [withAudio_shared]; exact phase

/-- A pause mutes, if sound is not off already. -/
theorem Heard.pause (h : Heard e s₀ s) (hs : Untold s ∨ Told s) :
    Heard e s₀ (s.control e (.pause true)) := by
  have recorded : Heard e s₀ (s.record (.control (.pause true))) :=
    h.aside hs (.one rfl rfl rfl) id h.phase
  -- who is told to be quiet was told to make sound before
  have told : ∀ muted, s.shared.audio.mute.2 = some muted →
      muted = true ∧ (mutings s.history).head? = some false := by
    intro muted ht
    obtain ⟨rfl, sounds⟩ := Audio.eq_of_mute _ ht
    obtain untold | told := hs
    · exact absurd (sounds.symm.trans untold.muted) Bool.false_ne_true
    · exact ⟨rfl, sounds ▸ told.head⟩
  change Heard e s₀ (((s.record (.control (.pause true))).modify (·.storePaused true)).withAudio e
    Audio.mute)
  refine heard_withAudio recorded.past recorded.paired (fun muted ht => ?_) (fun muted ht hn => ?_)
    (fun _ => Audio.mute_muted _) fun _ => Audio.mute_muted _
  · obtain ⟨rfl, last⟩ := told muted ht
    refine ⟨Audio.mute_muted _, ?_⟩
    rw [List.headD_eq_head?_getD]
    exact congrArg (Option.getD · false) last
  · obtain ⟨-, last⟩ := told muted ht
    change mutings s.history = [] at hn
    rw [hn] at last
    exact absurd last nofun

/-- A control keeps it too; a pause is muted before it shows. -/
theorem Heard.control (h : Heard e s₀ s) (hs : Untold s ∨ Told s) (c : Control) :
    Heard e s₀ (s.control e c) := by
  cases c with
  | pause paused =>
    cases paused with
    | true => exact h.pause hs
    | false => exact h.aside hs (.one rfl rfl rfl) nofun h.phase
  | _ => exact h.aside hs (.one rfl rfl rfl) id h.phase

/-- With the end of the preparations the engine is told to be quiet; it has become ready. -/
theorem Heard.engage (h : Heard e s₀ s) (hs : Untold s) (hr : Reached e s₀ .engaging s)
    (ready : e.isReady s.engine = true) (root : Path) :
    Heard e s₀ (((s.withAudio e Audio.engage).record (.prepared root)).publish .idle) := by
  have engaged : Heard e s₀ (s.withAudio e Audio.engage) := by
    refine heard_withAudio h.past h.paired (fun muted ht => ?_)
      (fun _ _ _ => ⟨s, hr, rfl, ready⟩) h.paused h.phase
    obtain rfl : s.shared.audio.muted = muted := Option.some.inj ht
    exact ⟨rfl, by rw [hs.silent, hs.muted]; rfl⟩
  have last := (Untold.engage (e := e) hs root).head
  -- the preparations are over with an entry of their own, and the engine was told before
  have prepared : Mirrored e s₀ ⟨.prepared root, (s.withAudio e Audio.engage).view⟩
      (s.withAudio e Audio.engage).history :=
    ⟨nofun, nofun, fun _ _ => last, engaged.paused, engaged.phase, nofun⟩
  have published : Mirrored e s₀
      ⟨.publish (s.withAudio e Audio.engage).shared.phase .idle, (s.withAudio e Audio.engage).view⟩
      (⟨.prepared root, (s.withAudio e Audio.engage).view⟩ ::
        (s.withAudio e Audio.engage).history) :=
    .of_soundless rfl (fun _ => last) engaged.paused engaged.phase
  exact {
    past := throughout_cons.mpr ⟨published, throughout_cons.mpr ⟨prepared, engaged.past⟩⟩
    paired := engaged.paired
    paused := engaged.paused
    phase := nofun }

/-- A frame that was begun without a pause is made with sound. -/
theorem Heard.unmute (h : Heard e s₀ s) (hs : Told s) (hp : s.shared.paused = false)
    (running : s.shared.phase = .running) :
    Heard e s₀ (s.withAudio e (Audio.unmute · s.shared.paused)) := by
  -- and the other way round
  have told : ∀ muted, (s.shared.audio.unmute s.shared.paused).2 = some muted →
      muted = false ∧ (mutings s.history).head? = some true := by
    intro muted ht
    obtain ⟨rfl, quiet, -⟩ := Audio.eq_of_unmute _ _ ht
    exact ⟨rfl, quiet ▸ hs.head⟩
  refine heard_withAudio h.past h.paired (fun muted ht => ?_) (fun muted ht hn => ?_)
    (fun paused => absurd (hp.symm.trans paused) Bool.false_ne_true) fun paused => ?_
  · obtain ⟨rfl, last⟩ := told muted ht
    refine ⟨?_, ?_⟩
    · rw [hp]
      exact Audio.unmute_muted _ hs.engaged
    · rw [List.headD_eq_head?_getD]
      exact congrArg (Option.getD · false) last
  · obtain ⟨-, last⟩ := told muted ht
    rw [hn] at last
    exact absurd last nofun
  · rw [running] at paused
    exact absurd paused nofun

/-- A step is an order only to emulate. -/
theorem Heard.step (h : Heard e s₀ s) (hs : Told s) (hc : CalmAt s (.stepping 0)) :
    Heard e s₀ (s.record (.call .step)) where
  past := by
    refine throughout_cons.mpr ⟨⟨nofun, nofun, fun _ _ => hs.head, h.paused, h.phase, ?_⟩, h.past⟩
    intro _ unpaused
    have sounds : s.shared.audio.muted = false := hc.resolve_right (by simp [unpaused])
    exact ⟨sounds, sounds ▸ hs.head⟩
  paired := h.paired.cons nofun nofun
  paused := h.paused
  phase := h.phase

/-- A pause in the middle of a frame is remembered until the modes are turned to again. -/
theorem CalmAt.control (h : CalmAt s p) (hp : p.Open) (c : Control) : CalmAt (s.control e c) p := by
  cases p with
  | inStep steps panics =>
    cases c with
    | pause paused =>
      cases paused with
      | true =>
        -- whatever was promised of the sound, a pause has come before the next step
        right
        rw [control_history, pausedSince_told]
        rfl
      | false => exact h
    | _ => exact h
  | between | inSetUp | inLoad | failed | broken | released => trivial
  | _ => exact hp.elim

/-- A part that fails leaves the tick, and there is nothing to be said then. -/
theorem CalmAt.after (h : CalmAt s p) (r : Except SchedulerError Unit) : CalmAt s (.after r p) := by
  cases r with
  | ok u => exact h
  | error error => trivial

/-- Where the engine is to be told for the first time, it is ready. -/
theorem ready_of_reached (hr : Reached e s₀ p s) (hp : p = .engaging) :
    e.isReady s.engine = true := by
  induction hr with
  | start => exact absurd hp nofun
  | control _ ho => exact (hp ▸ ho : Point.engaging.Open).elim
  | outside _ _ _ ih => exact ih hp
  | loop hr hl ih =>
    cases hl with
    -- the engine is engaged only behind the check that it is ready
    | check =>
      unfold Scheduler.requireReady at hp
      split at hp
      · assumption
      · exact absurd hp nofun
    | create | purge | setUpEnds | apply | choose =>
      exact absurd hp (Point.after_ne nofun nofun)
    | _ => exact absurd hp nofun

/-- **Controllers go on to see what the engine is told.** -/
theorem heard_loop (hr : Reached e s₀ p s) (hs : SoundAt s p) (h : Heard e s₀ s) (hc : CalmAt s p)
    (hl : Loop e p s p' s') : Heard e s₀ s' := by
  by_cases hp : p.Sounding
  · cases hl with
    | engage => exact h.engage hs hr (ready_of_reached hr rfl) _
    | unmute => exact h.unmute hs hc.1 hc.2
    | step =>
      have stepped := h.step hs hc
      exact ⟨stepped.past, stepped.paired, stepped.paused, stepped.phase⟩
    | abandon => exact ⟨h.past, h.paired, h.paused, h.phase⟩
    | _ => exact hp.elim
  · obtain ⟨new, aside⟩ := aside_of_loop hl hp
    refine h.aside hs.cases aside (paused_of_loop hl) fun paused => ?_
    -- the loop makes a pause known only if it saw one, and there was silence then
    obtain same | rfl | ⟨-, other⟩ := phase_of_loop hl
    · exact h.phase (same ▸ paused)
    · exact hc paused
    · exact absurd paused other

/-- A step of the loop keeps the points calm. -/
theorem calm_loop (hs : SoundAt s p) (h : Heard e s₀ s) (hc : CalmAt s p)
    (hl : Loop e p s p' s') : CalmAt s' p' := by
  cases hl with
  | create => exact CalmAt.after (p := .purging) trivial _
  | purge => exact CalmAt.after (p := .directing) trivial _
  | setUpEnds => exact CalmAt.after (p := .checking) trivial _
  | check => exact CalmAt.after (p := .engaging) trivial _
  | apply => exact CalmAt.after (p := .applying _) trivial _
  | choose runs =>
    -- who goes on to run has read a clear flag
    rw [Bool.and_eq_true, Bool.not_eq_true'] at runs
    exact CalmAt.after (p := .running) runs.2 _
  | run => exact ⟨hc, rfl⟩
  | unmute =>
    left
    rw [withAudio_shared, hc.1]
    exact Audio.unmute_muted _ (Told.engaged hs)
  | lock | step | again => exact hc
  | park =>
    intro hph
    unfold parkedPhase at hph
    split at hph
    · next paused => exact h.paused paused
    · exact absurd hph nofun
  | _ => trivial

/-- What is heard and told holds wherever the loop is. -/
theorem heard_reached (hs : SoundAt s₀ .between) (h : Heard e s₀ s₀) (hr : Reached e s₀ p s) :
    SoundAt s p ∧ Heard e s₀ s ∧ CalmAt s p := by
  -- none of the three is kept alone: what is heard depends on what the loop has read
  induction hr with
  | start => exact ⟨hs, h, trivial⟩
  | loop hr hl ih =>
    obtain ⟨sound, heard, calm⟩ := ih
    exact ⟨soundAt_loop sound hl, heard_loop hr sound heard calm hl, calm_loop sound heard calm hl⟩
  | control _ hp c ih =>
    obtain ⟨sound, heard, calm⟩ := ih
    exact ⟨sound.control c, heard.control sound.cases c, calm.control hp c⟩
  | @outside p _ _ files cheats ih =>
    obtain ⟨sound, heard, calm⟩ := ih
    refine ⟨sound.aside (.same rfl rfl) rfl,
      ⟨heard.past, heard.paired, heard.paused, heard.phase⟩, ?_⟩
    cases p <;> exact calm

/-- A scheduler that has done nothing yet is quiet, also if its engine is ready. -/
theorem heard_start (e : Engine σ) (engine : σ) (workingDirectory : Path) (modes : Modes)
    (sink : Sink) (files : FileTree) (now : Nat) :
    SoundAt (.start e engine workingDirectory modes sink files now) .between ∧
      Heard e (.start e engine workingDirectory modes sink files now)
        (.start e engine workingDirectory modes sink files now) := by
  refine ⟨.inl ⟨rfl, rfl, rfl, rfl, rfl⟩, throughout_nil, ⟨?_, ?_⟩, fun _ => rfl, fun _ => rfl⟩
  · exact fun _ _ hs => absurd (List.suffix_nil.mp hs) (List.cons_ne_nil _ _)
  · exact fun _ _ hs => absurd (List.suffix_nil.mp hs) (List.cons_ne_nil _ _)

/-- Orders that toggle alternate, and the first of them is to be quiet. -/
theorem alternating_of_throughout {h : List Entry} (ht : Throughout (Mirrored e s₀) h) :
    (mutings h).IsChain (· ≠ ·) ∧
      ∀ muted, (mutings h).getLast? = some muted → muted = true := by
  induction h with
  | nil => exact ⟨List.isChain_nil, nofun⟩
  | cons x h ih =>
    obtain ⟨hx, ht⟩ := throughout_cons.mp ht
    obtain ⟨chain, last⟩ := ih ht
    cases hm : x.action.muting? with
    | none =>
      have same : mutings (x :: h) = mutings h := List.filterMap_cons_none hm
      rw [same]
      exact ⟨chain, last⟩
    | some muted =>
      -- the newest order is the opposite of the one before it, or the first
      have more : mutings (x :: h) = muted :: mutings h := List.filterMap_cons_some hm
      have haction : x.action = .call (.order (.muteAudio muted)) := by
        unfold Action.muting? at hm
        split at hm
        · next m h' => rw [h', Option.some.inj hm]
        · exact absurd hm nofun
      have toggles := (hx.toggles muted haction).2
      rw [more]
      cases older : mutings h with
      | nil =>
        rw [older] at toggles
        refine ⟨List.isChain_singleton _, fun m hl => ?_⟩
        obtain rfl : muted = m := Option.some.inj hl
        exact (Bool.not_eq_false' _).mp toggles.symm
      | cons m rest =>
        rw [older] at toggles chain last
        refine ⟨List.isChain_cons_cons.mpr ⟨?_, chain⟩, fun n hl => last n ?_⟩
        · rw [show m = !muted from toggles]
          cases muted <;> decide
        · rw [List.getLast?_cons_cons] at hl
          exact hl

end Heard

/-- **The engine is told what controllers see.** In every run the orders about the sound alternate,
from a first one to be quiet that comes once the engine is ready, and each is followed at once by
the one for the microphone. Once the preparations are over the last of them is what controllers see,
at every moment, those inside the engine's calls included. A pause and the phase that goes with it
come with silence, and a step that no pause came before in its tick with sound. -/
theorem sound_mirror {e : Engine σ} {engine : σ} {workingDirectory : Path} {modes : Modes}
    {sink : Sink} {files : FileTree} {now : Nat} {p : Point} {s : Scheduler σ}
    (hr : Run e (.start e engine workingDirectory modes sink files now) p s) :
    Throughout (Mirrored e (.start e engine workingDirectory modes sink files now)) s.history ∧
      (mutings s.history).IsChain (· ≠ ·) ∧
      (∀ muted, (mutings s.history).getLast? = some muted → muted = true) ∧
      Paired (calls s.history) ∧
      (p = .between → s.shared.phase ≠ .uninitialized → wasPrepared s.history = true) ∧
      (wasPrepared s.history = true →
        (mutings s.history).head? = some s.shared.audio.muted) ∧
      (s.shared.paused = true → s.shared.audio.muted = true) ∧
      (s.shared.phase = .paused → s.shared.audio.muted = true) := by
  obtain ⟨sound, heard⟩ := heard_start e engine workingDirectory modes sink files now
  obtain ⟨sound, heard, -⟩ := heard_reached sound heard hr.reached
  obtain ⟨chain, first⟩ := alternating_of_throughout heard.past
  refine ⟨heard.past, chain, first, heard.paired, ?_, head?_of_wasPrepared sound.cases,
    heard.paused, heard.phase⟩
  rintro rfl known
  exact (sound.resolve_left fun fresh => known fresh.1).prepared

/-- A pause from inside the second frame, which is then resumed: four orders, and the third frame
has sound. -/
theorem sound_mirror_resumed :
    let e := ScriptedEngine.engine
    let s₀ := (scripted { hooks := [.on .step 2 [.control (.pause true)]] }).control e
      (.load sampleRom)
    let s₂ := ((s₀.tick e {} 1).2.tick e {} 1).2
    let s₃ := ((s₂.tick e {} 1).2.control e (.pause false))
    let s₄ := (s₃.tick e {} 1).2
    s₂.shared.audio.muted = true ∧ s₃.shared.phase = .paused ∧ s₃.shared.audio.muted = true ∧
      mutings s₄.history = [false, true, false, true] ∧ s₄.shared.audio.muted = false ∧
      Throughout (Mirrored e (scripted { hooks := [.on .step 2 [.control (.pause true)]] }))
        s₄.history := by
  intro e s₀ s₂ s₃ s₄
  have asked : Run e _ .between s₀ := Run.start.control _
  -- the pause comes in the second step; the third tick parks, and the fourth one runs again
  have first := asked.done {} 1 (.stepped 1) (by decide +kernel)
  have second : Run e _ .between s₂ := first.done {} 1 (.stepped 1) (by decide +kernel)
  have third : Run e _ .between s₃ := (second.done {} 1 .parked (by decide +kernel)).control _
  have fourth : Run e _ .between s₄ := third.done {} 1 (.stepped 1) (by decide +kernel)
  obtain ⟨-, -, -, -, -, -, paused, -⟩ := sound_mirror second
  obtain ⟨-, -, -, -, -, -, -, phase⟩ := sound_mirror third
  obtain ⟨past, -, -, -, -, last, -, -⟩ := sound_mirror fourth
  have parked : s₃.shared.phase = .paused := by decide +kernel
  have told : mutings s₄.history = [false, true, false, true] := by decide +kernel
  have prepared : wasPrepared s₄.history = true := by decide +kernel
  have shown := last prepared
  rw [told] at shown
  exact ⟨paused (by decide +kernel), parked, phase parked, told, (Option.some.inj shown).symm, past⟩

end EmuScheduler
