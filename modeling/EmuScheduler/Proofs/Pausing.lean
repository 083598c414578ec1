import EmuScheduler.Proofs.Sound
import EmuScheduler.Proofs.Wakeup

/-!
# A pause is not undone

A controller that pauses stores the flag and then mutes; the loop decides to run and unmutes later,
in a section of the audio lock in which it looks at the flag again. Between any of these steps other
controllers can pause and resume. `pause_not_undone` says that this order is enough: however the
steps come, while the flag is set and nobody is still about to mute, sound is off, and so the engine
was told last.

The invariant (`Hushed`) is that a set flag comes with silence or is owed a muting. A store owes
one; the muting pays it; and the loop takes nothing away, because it unmutes only where the flag
that it sees in its section is clear (`muted_of_loop`).
-/

namespace EmuScheduler

open Scheduler World

variable {ι σ : Type} {e : Engine σ} {s s' : Scheduler σ} {p p' : Point}

/-- While the flag is set the loop leaves silence as it is. -/
theorem muted_of_loop (hl : Loop e p s p' s') (hp : s.shared.paused = true)
    (hm : s.shared.audio.muted = true) : s'.shared.audio.muted = true := by
  by_cases hs : p.Sounding
  · cases hl with
    | engage =>
      change (s.withAudio e Audio.engage).shared.audio.muted = true
      rw [withAudio_shared]
      exact hm
    | unmute =>
      -- the flag is read in the section itself
      rw [withAudio_shared, hp, Audio.unmute_of_paused]
      exact hm
    | step | abandon => exact hm
    | _ => exact hs.elim
  · obtain ⟨new, aside⟩ := aside_of_loop hl hs
    rw [aside.audio]
    exact hm

/-- A pause flag that is set comes with silence, or a controller is still to mute. -/
structure Hushed (w : World ι σ) : Prop where
  sound : SoundAt w.scheduler w.point
  owed : w.scheduler.shared.paused = true →
    w.scheduler.shared.audio.muted = true ∨ ∃ i, w.todo i = [.mute]

section Parts

variable {x : ControlPart}

/-- Only a controller that pauses sets the flag, and no part of a control unmutes. -/
theorem paused_runPart (hx : x ≠ .storePaused true) (hp : (s.runPart e x).shared.paused = true) :
    s.shared.paused = true := by
  cases x with
  | storePaused paused =>
    cases paused with
    | true => exact absurd rfl hx
    | false => exact absurd hp Bool.false_ne_true
  | mute =>
    change (s.withAudio e Audio.mute).shared.paused = true at hp
    rw [withAudio_shared] at hp
    exact hp
  | _ => exact hp

/-- No part of a control switches sound on, and one of them switches it off. -/
theorem muted_runPart (hm : x = .mute ∨ s.shared.audio.muted = true) :
    (s.runPart e x).shared.audio.muted = true := by
  cases x with
  | mute =>
    change (s.withAudio e Audio.mute).shared.audio.muted = true
    rw [withAudio_shared]
    exact Audio.mute_muted _
  | _ => exact hm.resolve_left nofun

/-- The store of a pause is the beginning of one, and the muting is all that is left of it. -/
theorem rest_of_parts {c : Control} {rest : List ControlPart}
    (hc : c.parts = .storePaused true :: rest) : rest = [.mute] := by
  cases c with
  | pause paused => cases paused <;> cases hc; rfl
  | _ => exact absurd hc (by simp [Control.parts])

end Parts

variable [DecidableEq ι] {w w' : World ι σ}

/-- A controller carries out a part: a store of a pause owes a muting, and a muting pays all. -/
theorem Hushed.part (h : Hushed w) (hs : SoundAt s w.point)
    (hp : s.shared.paused = w.scheduler.shared.paused)
    (ha : s.shared.audio = w.scheduler.shared.audio) {i : ι} {x : ControlPart}
    {rest : List ControlPart} (hx : x = .storePaused true → rest = [.mute])
    (hi : x ≠ .mute → w.todo i ≠ [.mute]) :
    Hushed { w with scheduler := s.runPart e x, todo := Function.update w.todo i rest } where
  sound := hs.part x
  owed paused := by
    by_cases hstore : x = .storePaused true
    · exact .inr ⟨i, (Function.update_self ..).trans (hx hstore)⟩
    · have before : w.scheduler.shared.paused = true := hp ▸ paused_runPart hstore paused
      by_cases hmute : x = .mute
      · exact .inl (muted_runPart (.inl hmute))
      · obtain muted | ⟨j, hj⟩ := h.owed before
        · left
          refine muted_runPart (.inr ?_)
          rw [ha]
          exact muted
        · -- the controller that is to mute is another one
          have other : j ≠ i := by
            rintro rfl
            exact hi hmute hj
          exact .inr ⟨j, (Function.update_of_ne other ..).trans hj⟩

/-- **The invariant is kept by every step.** -/
theorem hushed_step (h : Hushed w) (left : Attentive w) (hs : World.Step e w w') : Hushed w' := by
  cases hs with
  | loop awake hl =>
    -- the flag was set before, so there was silence or somebody is to mute, and both stay
    refine ⟨soundAt_loop h.sound hl, fun paused => ?_⟩
    have before := paused_of_loop hl paused
    exact (h.owed before).imp_left (muted_of_loop hl before)
  | call i c idle =>
    have recorded := h.sound.recordControl c
    cases hc : c.parts with
    | nil =>
      -- a control that is over with its entry owes nothing
      have same : Function.update w.todo i [] = w.todo := by
        rw [← idle, Function.update_eq_self]
      refine ⟨recorded, fun paused => (h.owed paused).imp_right ?_⟩
      rintro ⟨j, hj⟩
      exact ⟨j, (congrFun same j).trans hj⟩
    | cons x rest =>
      refine h.part recorded rfl rfl ?_ fun _ => ?_
      · rintro rfl
        exact rest_of_parts hc
      · rw [idle]
        exact (List.cons_ne_nil _ _).symm
  | @act i x rest next =>
    -- what is left of a control is a notification or a muting
    obtain ⟨last, -⟩ := left.last next
    refine h.part h.sound rfl rfl ?_ fun hx => ?_
    · rintro rfl
      exact absurd last (by simp)
    · rw [next]
      intro hm
      exact hx (List.cons.inj hm).1
  | outside files cheats => exact ⟨h.sound.aside (.same rfl rfl) rfl, h.owed⟩

/-- A pause is followed by silence, or somebody is about to bring it. -/
theorem hushed_reachable {w₀ : World ι σ} (h : Hushed w₀) (left : Attentive w₀)
    (hr : Reachable e w₀ w) : Hushed w := by
  induction hr with
  | start => exact h
  | step hr hs ih => exact hushed_step ih (attentive_reachable left hr) hs

/-- **A pause is not undone by an unmuting that races with it.** However the steps of the loop and
of any number of controllers come, while the pause flag is set and no controller is between its
store and its muting, sound is off; and once the preparations are over the engine was told so last,
of the sound and of the microphone. -/
theorem pause_not_undone {engine : σ} {workingDirectory : Path} {modes : Modes} {sink : Sink}
    {files : FileTree} {now : Nat}
    (hr : Reachable e (.start (.start e engine workingDirectory modes sink files now)) w)
    (paused : w.scheduler.shared.paused = true) (settled : ∀ i, w.todo i ≠ [.mute]) :
    w.scheduler.shared.audio.muted = true ∧
      (wasPrepared w.scheduler.history = true →
        (mutings w.scheduler.history).head? = some true ∧
          (micMutings w.scheduler.history).head? = some true) := by
  obtain ⟨sound, -⟩ := heard_start e engine workingDirectory modes sink files now
  have hushed : Hushed w :=
    hushed_reachable ⟨sound, fun _ => .inl rfl⟩ (attentive_start rfl) hr
  have muted : w.scheduler.shared.audio.muted = true := by
    -- somebody who still has to mute would be in the way of the premise
    obtain muted | ⟨i, hi⟩ := hushed.owed paused
    · exact muted
    · exact absurd hi (settled i)
  refine ⟨muted, fun prepared => ?_⟩
  obtain untold | told := hushed.sound.cases
  · exact absurd (untold.unprepared.symm.trans prepared) Bool.false_ne_true
  · rw [told.mics, told.head, muted]
    exact ⟨rfl, rfl⟩

/-! ### Ticks in a world -/

section Ticks

variable {w₀ : World ι σ}

/-- A control that was begun can be brought to its end. -/
theorem acts_reachable {i : ι} {xs : List ControlPart}
    (hr : Reachable e w₀ { w with scheduler := s, todo := Function.update w.todo i xs }) :
    Reachable e w₀
      { w with scheduler := s.runParts e xs, todo := Function.update w.todo i [] } := by
  induction xs generalizing s with
  | nil => exact hr
  | cons x xs ih =>
    have acted := hr.step (.act (i := i) (Function.update_self ..))
    rw [Function.update_idem] at acted
    exact ih acted

/-- A control that nobody interrupts. -/
theorem control_reachable (hr : Reachable e w₀ w) {i : ι} (idle : w.todo i = []) (c : Control) :
    Reachable e w₀ { w with scheduler := w.scheduler.control e c } := by
  have done := acts_reachable (hr.step (.call i c idle))
  -- the first part comes with the entry, the others one by one
  rw [control_eq_drop_take, ← idle, Function.update_eq_self] at done
  exact done

/-- A control does not put the loop to sleep. -/
theorem awake_control (awake : s.shared.gate.asleep = false) (c : Control) :
    (s.control e c).shared.gate.asleep = false := by
  rw [control_shared]
  unfold Shared.control
  split <;> first | exact awake | rfl

/-- The preamble of a tick that nobody disturbs, with a controller that does what the engine does
from inside its calls. -/
theorem preamble_reachable (hr : Reachable e w₀ w) (awake : w.asleep = false) {i : ι}
    (idle : w.todo i = []) (hp : Preamble e w.point w.scheduler p s) :
    Reachable e w₀ { w with point := p, scheduler := s } ∧ s.shared.gate.asleep = false := by
  induction hp with
  | start => exact ⟨hr, awake⟩
  | @loop p _ s _ _ early hl ih =>
    have elsewhere : p ≠ .sleeping := by
      rintro rfl
      exact early
    exact ⟨ih.1.step (.loop ih.2 hl), (congrArg Gate.asleep (gate_of_loop hl elsewhere)).trans ih.2⟩
  | control _ _ _ c ih => exact ⟨control_reachable ih.1 idle c, awake_control ih.2 c⟩

/-- A tick that nobody disturbs comes to the choice between running and parking, if nothing fails
before. -/
theorem choice_reachable (hr : Reachable e w₀ w) (here : w.point = .between)
    (awake : w.asleep = false) {i : ι} (idle : w.todo i = [])
    (going : w.scheduler.shared.stopping = false) (now : Nat)
    (prepared : ((w.scheduler.record .tick).prepare e).1 = .ok ())
    (configured :
      ((((w.scheduler.record .tick).prepare e).2.settleLoad e now).configure e).1 = .ok ()) :
    let s := ((((w.scheduler.record .tick).prepare e).2.settleLoad e now).configure e).2
    Reachable e w₀ { w with point := .choosing, scheduler := s } ∧
      s.shared.gate.asleep = false := by
  obtain ⟨p, s, todo⟩ := w
  obtain rfl : p = .between := here
  -- the tick begins, and nobody acts before it comes to its choice
  have begun : Reachable e w₀ ⟨.entry s.shared.phase, s.record .tick, todo⟩ := by
    unfold Point.entry
    split
    · next fresh => exact hr.step (.loop awake (.first going fresh))
    · next known => exact hr.step (.loop awake (.begin going known))
  have loading : Preamble e (.entry s.shared.phase) (s.record .tick)
      (.after ((s.record .tick).prepare e).1 .loading) ((s.record .tick).prepare e).2 :=
    Preamble.prepare .start
  rw [prepared] at loading
  have choosing := (loading.settleLoad now).configure
  rw [configured] at choosing
  exact preamble_reachable (w := ⟨_, s.record .tick, todo⟩) begun awake (i := i) idle choosing

end Ticks

/-- A controller pauses when the loop has decided to run and is about to unmute. -/
theorem pause_not_undone_race :
    ∃ w : World Bool TestPattern,
      Reachable TestPattern.engine (.start sample) w ∧ w.scheduler.shared.phase = .running ∧
        w.scheduler.shared.paused = true ∧ (∀ i, w.todo i ≠ [.mute]) ∧
        w.scheduler.shared.audio.muted = true ∧
        (mutings w.scheduler.history).head? = some true := by
  let e := TestPattern.engine
  -- the loop comes to the choice, with a ROM and without a pause
  obtain ⟨s, chosen, awake, ready, runs, prepared⟩ : ∃ s,
      Reachable e (.start sample) (⟨.choosing, s, fun _ => []⟩ : World Bool TestPattern) ∧
        s.shared.gate.asleep = false ∧ e.isReady s.engine = true ∧
        (s.romLoaded && !s.shared.paused) = true ∧ wasPrepared s.history = true := by
    let s₁ := (sample.control e (.load sampleRom)).record .tick
    let s₂ := (s₁.prepare e).2
    have prepared : Preamble e .preparing s₁ (.after (s₁.prepare e).1 .loading) s₂ :=
      Preamble.prepare .start
    rw [show (s₁.prepare e).1 = .ok () by decide +kernel] at prepared
    have configured := (prepared.settleLoad 0).configure
    rw [show ((s₂.settleLoad e 0).configure e).1 = .ok () by decide +kernel] at configured
    have begun : Reachable e (.start sample) (.start sample : World Bool TestPattern) := .start
    have asked := control_reachable begun (i := true) rfl (.load sampleRom)
    have ticked := asked.step (.loop rfl (.first rfl rfl))
    obtain ⟨chosen, awake⟩ := preamble_reachable ticked rfl (i := true) rfl configured
    exact ⟨_, chosen, awake, by decide +kernel, by decide +kernel, by decide +kernel⟩
  have running := chosen.step (.loop awake (.choose runs))
  unfold Scheduler.requireReady at running
  rw [if_pos ready] at running
  -- then a controller stores the flag, and the loop comes before it with the sound
  have published := running.step (.loop awake .run)
  have pausing := published.step (.call true (.pause true) rfl)
  have unmuted := pausing.step (.loop awake .unmute)
  have muted := unmuted.step (.act (i := true) rfl)
  let stored := ((s.publish .running).record (.control (.pause true))).modify (·.storePaused true)
  let s' := (stored.withAudio e (Audio.unmute · true)).withAudio e Audio.mute
  have phase : s'.shared.phase = .running := by
    rw [withAudio_shared, withAudio_shared]
    rfl
  have paused : s'.shared.paused = true := by
    rw [withAudio_shared, withAudio_shared]
    rfl
  have ready : wasPrepared s'.history = true := by
    rw [withAudio_history, wasPrepared_told, withAudio_history, wasPrepared_told]
    exact prepared
  have settled : ∀ i, Function.update (Function.update (fun _ : Bool => []) true
      [ControlPart.mute]) true [] i ≠ [.mute] := by decide
  obtain ⟨silent, told⟩ := pause_not_undone muted paused settled
  exact ⟨_, muted, phase, paused, settled, silent, (told ready).1⟩

end EmuScheduler
