import EmuScheduler.Proofs.Sound

/-!
# Pauses before the first tick

A pause mutes before it returns, but not an engine that was handed over ready and with its sound on.
Such an engine may be told its mute state from the beginning. The flag that controllers see, though,
says from the beginning that sound is off, whatever the engine's own state is, so a muting finds
nothing to do and the engine is told nothing (`controls_of_muted`).

The preparations make up for this, as they tell the engine what the flag says then. `early_pause`
gives the exact extent: after a pause, at whatever moment of a run it comes, the engine is quiet if
it was quiet when it was handed over, or if the preparations are over.

The sound of an engine is not part of its interface. `quietAfter own told` is what becomes of it in
an engine that does as it is told: `own` is its state when it was handed over, and `told` are the
mute states that it was told since then.
-/

namespace EmuScheduler

open Scheduler

variable {σ : Type} {e : Engine σ} {s : Scheduler σ} {p : Point}

/-- Whether an engine is quiet that was told these mute states, newest first, and was quiet before
them if `own` says so. -/
def quietAfter (own : Bool) (told : List Bool) : Bool :=
  told.headD own

/-- **Where the flag says that sound is off, no control reaches the engine.** -/
theorem controls_of_muted (hm : s.shared.audio.muted = true) (cs : List Control) :
    (s.controls e cs).engine = s.engine ∧ calls (s.controls e cs).history = calls s.history ∧
      (s.controls e cs).shared.audio = s.shared.audio := by
  induction cs generalizing s with
  | nil => exact ⟨rfl, rfl, rfl⟩
  | cons c cs ih =>
    -- a pause tells the engine nothing where it finds the sound off
    have plain : s.control e c = (s.record (.control c)).modify (·.control c) := by
      rw [control_eq, Shared.toldBy_eq_none _ _ hm]
      rfl
    have audio : (s.control e c).shared.audio = s.shared.audio := by
      rw [control_shared]
      cases c with
      | pause paused =>
        cases paused with
        | true => exact congrArg Prod.fst (Audio.mute_of_muted _ hm)
        | false => rfl
      | _ => rfl
    obtain ⟨engine, called, same⟩ := ih (s := s.control e c) (by rw [audio]; exact hm)
    refine ⟨engine.trans ?_, called.trans ?_, same.trans audio⟩
    · rw [plain]
      rfl
    · rw [plain]
      rfl

theorem wasPrepared_control (e : Engine σ) (s : Scheduler σ) (c : Control) :
    wasPrepared (s.control e c).history = wasPrepared s.history := by
  rw [control_history, wasPrepared_told]
  rfl

/-- Controls are not what ends the preparations. -/
theorem wasPrepared_controls (e : Engine σ) (s : Scheduler σ) (cs : List Control) :
    wasPrepared (s.controls e cs).history = wasPrepared s.history := by
  induction cs generalizing s with
  | nil => rfl
  | cons c cs ih => exact (ih _).trans (wasPrepared_control e s c)

/-- Whoever was told nothing is as before, and whoever was told what controllers see is quiet after
a pause. -/
theorem quiet_of_soundAt (hs : SoundAt s p) (audio mic : Bool) :
    quietAfter audio (mutings (s.control e (.pause true)).history) =
        (audio || wasPrepared s.history) ∧
      quietAfter mic (micMutings (s.control e (.pause true)).history) =
        (mic || wasPrepared s.history) := by
  have paused : SoundAt (s.control e (.pause true)) p := hs.control _
  rw [← wasPrepared_control e s (.pause true)]
  -- either the engine was told nothing so far, or it is told the state of the flag
  obtain untold | told := paused.cases
  · rw [untold.silent, untold.mics, untold.unprepared, Bool.or_false, Bool.or_false]
    exact ⟨rfl, rfl⟩
  · have muted : (s.control e (.pause true)).shared.audio.muted = true := by
      rw [control_shared]
      exact Audio.mute_muted _
    have last := told.head
    rw [muted] at last
    rw [told.mics, told.prepared, Bool.or_true, Bool.or_true]
    unfold quietAfter
    rw [List.headD_eq_head?_getD, List.headD_eq_head?_getD, last]
    exact ⟨rfl, rfl⟩

/-- **A pause mutes what was quiet or is prepared.**

* No sequence of controls before the first tick reaches the engine, ready or not, though one that is
  ready may be told. So a pause among them leaves its sound as it was when it was handed over.
* In every run, a pause leaves the engine quiet if it was quiet at first or the preparations are
  over, and at no other time. They are over when a tick has come to an outcome. -/
theorem early_pause (e : Engine σ) (engine : σ) (workingDirectory : Path) (modes : Modes)
    (sink : Sink) (files : FileTree) (now : Nat) :
    let s₀ := Scheduler.start e engine workingDirectory modes sink files now
    (∀ cs : List Control,
      (s₀.controls e cs).engine = engine ∧ calls (s₀.controls e cs).history = [] ∧
        (s₀.controls e cs).shared.audio = ⟨true, e.isReady engine⟩ ∧
        ∀ audio mic : Bool,
          quietAfter audio (mutings ((s₀.controls e cs).control e (.pause true)).history) = audio ∧
          quietAfter mic (micMutings ((s₀.controls e cs).control e (.pause true)).history) = mic) ∧
    ∀ p s, Run e s₀ p s →
      (p = .between → s.shared.phase ≠ .uninitialized → wasPrepared s.history = true) ∧
        ∀ audio mic : Bool,
          quietAfter audio (mutings (s.control e (.pause true)).history) =
              (audio || wasPrepared s.history) ∧
            quietAfter mic (micMutings (s.control e (.pause true)).history) =
              (mic || wasPrepared s.history) := by
  intro s₀
  obtain ⟨sound₀, heard₀⟩ := heard_start e engine workingDirectory modes sink files now
  refine ⟨fun cs => ?_, fun p s hr => ?_⟩
  · obtain ⟨same, uncalled, audio⟩ := controls_of_muted (s := s₀) (e := e) rfl cs
    obtain ⟨sound, -, -⟩ := heard_reached sound₀ heard₀ (Reached.start.controls trivial cs)
    refine ⟨same, uncalled, audio, fun own ownMic => ?_⟩
    -- no tick has begun, so the preparations are to come
    have unprepared : wasPrepared (s₀.controls e cs).history = false := wasPrepared_controls e s₀ cs
    have quiet := quiet_of_soundAt (e := e) sound own ownMic
    rw [unprepared, Bool.or_false, Bool.or_false] at quiet
    exact quiet
  · obtain ⟨sound, -, -⟩ := heard_reached sound₀ heard₀ hr.reached
    refine ⟨?_, quiet_of_soundAt sound⟩
    -- the first tick has set the phase, so the preparations are behind it
    rintro rfl known
    exact (sound.resolve_left fun fresh => known fresh.1).prepared

/-- The test pattern is handed over ready and with its sound on. A pause before the first tick
leaves it on, and one after the first tick turns it off. -/
theorem early_pause_ready :
    let e := TestPattern.engine
    let s₀ := Scheduler.start e { ready := true } (.ofString "/w") {} "main" sampleFiles 0
    let s₁ := s₀.controls e [.load sampleRom, .pause true]
    let s₂ := (s₁.tick e {} 1).2
    s₁.engine = { ready := true } ∧ calls s₁.history = [] ∧ s₁.shared.paused = true ∧
      s₂.engine.audioMuted = false ∧ wasPrepared s₂.history = true ∧
      quietAfter false (mutings (s₂.control e (.pause true)).history) = true ∧
      quietAfter false (micMutings (s₂.control e (.pause true)).history) = true := by
  intro e s₀ s₁ s₂
  obtain ⟨early, later⟩ := early_pause e { ready := true } (.ofString "/w") {} "main" sampleFiles 0
  obtain ⟨untouched, uncalled, -⟩ := early [.load sampleRom, .pause true]
  have asked : Run e s₀ .between s₁ := (Run.start.control (.load sampleRom)).control (.pause true)
  have ticked : Run e s₀ .between s₂ := asked.done {} 1 (.stepped 1) (by decide +kernel)
  obtain ⟨prepared, quiet⟩ := later .between s₂ ticked
  have known : wasPrepared s₂.history = true := prepared rfl (by decide +kernel)
  obtain ⟨audio, mic⟩ := quiet false false
  rw [known] at audio mic
  exact ⟨untouched, uncalled, rfl, by decide +kernel, known, audio, mic⟩

/-- **A pause that returns does not mute every engine**: one that was handed over ready and with its
sound on goes on with it. -/
theorem pause_leaves_sound :
    let e := TestPattern.engine
    let s := (Scheduler.start e { ready := true } (.ofString "/w") {} "main" .empty 0).control e
      (.pause true)
    e.isReady s.engine = true ∧ s.shared.paused = true ∧ s.shared.audio.muted = true ∧
      calls s.history = [] ∧ s.engine.audioMuted = false ∧ s.engine.micMuted = false := by
  decide

end EmuScheduler
