import EmuScheduler.Scheduler.Run

/-!
# What the operations of a scheduler do

Proofs about runs look at a scheduler through three things: its history, what is shared, and
whether a ROM is open. This file says, once for each operation, what becomes of them.

* `control_shared` and `control_history` are the normal form of a control. `Shared.control` is what
  it makes of what is shared, `Shared.toldBy` the mute state that the engine is told on its account
  (only a pause that finds sound on tells any), and `toldEntries` what that adds to the history.
* `withAudio_shared` and `withAudio_history` are the same for a section of the audio lock.
* `createTree_cases`, `purgeImages_cases`, `closeRom_cases` and `applyMode_cases` list all that an
  operation with branches can have done.

What is left alone (`control_romLoaded`, `Shared.control_phase`, ...) are simp lemmas.
-/

namespace EmuScheduler

/-- Whoever parks is past the beginning. -/
theorem parkedPhase_known (paused : Bool) : parkedPhase paused ≠ .uninitialized := by
  unfold parkedPhase
  split <;> exact nofun

namespace Shared

/-- What a control makes of what is shared. -/
def control (h : Shared) : Control → Shared
  | .load rom => (h.requestLoad rom).notify
  | .change mode => h.requestChange mode
  | .pause true => { h.storePaused true with audio := h.audio.mute.1 }
  | .pause false => (h.storePaused false).notify
  | .shutdown => h.requestStop.notify
  | .wake => h.notify
  | .takeReady => { h with frame := h.frame.takeReady.2 }
  | .bind sink => { h with notifier := h.notifier.bind sink }
  | .attach sink => { h with notifier := h.notifier.attach sink }
  | .close sink => { h with notifier := h.notifier.close sink }
  | .peek => { h with frame := h.frame.peek }
  | .observe => h

/-- The mute state that the engine is told because of a control, if any. -/
def toldBy (h : Shared) : Control → Option Bool
  | .pause true => h.audio.mute.2
  | _ => none

variable (h : Shared) (c : Control)

/-- Only the loop makes phases known. -/
@[simp] theorem control_phase : (h.control c).phase = h.phase := by
  unfold control; split <;> rfl

/-- Which ROM shows is the business of the loop too. -/
@[simp] theorem control_rom? : (h.control c).rom? = h.rom? := by
  unfold control; split <;> rfl

/-- A control can put a mode change into its mailbox and does nothing else to the mode mailboxes. -/
theorem waiting?_control (k : ModeKind) :
    (h.control c).requests.waiting? k =
      match c with
      | .change mode => if k = mode.kind then some mode else h.requests.waiting? k
      | _ => h.requests.waiting? k := by
  unfold control
  split
  · cases k <;> rfl
  · exact Requests.waiting?_change _ _ _
  all_goals rfl

/-- Of the controls three are about who is told. -/
theorem notifier_control :
    (h.control c).notifier =
      match c with
      | .bind sink => h.notifier.bind sink
      | .attach sink => h.notifier.attach sink
      | .close sink => h.notifier.close sink
      | _ => h.notifier := by
  unfold control
  split <;> rfl

/-- No control switches the sound on. -/
theorem muted_control (hm : h.audio.muted = true) : (h.control c).audio.muted = true := by
  unfold control
  split
  case h_3 =>
    -- a pause mutes, which changes nothing here; no other control touches the sound
    unfold Audio.mute
    rw [if_pos hm]
    exact hm
  all_goals exact hm

/-- Where there is no sound a pause has nothing to switch off. -/
theorem toldBy_eq_none (hm : h.audio.muted = true) : h.toldBy c = none := by
  unfold toldBy
  split
  · unfold Audio.mute
    rw [if_pos hm]
  · rfl

end Shared

/-- What is added to a history when the engine is told its mute state, newest first. -/
def toldEntries (v : View) : Option Bool → List Entry
  | none => []
  | some muted => [⟨.call (.order (.muteMic muted)), v⟩, ⟨.call (.order (.muteAudio muted)), v⟩]

/-- What is added are orders about the sound. -/
theorem mem_told {v : View} {t : Option Bool} {x : Entry} (hx : x ∈ toldEntries v t) :
    ∃ muted, x = ⟨.call (.order (.muteMic muted)), v⟩ ∨
      x = ⟨.call (.order (.muteAudio muted)), v⟩ := by
  cases t with
  | none => exact absurd hx List.not_mem_nil
  | some muted =>
    obtain mic | hx := List.mem_cons.mp hx
    · exact ⟨muted, .inl mic⟩
    · exact ⟨muted, .inr (List.mem_singleton.mp hx)⟩

namespace Scheduler

variable {σ : Type} (e : Engine σ) (s : Scheduler σ)

/-! ### Telling the engine its mute state -/

section TellMuted

variable (t : Option Bool)

@[simp] theorem tellMuted_shared : (s.tellMuted e t).shared = s.shared := by
  cases t <;> rfl

@[simp] theorem tellMuted_romLoaded : (s.tellMuted e t).romLoaded = s.romLoaded := by
  cases t <;> rfl

@[simp] theorem tellMuted_workingDirectory :
    (s.tellMuted e t).workingDirectory = s.workingDirectory := by
  cases t <;> rfl

/-- What the engine is told is recorded, the newest first. -/
@[simp] theorem tellMuted_history :
    (s.tellMuted e t).history = toldEntries s.view t ++ s.history := by
  cases t <;> rfl

end TellMuted

section WithAudio

variable (change : Audio → Audio × Option Bool)

/-- Of what is shared a section of the audio lock changes the mute state only. -/
@[simp] theorem withAudio_shared :
    (s.withAudio e change).shared = { s.shared with audio := (change s.shared.audio).1 } :=
  tellMuted_shared ..

@[simp] theorem withAudio_romLoaded : (s.withAudio e change).romLoaded = s.romLoaded :=
  tellMuted_romLoaded ..

/-- The mute state of the new entries is the one that the section comes to. -/
@[simp] theorem withAudio_history :
    (s.withAudio e change).history =
      toldEntries { s.view with muted := (change s.shared.audio).1.muted }
        (change s.shared.audio).2 ++ s.history :=
  tellMuted_history ..

end WithAudio

/-! ### Controls -/

section Control

variable (c : Control)

/-- **The normal form of a control**: it is recorded, changes what is shared, and tells the engine
what is to be told. -/
theorem control_eq :
    s.control e c =
      ((s.record (.control c)).modify (·.control c)).tellMuted e (s.shared.toldBy c) := by
  cases c with
  | pause paused => cases paused <;> rfl
  | _ => rfl

/-- What is shared changes as the control says; what the engine is told is not shared. -/
@[simp] theorem control_shared : (s.control e c).shared = s.shared.control c := by
  rw [control_eq, tellMuted_shared]; rfl

@[simp] theorem control_romLoaded : (s.control e c).romLoaded = s.romLoaded := by
  rw [control_eq, tellMuted_romLoaded]; rfl

@[simp] theorem control_workingDirectory :
    (s.control e c).workingDirectory = s.workingDirectory := by
  rw [control_eq, tellMuted_workingDirectory]; rfl

/-- The control comes first, with what it found, and then what the engine is told on its account. -/
theorem control_history :
    (s.control e c).history =
      toldEntries (s.shared.control c).view (s.shared.toldBy c)
        ++ ⟨.control c, s.view⟩ :: s.history := by
  rw [control_eq, tellMuted_history]; rfl

@[simp] theorem controls_workingDirectory (cs : List Control) :
    (s.controls e cs).workingDirectory = s.workingDirectory := by
  induction cs generalizing s with
  | nil => rfl
  | cons c cs ih => exact (ih _).trans (control_workingDirectory e s c)

@[simp] theorem controls_phase (cs : List Control) :
    (s.controls e cs).shared.phase = s.shared.phase := by
  -- one control after the other
  induction cs generalizing s with
  | nil => rfl
  | cons c cs ih =>
    refine (ih _).trans ?_
    rw [control_shared, Shared.control_phase]

end Control

/-! ### The answers of the engine to a load -/

section Answers

variable (rom : Path) (now : Nat)

/-- When the end of the load is announced, the ROM shows and the pause is over. -/
theorem acceptRom_history :
    (s.acceptRom e rom now).history =
      ⟨.emit (.ended rom) s.shared.notifier.bound s.shared.notifier.listening,
          { s.view with rom? := some rom, paused := false }⟩
        :: ⟨.accept rom, s.view⟩ :: s.history := rfl

/-- A refusal is announced twice: the load has ended, and it has failed. -/
theorem rejectRom_history :
    (s.rejectRom rom).history =
      ⟨.emit (.failed rom) s.shared.notifier.bound (s.shared.notifier.emit (.ended rom)).listening,
          s.view⟩
        :: ⟨.emit (.ended rom) s.shared.notifier.bound s.shared.notifier.listening, s.view⟩
        :: ⟨.reject rom, s.view⟩ :: s.history := rfl

end Answers

/-- A finished frame is made known, and the frames and the rate are counted. -/
theorem present_cases (steps : UInt64) (now : Nat) :
    ∃ rate window, s.present steps now =
      { (s.record (.present steps)).modify fun h =>
          { h with
            frame := h.frame.markReady
            counter := { h.counter.advance steps with rate } } with
        rate := window } := by
  unfold present
  dsimp only
  split
  · exact ⟨_, _, rfl⟩
  · -- the window is not full, and the rate stays what it was
    exact ⟨s.shared.counter.rate, _, rfl⟩

/-! ### The working directory -/

@[simp] theorem order_workingDirectory (o : Order) :
    (s.order e o).workingDirectory = s.workingDirectory := rfl

@[simp] theorem purgeImages_workingDirectory (w : WorkingTree) :
    (s.purgeImages e w).2.workingDirectory = s.workingDirectory := by
  unfold purgeImages
  dsimp only
  split <;> rfl

@[simp] theorem setUpEngine_workingDirectory :
    (s.setUpEngine e).2.workingDirectory = s.workingDirectory := by
  unfold setUpEngine
  split
  · rfl
  · exact controls_workingDirectory ..

/-! ### Operations with branches -/

variable {e s} {s' : Scheduler σ} {r : Except SchedulerError Unit}

/-- To create the working directories is recorded nowhere, and touches the files only. -/
theorem createTree_cases {w : WorkingTree} (h : s.createTree w = (r, s')) :
    ∃ files, s' = { s with files } := by
  cases h
  exact ⟨_, rfl⟩

/-- A purge is recorded if it succeeds; one that fails may have removed something all the same. -/
theorem purgeImages_cases {w : WorkingTree} (h : s.purgeImages e w = (r, s')) :
    ∃ files, s' = { s with files } ∨
      ∃ removed, s' = { s with files }.record (.purge w.temp removed) := by
  unfold purgeImages at h
  dsimp only at h
  split at h <;> cases h
  · exact ⟨_, .inr ⟨_, rfl⟩⟩
  · exact ⟨_, .inl rfl⟩

/-- Where a ROM is open it is closed, and otherwise nothing is done. -/
theorem closeRom_cases (e : Engine σ) (s : Scheduler σ) :
    (s.romLoaded = false ∧ s.closeRom e = s) ∨
      (s.romLoaded = true ∧
        s.closeRom e =
          { s.order e .closeRom with romLoaded := false }.modify fun h =>
            { h with rom? := none }) := by
  unfold closeRom
  split
  · next loaded => exact .inr ⟨loaded, rfl⟩
  · next loaded => exact .inl ⟨by simpa using loaded, rfl⟩

/-- Of what is shared, to close a ROM touches the one that shows and nothing else. -/
theorem closeRom_shared (e : Engine σ) (s : Scheduler σ) :
    ∃ rom?, (s.closeRom e).shared = { s.shared with rom? } := by
  obtain ⟨-, heq⟩ | ⟨-, heq⟩ := closeRom_cases e s
  · exact ⟨s.shared.rom?, congrArg shared heq⟩
  · exact ⟨none, congrArg shared heq⟩

/-- To close a ROM makes no phase known. -/
@[simp] theorem closeRom_phase (e : Engine σ) (s : Scheduler σ) :
    (s.closeRom e).shared.phase = s.shared.phase := by
  obtain ⟨rom?, same⟩ := closeRom_shared e s
  rw [same]

/-- Nor does it wake anybody. -/
@[simp] theorem closeRom_gate (e : Engine σ) (s : Scheduler σ) :
    (s.closeRom e).shared.gate = s.shared.gate := by
  obtain ⟨rom?, same⟩ := closeRom_shared e s
  rw [same]

/-- Of a mode change that waits, the engine is told, or it is not ready and the change is gone. -/
theorem applyMode_cases {k : ModeKind} (h : s.applyMode e k = (r, s')) :
    (s.shared.requests.waiting? k = none ∧ r = .ok () ∧ s' = s) ∨
      ∃ mode, s.shared.requests.waiting? k = some mode ∧
        ((r = .ok () ∧
            s' = (s.modify fun h => { h with requests := (s.shared.requests.takeMode k).2 }).order e
              (.setMode mode)) ∨
          (r = .error (.notInitialized (operation k)) ∧
            s' = s.modify fun h => { h with requests := (s.shared.requests.takeMode k).2 })) := by
  unfold applyMode at h
  split at h
  · next rest hw =>
    cases h
    exact .inl ⟨congrArg Prod.fst hw, rfl, rfl⟩
  · next mode rest hw =>
    -- the change has left its mailbox, whatever becomes of it
    refine .inr ⟨mode, congrArg Prod.fst hw, ?_⟩
    obtain rfl : (s.shared.requests.takeMode k).2 = rest := congrArg Prod.snd hw
    unfold requireReady followedBy at h
    dsimp only at h
    split at h
    · next u hu =>
      cases h
      exact .inl ⟨rfl, rfl⟩
    · next error hu =>
      cases h
      refine .inr ⟨?_, rfl⟩
      -- an engine that is ready would have been told
      split at hu
      · exact absurd hu (by simp)
      · cases hu; rfl

end Scheduler
end EmuScheduler
