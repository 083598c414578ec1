import EmuScheduler.Proofs.Interleaving

/-!
# No notification is lost

The loop sleeps without a timeout, so a request that it does not notice is never served. Controllers
store first and notify afterwards; the loop checks for work and falls asleep in one section of the
gate. `no_lost_wakeup` says that this is enough, in every order of everybody's steps: a loop that
sleeps while no controller is between its store and its notification has nothing to do.

The invariant (`Attentive`) is that work which a sleeping loop has not seen is owed a notification:
some controller is in the middle of a control of which only the notification is left. It holds
because each part that can give the loop work (`ControlPart.givesWork`) is the first of its control
and followed by a notification (`parts_cases`), and because the loop itself never goes to sleep
over work (`no_work_of_asleep`).
-/

namespace EmuScheduler

open Scheduler World

variable {ι σ : Type} {e : Engine σ}

/-- Whether the loop of a scheduler must not sleep. -/
def Scheduler.hasWork (s : Scheduler σ) : Bool :=
  s.shared.hasWork s.romLoaded

/-- Whether a part can give the loop work. -/
def ControlPart.givesWork : ControlPart → Bool
  | .putRom _ | .storePaused false | .storeStop => true
  | _ => false

/-- A part that can give the loop work is followed by a notification, and only a notification
or a muting follows any. -/
theorem parts_cases {c : Control} {x : ControlPart} {rest : List ControlPart}
    (hc : c.parts = x :: rest) :
    rest = [.notify] ∨ x.givesWork = false ∧ (rest = [] ∨ rest = [.mute]) := by
  cases c with
  | pause paused =>
    cases paused with
    | true =>
      -- a pause gives the loop nothing to do and notifies nobody
      cases hc
      exact .inr ⟨rfl, .inr rfl⟩
    | false =>
      cases hc
      exact .inl rfl
  | load | shutdown =>
    cases hc
    exact .inl rfl
  | observe => exact absurd hc (by simp [Control.parts])
  | _ =>
    cases hc
    exact .inr ⟨rfl, .inl rfl⟩

section Parts

variable {s : Scheduler σ} {x : ControlPart}

/-- A part that is no notification leaves the loop asleep or awake as it is. -/
theorem gate_runPart (hx : x ≠ .notify) :
    (s.runPart e x).shared.gate = s.shared.gate := by
  cases x with
  | notify => exact absurd rfl hx
  | mute =>
    change (s.withAudio e Audio.mute).shared.gate = _
    rw [withAudio_shared]
  | _ => rfl

/-- A part that gives no work finds what there was. -/
theorem hasWork_runPart (hx : x.givesWork = false) (hw : (s.runPart e x).hasWork = true) :
    s.hasWork = true := by
  cases x with
  | putRom | storeStop => exact absurd hx.symm Bool.false_ne_true
  | storePaused paused =>
    cases paused with
    | false => exact absurd hx.symm Bool.false_ne_true
    | true =>
      -- a pause can only take work away
      have less : (s.shared.stopping || s.shared.requests.rom.isPending ||
          (s.romLoaded && !true)) = true := hw
      rw [Bool.not_true, Bool.and_false, Bool.or_false] at less
      unfold Scheduler.hasWork Shared.hasWork
      rw [less, Bool.true_or]
  | putMode mode =>
    have same : (s.shared.stopping || (s.shared.requests.change mode).rom.isPending ||
        (s.romLoaded && !s.shared.paused)) = true := hw
    rw [Requests.rom_change] at same
    exact same
  | mute =>
    change (s.withAudio e Audio.mute).hasWork = true at hw
    unfold Scheduler.hasWork at hw
    rw [withAudio_shared, withAudio_romLoaded] at hw
    exact hw
  | _ => exact hw

end Parts

/-! ### The loop -/

/-- Only the last step of a tick that parks touches the gate. -/
theorem gate_of_loop {p p' : Point} {s s' : Scheduler σ} (hl : Loop e p s p' s')
    (hp : p ≠ .sleeping) : s'.shared.gate = s.shared.gate := by
  cases hl with
  | sleep => exact absurd rfl hp
  | create hc =>
    obtain ⟨files, rfl⟩ := createTree_cases hc
    rfl
  | purge hc => obtain ⟨files, rfl | ⟨removed, rfl⟩⟩ := purgeImages_cases hc <;> rfl
  | engage =>
    change (s.withAudio e Audio.engage).shared.gate = _
    rw [withAudio_shared]
  -- the gate is for controllers; the loop only sleeps at it
  | close => exact closeRom_gate e s
  | apply ha =>
    obtain ⟨-, rfl, rfl⟩ | ⟨mode, -, ⟨rfl, rfl⟩ | ⟨rfl, rfl⟩⟩ := applyMode_cases ha <;> rfl
  | unmute => rw [withAudio_shared]
  | @present _ n now =>
    obtain ⟨rate, window, heq⟩ := present_cases (s := s) n now
    rw [heq]
    rfl
  | empty => exact closeRom_gate e s
  | _ => rfl

/-- The loop does not go to sleep over work. -/
theorem no_work_of_asleep {p p' : Point} {s s' : Scheduler σ} (hl : Loop e p s p' s')
    (awake : s.shared.gate.asleep = false) (asleep : s'.shared.gate.asleep = true) :
    s'.hasWork = false := by
  by_cases hp : p = .sleeping
  · subst hp
    -- the check and the sleep are one step, so what was checked still holds
    cases hl with
    | sleep =>
      change (!s.shared.hasWork s.romLoaded) = true at asleep
      exact (Bool.not_eq_true' _).mp asleep
  · rw [gate_of_loop hl hp, awake] at asleep
    exact absurd asleep Bool.false_ne_true

/-! ### The invariant -/

/-- Work that a sleeping loop has not seen is owed a notification. -/
structure Attentive (w : World ι σ) : Prop where
  /-- In the middle of a control, what is left is a notification or a muting. -/
  left : ∀ i, w.todo i = [] ∨ w.todo i = [.notify] ∨ w.todo i = [.mute]
  owed : w.asleep = true → w.scheduler.hasWork = true → ∃ i, w.todo i = [.notify]

variable {w w' : World ι σ}

/-- In the middle of a control one part is left. -/
theorem Attentive.last (ha : Attentive w) {i : ι} {x : ControlPart} {rest : List ControlPart}
    (next : w.todo i = x :: rest) : (x = .notify ∨ x = .mute) ∧ rest = [] := by
  obtain none | notify | mute := ha.left i
  · exact absurd (next.symm.trans none) (List.cons_ne_nil _ _)
  · obtain ⟨rfl, rfl⟩ := List.cons.inj (next.symm.trans notify)
    exact ⟨.inl rfl, rfl⟩
  · obtain ⟨rfl, rfl⟩ := List.cons.inj (next.symm.trans mute)
    exact ⟨.inr rfl, rfl⟩

/-- A loop sleeps over work only while a notification is owed. -/
theorem Attentive.idle (ha : Attentive w) (asleep : w.asleep = true)
    (notified : ∀ i, w.todo i ≠ [.notify]) : w.scheduler.hasWork = false := by
  rw [← Bool.not_eq_true]
  intro work
  obtain ⟨i, hi⟩ := ha.owed asleep work
  exact notified i hi

/-- A loop that is awake owes nothing. -/
theorem attentive_start {s : Scheduler σ} (awake : s.shared.gate.asleep = false) :
    Attentive (.start s : World ι σ) where
  left _ := .inl rfl
  owed asleep := absurd (awake.symm.trans asleep) Bool.false_ne_true

/-- Only the controllers, the gate and the work matter. -/
theorem Attentive.congr (ha : Attentive w) (ht : w'.todo = w.todo)
    (hg : w'.scheduler.shared.gate = w.scheduler.shared.gate)
    (hw : w'.scheduler.hasWork = w.scheduler.hasWork) : Attentive w' where
  left i := by
    rw [ht]
    exact ha.left i
  owed asleep work := by
    unfold World.asleep at asleep
    rw [hg] at asleep
    rw [hw] at work
    rw [ht]
    exact ha.owed asleep work

variable [DecidableEq ι]

/-- A controller carries out a part and is left with the rest. -/
theorem Attentive.part (ha : Attentive w) {s : Scheduler σ} {i : ι} {x : ControlPart}
    {rest : List ControlPart} (hg : s.shared.gate = w.scheduler.shared.gate)
    (hw : s.hasWork = w.scheduler.hasWork)
    (hr : rest = [.notify] ∨ x.givesWork = false ∧ (rest = [] ∨ rest = [.mute]))
    (hi : x ≠ .notify → w.todo i ≠ [.notify]) :
    Attentive { w with scheduler := s.runPart e x, todo := Function.update w.todo i rest } := by
  refine ⟨fun j => ?_, fun asleep work => ?_⟩
  · dsimp only
    by_cases hj : j = i
    · subst hj
      rw [Function.update_self]
      obtain notify | ⟨-, none | mute⟩ := hr
      · right; left
        exact notify
      · left
        exact none
      · right; right
        exact mute
    · rw [Function.update_of_ne hj]
      exact ha.left j
  · by_cases hx : x = .notify
    · -- the notification has just ended the sleep
      subst hx
      exact absurd asleep Bool.false_ne_true
    · obtain notify | ⟨idle, -⟩ := hr
      · exact ⟨i, (Function.update_self ..).trans notify⟩
      · have before : w.asleep = true := by
          change (s.runPart e x).shared.gate.asleep = true at asleep
          rw [gate_runPart hx, hg] at asleep
          exact asleep
        obtain ⟨j, hj⟩ := ha.owed before (hw ▸ hasWork_runPart idle work)
        have other : j ≠ i := by
          rintro rfl
          exact hi hx hj
        exact ⟨j, (Function.update_of_ne other ..).trans hj⟩

/-- **The invariant is kept by every step.** -/
theorem attentive_step (ha : Attentive w) (hs : World.Step e w w') : Attentive w' := by
  cases hs with
  | loop awake hl =>
    -- the loop moves only while it is awake, and looks for work when it goes to sleep
    refine ⟨ha.left, fun asleep work => ?_⟩
    rw [no_work_of_asleep hl awake asleep] at work
    exact absurd work Bool.false_ne_true
  | call i c idle =>
    cases hc : c.parts with
    | nil =>
      -- a control that only looks
      have same : Function.update w.todo i [] = w.todo := by
        rw [← idle, Function.update_eq_self]
      exact ha.congr same rfl rfl
    | cons x rest =>
      refine ha.part rfl rfl (parts_cases hc) fun _ => ?_
      rw [idle]
      exact (List.cons_ne_nil _ _).symm
  | @act i x rest next =>
    -- what is left of a control is one part, and neither of the two gives the loop work
    obtain ⟨rfl | rfl, rfl⟩ := ha.last next
    · exact ha.part rfl rfl (.inr ⟨rfl, .inl rfl⟩) fun hx => absurd rfl hx
    · refine ha.part rfl rfl (.inr ⟨rfl, .inl rfl⟩) fun _ => ?_
      rw [next]
      simp
  | outside files cheats => exact ha.congr rfl rfl rfl

/-- Whoever has to notify or to mute has nothing else to do, in every world that is reached. -/
theorem attentive_reachable {w₀ : World ι σ} (ha : Attentive w₀) (hr : Reachable e w₀ w) :
    Attentive w := by
  induction hr with
  | start => exact ha
  | step _ hs ih => exact attentive_step ih hs

/-- **No wakeup is lost.** However the steps of the loop and of any number of controllers come, a
loop that sleeps while no controller is between a store and its notification was not told to stop,
has no ROM to load, and none to run that is not paused. -/
theorem no_lost_wakeup {engine : σ} {workingDirectory : Path} {modes : Modes} {sink : Sink}
    {files : FileTree} {now : Nat}
    (hr : Reachable e (.start (.start e engine workingDirectory modes sink files now)) w)
    (asleep : w.asleep = true) (notified : ∀ i, w.todo i ≠ [.notify]) :
    w.scheduler.shared.stopping = false ∧
      w.scheduler.shared.requests.rom.isPending = false ∧
      ¬(w.scheduler.romLoaded = true ∧ w.scheduler.shared.paused = false) := by
  have idle : w.scheduler.hasWork = false :=
    (attentive_reachable (attentive_start rfl) hr).idle asleep notified
  unfold Scheduler.hasWork Shared.hasWork at idle
  rw [Bool.or_eq_false_iff, Bool.or_eq_false_iff] at idle
  obtain ⟨⟨going, empty⟩, paused⟩ := idle
  refine ⟨going, empty, fun ⟨loaded, resumed⟩ => ?_⟩
  rw [loaded, resumed] at paused
  exact absurd paused (by decide)

/-- A controller is between its pause and the muting when the loop goes to sleep, for the first
time; another controller does nothing. -/
theorem no_lost_wakeup_paused :
    ∃ w : World Bool TestPattern,
      Reachable TestPattern.engine (.start sample) w ∧ w.asleep = true ∧
        w.todo true = [.mute] ∧ w.scheduler.shared.paused = true ∧
        w.scheduler.shared.stopping = false ∧
        w.scheduler.shared.requests.rom.isPending = false := by
  have r : Reachable TestPattern.engine (.start sample) (.start sample : World Bool TestPattern) :=
    .start
  have r := r.step (.loop rfl (.first rfl rfl))
  have r := r.step (.loop rfl (.create rfl))
  have r := r.step (.loop rfl (.purge rfl))
  have r := r.step (.loop rfl .direct)
  have r := r.step (.loop rfl (.setUp rfl))
  have r := r.step (.loop rfl .setUpEnds)
  have r := r.step (.loop rfl .check)
  have r := r.step (.loop rfl .engage)
  have r := r.step (.loop rfl (.noLoad rfl))
  have r := r.step (.loop rfl .configure)
  have r := r.step (.loop rfl (.apply rfl))
  have r := r.step (.loop rfl (.apply rfl))
  have r := r.step (.loop rfl (.apply rfl))
  have r := r.step (.loop rfl (.apply rfl))
  -- the pause is requested behind the modes, so the loop reads it before it parks
  have r := r.step (.call true (.pause true) rfl)
  have r := r.step (.loop rfl .configured)
  have r := r.step (.loop rfl (.rest rfl))
  have r := r.step (.loop rfl .park)
  have r := r.step (.loop rfl .publish)
  have r := r.step (.loop rfl .sleep)
  obtain ⟨going, empty, -⟩ := no_lost_wakeup r rfl (by decide)
  exact ⟨_, r, rfl, rfl, rfl, going, empty⟩

end EmuScheduler
