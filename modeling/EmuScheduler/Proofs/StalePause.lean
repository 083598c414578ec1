import EmuScheduler.Proofs.LateChanges

/-!
# A pause that is shown although it is over

A loop that parks reads the pause flag, makes known whether it idles or pauses, and then sleeps
unless there is work. These are three steps, and controllers can pause and resume between them. To
resume gives the loop work only if there is a ROM to run. Without one the check that precedes sleep
does not look at the flag, and the notification finds nobody asleep, so the loop goes to sleep as
one that pauses.

`pause_shown_after_resume` says that this is all. Where a loop sleeps with the flag clear, no
notification owed and a pause shown, there is no ROM, and the flag was cleared by a controller since
the loop read it; and from every point between that and the check, without a ROM, a resume leads
there.

The proof goes back to where the flag was read. What the loop has read (`World.read?`) is what it is
about to make known, or has made known and not yet left; `read_reachable` finds the world in which
it read it, and what happened since (`Since`).
-/

namespace EmuScheduler

open Scheduler World

variable {ι σ : Type} {e : Engine σ} {s s₁ s' : Scheduler σ} {p p' : Point} {phase : Phase}
  {new newer : List Entry}

/-- Whether a controller has resumed among some entries. -/
def Resumed (new : List Entry) : Prop :=
  ∃ x ∈ new, x.action = .control (.pause false)

/-- What comes of a scheduler while no tick begins: the pause flag stays set unless a controller
resumes. -/
structure Since (s s' : Scheduler σ) (new : List Entry) : Prop where
  history : s'.history = new ++ s.history
  entries : ∀ x ∈ new, x.action ≠ .tick
  paused : s.shared.paused = true → s'.shared.paused = true ∨ Resumed new

namespace Since

/-- Since just now nothing has happened. -/
theorem refl (s : Scheduler σ) : Since s s [] where
  history := rfl
  entries _ hx := absurd hx List.not_mem_nil
  paused := .inl

/-- One stretch after another. -/
theorem trans (h : Since s s₁ new) (h' : Since s₁ s' newer) : Since s s' (newer ++ new) where
  history := by rw [h'.history, h.history, List.append_assoc]
  entries x hx := (List.mem_append.mp hx).elim (h'.entries x) (h.entries x)
  paused hp := by
    obtain still | ⟨x, hx, resumed⟩ := h.paused hp
    · refine (h'.paused still).imp_right ?_
      rintro ⟨x, hx, resumed⟩
      exact ⟨x, List.mem_append_left _ hx, resumed⟩
    · exact .inr ⟨x, List.mem_append_right _ hx, resumed⟩

/-- What controllers do begins no tick. -/
theorem of_beside (h : Beside e s s' new)
    (paused : s.shared.paused = true → s'.shared.paused = true ∨ Resumed new) :
    Since s s' new where
  history := h.history
  entries x hx tick := by
    have own := h.entries x hx
    rw [tick] at own
    exact absurd own Bool.false_ne_true
  paused := paused

/-- The first part of a control, with its entry. -/
theorem call (s : Scheduler σ) (c : Control) :
    ∃ new, Since s ((s.record (.control c)).runParts e (c.parts.take 1)) new := by
  obtain ⟨new, begun⟩ := Beside.parts (e := e) (s.record (.control c)) (c.parts.take 1)
  refine ⟨_, of_beside ((Beside.record s c).trans begun) fun hp => ?_⟩
  -- of the controls only the one that ends a pause can clear the flag
  by_cases hc : c = .pause false
  · exact .inr ⟨⟨.control c, s.view⟩, List.mem_append_right _ List.mem_cons_self,
      congrArg Action.control hc⟩
  · left
    cases c with
    | pause paused =>
      cases paused with
      | true => rfl
      | false => exact absurd rfl hc
    | _ => exact hp

/-- What is left of a control clears no flag. -/
theorem act (s : Scheduler σ) {x : ControlPart} (hx : x = .notify ∨ x = .mute) :
    ∃ new, Since s (s.runPart e x) new := by
  obtain ⟨new, acted⟩ := Beside.part (e := e) s x
  refine ⟨new, of_beside acted fun hp => .inl ?_⟩
  obtain rfl | rfl := hx
  · exact hp
  · change (s.withAudio e Audio.mute).shared.paused = true
    rw [withAudio_shared]
    exact hp

end Since

/-! ### What the loop has read -/

/-- The phase that the loop has chosen by the pause flag: it is about to make it known, or to sleep
in it, or sleeps in it. -/
def Scheduler.read? (s : Scheduler σ) : Point → Option Phase
  | .publishing phase => some phase
  | .sleeping => some s.shared.phase
  | .between => if s.shared.gate.asleep then some s.shared.phase else none
  | _ => none

/-- A part of a tick that may fail does not look at the pause. -/
theorem read?_after {r : Except SchedulerError Unit} (h : s.read? p = none) :
    s.read? (.after r p) = none :=
  Point.after_elim (motive := fun q => s.read? q = none) h fun _ => rfl

/-- Between two ticks nothing was read, unless the loop sleeps. -/
theorem read?_between (awake : s.shared.gate.asleep = false) : s.read? .between = none :=
  if_neg (ne_true_of_eq_false awake)

/-- What the loop has read it has just read, or it has read it before and no tick has begun
since. -/
theorem read_loop (awake : s.shared.gate.asleep = false) (hl : Loop e p s p' s')
    (hp : s'.read? p' = some phase) :
    (p = .parking ∧ phase = parkedPhase s.shared.paused ∧ s' = s) ∨
      s.read? p = some phase ∧ ∃ new, Since s s' new := by
  have unread {q : Point} (h : s'.read? q = none) (hq : s'.read? q = some phase) : False :=
    absurd (h.symm.trans hq) nofun
  by_cases sleeps : p = .sleeping
  · subst sleeps
    cases hl with
    | sleep =>
      -- the check of the gate tells what was made known, if it ends in sleep
      refine .inr ⟨?_, [], rfl, fun _ hx => absurd hx List.not_mem_nil, .inl⟩
      unfold Scheduler.read? at hp
      dsimp only at hp
      split at hp
      · exact hp
      · exact absurd hp nofun
  · have still : s'.shared.gate.asleep = false :=
      (congrArg Gate.asleep (gate_of_loop hl sleeps)).trans awake
    cases hl with
    | park => exact .inl ⟨rfl, (Option.some.inj hp).symm, rfl⟩
    | @publish _ chosen =>
      refine .inr ⟨hp, [⟨.publish s.shared.phase chosen, _⟩], rfl, fun x hx => ?_, .inl⟩
      obtain rfl := List.mem_singleton.mp hx
      exact nofun
    | sleep => exact absurd rfl sleeps
    | halt | present => exact (unread (read?_between still) hp).elim
    | create | purge | setUpEnds | check | apply | choose =>
      exact (unread (read?_after rfl) hp).elim
    | _ => exact (unread rfl hp).elim

section Read

variable [DecidableEq ι] {w w' w₀ : World ι σ}

/-- The same of the steps of a world. -/
theorem read_step (left : Attentive w) (hs : World.Step e w w')
    (hp : w'.scheduler.read? w'.point = some phase) :
    (w.point = .parking ∧ phase = parkedPhase w.scheduler.shared.paused ∧
        w'.scheduler = w.scheduler) ∨
      w.scheduler.read? w.point = some phase ∧ ∃ new, Since w.scheduler w'.scheduler new := by
  -- beside the loop the phase stays, and nobody else falls asleep
  have beside (same : w'.point = w.point) (shown : w'.scheduler.shared.phase =
      w.scheduler.shared.phase) (asleep : w'.asleep = true → w.asleep = true) :
      w.scheduler.read? w.point = some phase := by
    rw [same] at hp
    unfold Scheduler.read? at hp ⊢
    split at hp
    · exact hp
    · exact shown ▸ hp
    · split at hp
      · next hg =>
        have slept : w.scheduler.shared.gate.asleep = true := asleep hg
        rw [if_pos slept]
        exact shown ▸ hp
      · exact absurd hp nofun
    · exact absurd hp nofun
  cases hs with
  | loop awake hl => exact read_loop awake hl hp
  | call i c idle =>
    obtain ⟨new, begun⟩ :=
      Beside.parts (e := e) (w.scheduler.record (.control c)) (c.parts.take 1)
    exact .inr ⟨beside rfl begun.phase asleep_runParts, Since.call w.scheduler c⟩
  | @act i x rest next =>
    obtain ⟨last, -⟩ := left.last next
    obtain ⟨new, acted⟩ := Beside.part (e := e) w.scheduler x
    have slept (asleep : (w.scheduler.runParts e [x]).shared.gate.asleep = true) :
        w.asleep = true := asleep_runParts asleep
    exact .inr ⟨beside rfl acted.phase slept, Since.act w.scheduler last⟩
  | outside files cheats =>
    exact .inr ⟨beside rfl rfl id, [], rfl, fun _ hx => absurd hx List.not_mem_nil, .inl⟩

/-- **Where the loop has read the flag**, and what has happened since. -/
theorem read_reachable (hr : Reachable e w₀ w) (left : Attentive w₀)
    (unread : w₀.scheduler.read? w₀.point = none)
    (hp : w.scheduler.read? w.point = some phase) :
    ∃ w₁ new, Reachable e w₀ w₁ ∧ Reachable e w₁ w ∧ w₁.point = .parking ∧
      phase = parkedPhase w₁.scheduler.shared.paused ∧ Since w₁.scheduler w.scheduler new := by
  induction hr with
  | start => exact absurd (unread.symm.trans hp) nofun
  | @step v w hr hs ih =>
    obtain ⟨here, rfl, same⟩ | ⟨before, newer, since⟩ :=
      read_step (attentive_reachable left hr) hs hp
    · exact ⟨v, [], hr, .step .start hs, here, rfl, same ▸ .refl _⟩
    · obtain ⟨w₁, new, hr₁, later, here, chosen, earlier⟩ := ih before
      exact ⟨w₁, newer ++ new, hr₁, later.step hs, here, chosen, earlier.trans since⟩

/-! ### A resume between the reading and the check -/

/-- A controller resumes after the flag was read, without a ROM, and the loop goes to sleep. -/
theorem resume_slept_over (hr : Reachable e w₀ w) (awake : w.asleep = false)
    (hp : w.scheduler.read? w.point = some .paused) (unloaded : w.scheduler.romLoaded = false)
    (going : w.scheduler.shared.stopping = false)
    (empty : w.scheduler.shared.requests.rom.isPending = false) {i : ι} (idle : w.todo i = []) :
    ∃ w', Reachable e w₀ w' ∧ w'.asleep = true ∧ w'.todo = w.todo ∧
      w'.scheduler.shared.paused = false ∧ w'.scheduler.shared.phase = .paused := by
  obtain ⟨p, s, todo⟩ := w
  have resumed := control_reachable hr idle (.pause false)
  have rests : (s.shared.stopping || s.shared.requests.rom.isPending ||
      (s.romLoaded && !false)) = false := by
    rw [show s.shared.stopping = false from going, show s.romLoaded = false from unloaded,
      show s.shared.requests.rom.isPending = false from empty]
    rfl
  cases p with
  | publishing phase =>
    -- the phase is made known although the flag is clear
    obtain rfl := Option.some.inj hp
    have slept := (resumed.step (.loop rfl .publish)).step (.loop rfl .sleep)
    exact ⟨_, slept, (Bool.not_eq_true' _).mpr rests, rfl, rfl, rfl⟩
  | sleeping =>
    have slept := resumed.step (.loop rfl .sleep)
    exact ⟨_, slept, (Bool.not_eq_true' _).mpr rests, rfl, rfl, Option.some.inj hp⟩
  | between => exact absurd ((read?_between awake).symm.trans hp) nofun
  | _ => exact absurd hp nofun

/-- **When a pause is shown that is over.** However the steps of the loop and of any number of
controllers come: where a loop sleeps, no notification is owed and the flag is clear, a pause is
shown only if there is no ROM and a controller resumed after the loop had read the flag for this
sleep. And wherever the loop has read a pause, is awake, and has nothing to load or to run, any
controller that is idle can resume, and the loop sleeps as one that pauses. -/
theorem pause_shown_after_resume {engine : σ} {workingDirectory : Path} {modes : Modes}
    {sink : Sink} {files : FileTree} {now : Nat}
    (hr : Reachable e (.start (.start e engine workingDirectory modes sink files now)) w) :
    (w.asleep = true → (∀ i, w.todo i ≠ [.notify]) → w.scheduler.shared.paused = false →
      w.scheduler.shared.phase = .paused →
        w.scheduler.romLoaded = false ∧
          ∃ w₁ new,
            Reachable e (.start (.start e engine workingDirectory modes sink files now)) w₁ ∧
            Reachable e w₁ w ∧ w₁.point = .parking ∧ w₁.scheduler.shared.paused = true ∧
            w.scheduler.history = new ++ w₁.scheduler.history ∧
            (∀ x ∈ new, x.action ≠ .tick) ∧ Resumed new) ∧
      (w.asleep = false → w.scheduler.read? w.point = some .paused →
        w.scheduler.romLoaded = false → w.scheduler.shared.stopping = false →
        w.scheduler.shared.requests.rom.isPending = false → ∀ i, w.todo i = [] →
          ∃ w', Reachable e w w' ∧ w'.asleep = true ∧ w'.todo = w.todo ∧
            w'.scheduler.shared.paused = false ∧ w'.scheduler.shared.phase = .paused) := by
  refine ⟨fun asleep notified clear shown => ⟨?_, ?_⟩,
    fun awake read unloaded going empty i idle =>
      resume_slept_over .start awake read unloaded going empty idle⟩
  · -- with a ROM a clear flag would be work
    have idle : w.scheduler.hasWork = false :=
      (attentive_reachable (attentive_start rfl) hr).idle asleep notified
    unfold Scheduler.hasWork Shared.hasWork at idle
    rw [clear, Bool.not_false, Bool.and_true, Bool.or_eq_false_iff] at idle
    exact idle.2
  · have read : w.scheduler.read? w.point = some .paused := by
      rw [between_of_asleep hr rfl asleep]
      change (if w.asleep = true then some w.scheduler.shared.phase else none) = _
      rw [if_pos asleep, shown]
    obtain ⟨w₁, new, hr₁, later, here, chosen, since⟩ :=
      read_reachable hr (attentive_start rfl) rfl read
    have set : w₁.scheduler.shared.paused = true := by
      by_contra unset
      rw [eq_false_of_ne_true unset] at chosen
      exact absurd chosen nofun
    obtain still | resumed := since.paused set
    · exact absurd (clear.symm.trans still) Bool.false_ne_true
    · exact ⟨w₁, new, hr₁, later, here, set, since.history, since.entries, resumed⟩

end Read

/-- The first tick, without a ROM, makes a pause known that came during it. -/
theorem sample_paused :
    ∃ s, Reachable TestPattern.engine (.start sample)
        (⟨.sleeping, s, fun _ => []⟩ : World Bool TestPattern) ∧
      s.shared.gate.asleep = false ∧ s.shared.phase = .paused ∧ s.romLoaded = false ∧
      s.shared.stopping = false ∧ s.shared.requests.rom.isPending = false := by
  let e := TestPattern.engine
  obtain ⟨s, chosen, awake, unloaded, going, empty⟩ : ∃ s,
      Reachable e (.start sample) (⟨.choosing, s, fun _ => []⟩ : World Bool TestPattern) ∧
        s.shared.gate.asleep = false ∧ s.romLoaded = false ∧ s.shared.stopping = false ∧
        s.shared.requests.rom.isPending = false := by
    have begun : Reachable e (.start sample) (.start sample : World Bool TestPattern) := .start
    obtain ⟨chosen, awake⟩ := choice_reachable begun rfl rfl (i := true) rfl rfl 0
      (by decide +kernel) (by decide +kernel)
    exact ⟨_, chosen, awake, by decide +kernel, by decide +kernel, by decide +kernel⟩
  -- the flag is set before the loop reads it, so the phase that it publishes is the paused one
  have paused := control_reachable chosen (i := true) rfl (.pause true)
  have same : (s.control e (.pause true)).shared = _ := control_shared ..
  have unloaded' : (s.control e (.pause true)).romLoaded = false :=
    (control_romLoaded ..).trans unloaded
  have awake' : (s.control e (.pause true)).shared.gate.asleep = false := awake_control awake _
  have parking := paused.step (.loop awake' (.rest (by rw [unloaded']; rfl)))
  have read := parking.step (.loop awake' .park)
  have published := read.step (.loop awake' .publish)
  refine ⟨_, published, awake', ?_, unloaded', ?_, ?_⟩
  · change parkedPhase (s.control e (.pause true)).shared.paused = .paused
    rw [same]
    rfl
  · change (s.control e (.pause true)).shared.stopping = false
    rw [same]
    exact going
  · change (s.control e (.pause true)).shared.requests.rom.isPending = false
    rw [same]
    exact empty

/-- **A pause can be shown after it is over.** The loop sleeps, no controller is in the middle of
anything, the flag is clear, and the phase that is known is that of a pause. -/
theorem resumed_yet_paused :
    ∃ w : World Bool TestPattern,
      Reachable TestPattern.engine (.start sample) w ∧ w.asleep = true ∧ (∀ i, w.todo i = []) ∧
        w.scheduler.shared.paused = false ∧ w.scheduler.shared.phase = .paused := by
  obtain ⟨s, sleeping, awake, shown, unloaded, going, empty⟩ := sample_paused
  obtain ⟨w, slept, asleep, idle, clear, phase⟩ := resume_slept_over sleeping awake
    (congrArg some shown) unloaded going empty (i := true) rfl
  exact ⟨w, slept, asleep, fun i => congrFun idle i, clear, phase⟩

/-- Where that happens the resume came after the reading of the flag. -/
theorem pause_shown_after_resume_once :
    ∃ w w₁ : World Bool TestPattern,
      Reachable TestPattern.engine (.start sample) w ∧ w.asleep = true ∧
        w.scheduler.shared.phase = .paused ∧ w.scheduler.romLoaded = false ∧
        Reachable TestPattern.engine w₁ w ∧ w₁.point = .parking ∧
        w₁.scheduler.shared.paused = true ∧ Resumed w.scheduler.history := by
  obtain ⟨s, sleeping, awake, shown, unloaded, going, empty⟩ := sample_paused
  obtain ⟨w, slept, asleep, idle, clear, phase⟩ := resume_slept_over sleeping awake
    (congrArg some shown) unloaded going empty (i := true) rfl
  have notified (i : Bool) : w.todo i ≠ [.notify] := by
    rw [idle]
    exact nofun
  obtain ⟨unloaded, w₁, new, -, later, here, set, history, -, x, hx, resumed⟩ :=
    (pause_shown_after_resume slept).1 asleep notified clear phase
  refine ⟨w, w₁, slept, asleep, phase, unloaded, later, here, set, x, ?_, resumed⟩
  rw [history]
  exact List.mem_append_left _ hx

end EmuScheduler
