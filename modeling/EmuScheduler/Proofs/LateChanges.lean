import EmuScheduler.Proofs.Phases

/-!
# Changes that come late

A controller that wants a mode change applied at once leaves the change and wakes the loop. The loop
empties the mailboxes of the modes one after the other, and some steps later it goes to sleep unless
there is work; a change that waits is no work. `late_changes_wait` says what comes of a wakeup in
every order of everybody's steps:

* a loop that sleeps is between two ticks, so a wakeup that ends a sleep has all mailboxes before
  it;
* at every point where the loop is not past the mailbox of a kind (`Point.Past`), what waits of that
  kind is applied before the loop sleeps again: what it sleeps over was requested later;
* a change and a wakeup that come between the mailbox of their kind and the check that precedes
  sleep are slept over. The notification finds nobody asleep, and the check does not see the change.

The invariant (`Renewed`) speaks of a later world: what waits there of a kind, with the loop past it
or asleep, was requested since. A step of the loop passes a mailbox only by emptying it
(`past_of_loop`).
-/

namespace EmuScheduler

open Scheduler World

variable {ι σ : Type} {e : Engine σ} {s s' : Scheduler σ} {p p' : Point} {k : ModeKind}

/-- Whether the loop has emptied the mailbox of a kind and not come to the next tick yet. -/
def Point.Past (k : ModeKind) : Point → Prop
  | .applying ks => k ∉ ks
  | .choosing | .parking | .publishing _ | .sleeping => True
  | _ => False

/-- Where a tick has failed, the loop is past nothing. -/
theorem Point.Past.of_after {r : Except SchedulerError Unit} (h : (Point.after r p).Past k) :
    p.Past k :=
  Point.after_elim (motive := fun q => q.Past k → p.Past k) id (fun _ h => h.elim) h

section Loop

/-- The loop forgets nothing of what happened. -/
theorem suffix_of_loop (hl : Loop e p s p' s') : s.history <:+ s'.history := by
  -- the points that have to do with sound may tell the engine something; the others add what they
  -- add
  by_cases hp : p.Sounding
  · cases hl with
    | engage =>
      change s.history <:+ _ :: _ :: (s.withAudio e Audio.engage).history
      rw [withAudio_history]
      exact (List.suffix_append _ _).trans ((List.suffix_cons _ _).trans (List.suffix_cons _ _))
    | unmute =>
      rw [withAudio_history]
      exact List.suffix_append _ _
    | step => exact List.suffix_cons _ _
    | abandon => exact List.suffix_refl _
    | _ => exact hp.elim
  · obtain ⟨new, aside⟩ := aside_of_loop hl hp
    exact ⟨new, aside.history.symm⟩

/-- The loop puts nothing into a mailbox. -/
theorem waiting_of_loop {m : ModeChange} (hl : Loop e p s p' s')
    (hw : s'.shared.requests.waiting? k = some m) : s.shared.requests.waiting? k = some m := by
  cases hl with
  | create hc =>
    obtain ⟨files, rfl⟩ := createTree_cases hc
    exact hw
  | purge hc => obtain ⟨files, rfl | ⟨removed, rfl⟩⟩ := purgeImages_cases hc <;> exact hw
  | engage =>
    change (s.withAudio e Audio.engage).shared.requests.waiting? k = some m at hw
    rw [withAudio_shared] at hw
    exact hw
  | takeLoad => cases k <;> exact hw
  | close | empty =>
    obtain ⟨rom?, same⟩ := closeRom_shared e s
    rw [same] at hw
    exact hw
  | @apply _ _ j _ _ ha =>
    -- a mailbox that is emptied holds nothing afterwards, and the others stay
    have other (ht : (s.shared.requests.takeMode j).2.waiting? k = some m) :
        s.shared.requests.waiting? k = some m := by
      rw [Requests.waiting?_takeMode] at ht
      split at ht
      · exact absurd ht nofun
      · exact ht
    obtain ⟨-, rfl, rfl⟩ | ⟨mode, -, ⟨rfl, rfl⟩ | ⟨rfl, rfl⟩⟩ := applyMode_cases ha
    · exact hw
    · exact other hw
    · exact other hw
  | unmute =>
    rw [withAudio_shared] at hw
    exact hw
  | @present _ n now =>
    obtain ⟨rate, window, heq⟩ := present_cases (s := s) n now
    rw [heq] at hw
    exact hw
  | _ => exact hw

/-- **The loop passes a mailbox only by emptying it.** -/
theorem past_of_loop (hl : Loop e p s p' s') (hp : p'.Past k) :
    p.Past k ∨ s'.shared.requests.waiting? k = none := by
  cases hl with
  | configure =>
    -- all kinds are still to be looked at
    exact absurd (by cases k <;> decide) hp
  | @apply _ _ j ks r ha =>
    by_cases hj : k = j
    · subst hj
      right
      obtain ⟨hw, rfl, rfl⟩ | ⟨mode, -, ⟨rfl, rfl⟩ | ⟨rfl, rfl⟩⟩ := applyMode_cases ha
      · exact hw
      all_goals exact (Requests.waiting?_takeMode _ k k).trans (if_pos rfl)
    · exact .inl (List.not_mem_cons_of_ne_of_not_mem hj hp.of_after)
  | configured =>
    -- none was left, so every mailbox was passed before
    exact .inl List.not_mem_nil
  | create | purge | setUpEnds | check => exact hp.of_after.elim
  | choose | rest | park | publish | sleep => exact .inl trivial
  | _ => exact hp.elim

end Loop

/-! ### Later worlds -/

section Parts

variable {xs : List ControlPart}

/-- Nothing that a controller does makes the loop sleep. -/
theorem asleep_runParts (asleep : (s.runParts e xs).shared.gate.asleep = true) :
    s.shared.gate.asleep = true := by
  induction xs generalizing s with
  | nil => exact asleep
  | cons x xs ih =>
    have before : (s.runPart e x).shared.gate.asleep = true := ih asleep
    by_cases hx : x = .notify
    · subst hx
      exact absurd before Bool.false_ne_true
    · rw [gate_runPart hx] at before
      exact before

/-- Only the part that leaves a change fills a mailbox of a mode. -/
theorem waiting_runParts (hx : ∀ x ∈ xs, ∀ m, x ≠ .putMode m) :
    (s.runParts e xs).shared.requests.waiting? k = s.shared.requests.waiting? k := by
  induction xs generalizing s with
  | nil => rfl
  | cons x xs ih =>
    refine (ih fun y hy => hx y (List.mem_cons_of_mem x hy)).trans ?_
    cases x with
    | putMode m => exact absurd rfl (hx _ List.mem_cons_self m)
    | putRom rom => cases k <;> rfl
    | mute =>
      change (s.withAudio e Audio.mute).shared.requests.waiting? k = _
      rw [withAudio_shared]
    | _ => rfl

end Parts

variable {w w' w₀ : World ι σ}

section Worlds

variable [DecidableEq ι]

/-- Nor does a step of the world. -/
theorem suffix_step (hs : World.Step e w w') :
    w.scheduler.history <:+ w'.scheduler.history := by
  obtain hl | ⟨-, new, beside⟩ := step_cases hs
  · exact suffix_of_loop hl
  · exact ⟨new, beside.history.symm⟩

/-- The loop falls asleep by a step of its own, which comes from the end of a tick. -/
theorem asleep_step (hs : World.Step e w w') (asleep : w'.asleep = true) :
    (w.asleep = true ∧ w'.point = w.point) ∨ w.point = .sleeping ∧ w'.point = .between := by
  cases hs with
  | loop awake hl =>
    right
    by_cases hp : w.point = .sleeping
    · -- only from there does the loop fall asleep, and it wakes up between two ticks
      refine ⟨hp, ?_⟩
      rw [hp] at hl
      cases hl with
      | sleep => rfl
    · exact absurd ((congrArg Gate.asleep (gate_of_loop hl hp)).trans awake)
        (ne_false_of_eq_true asleep)
  | call i c idle =>
    exact .inl ⟨asleep_runParts (s := w.scheduler.record (.control c)) asleep, rfl⟩
  | @act i x rest next =>
    have acted : (w.scheduler.runParts e [x]).shared.gate.asleep = true := asleep
    exact .inl ⟨asleep_runParts acted, rfl⟩
  | outside files cheats => exact .inl ⟨asleep, rfl⟩

/-- **A loop that sleeps is between two ticks.** -/
theorem between_of_asleep (hr : Reachable e w₀ w) (awake : w₀.asleep = false)
    (asleep : w.asleep = true) : w.point = .between := by
  induction hr with
  | start => exact absurd (awake.symm.trans asleep) Bool.false_ne_true
  | step _ hs ih =>
    obtain ⟨before, same⟩ | ⟨-, here⟩ := asleep_step hs asleep
    · exact same.trans (ih before)
    · exact here

end Worlds

/-! ### What waits was requested late -/

/-- Whether a mode change was requested among some entries. -/
def Asked (m : ModeChange) (new : List Entry) : Prop :=
  ∃ x ∈ new, x.action = .control (.change m)

/-- What holds of a world later than one with the history `h`: what waits of a kind, with the loop
asleep or past it, was requested since. -/
def Renewed (k : ModeKind) (h : List Entry) (w : World ι σ) : Prop :=
  ∃ new, w.scheduler.history = new ++ h ∧ (w.asleep = true ∨ w.point.Past k →
    ∀ m, w.scheduler.shared.requests.waiting? k = some m → Asked m new)

section Renewed

variable {h : List Entry}

/-- What does not fill the mailbox, and passes it only by emptying it. -/
theorem Renewed.keep (hw : Renewed k h w)
    (hh : w.scheduler.history <:+ w'.scheduler.history)
    (late : w'.asleep = true ∨ w'.point.Past k → (w.asleep = true ∨ w.point.Past k) ∨
      w'.scheduler.shared.requests.waiting? k = none)
    (hr : ∀ m, w'.scheduler.shared.requests.waiting? k = some m →
      w.scheduler.shared.requests.waiting? k = some m) : Renewed k h w' := by
  obtain ⟨new, history, since⟩ := hw
  obtain ⟨newer, grown⟩ := hh
  refine ⟨newer ++ new, by rw [← grown, history, List.append_assoc], fun past m hm => ?_⟩
  obtain before | empty := late past
  · obtain ⟨x, hx, asked⟩ := since before m (hr m hm)
    exact ⟨x, List.mem_append_right _ hx, asked⟩
  · exact absurd (empty.symm.trans hm) nofun

variable [DecidableEq ι]

/-- A change that is requested is in its mailbox. -/
theorem Renewed.change (hw : Renewed k h w) (i : ι) (mode : ModeChange) :
    Renewed k h { w with
      scheduler := (w.scheduler.record (.control (.change mode))).modify (·.requestChange mode)
      todo := Function.update w.todo i [] } := by
  obtain ⟨new, history, since⟩ := hw
  refine ⟨⟨.control (.change mode), w.scheduler.view⟩ :: new, congrArg _ history,
    fun past m hm => ?_⟩
  change (w.scheduler.shared.requests.change mode).waiting? k = some m at hm
  rw [Requests.waiting?_change] at hm
  split at hm
  · -- a change that is requested now is requested late
    obtain rfl := Option.some.inj hm
    exact ⟨_, List.mem_cons_self, rfl⟩
  · obtain ⟨x, hx, asked⟩ := since past m hm
    exact ⟨x, List.mem_cons_of_mem _ hx, asked⟩

/-- A change of this kind that waits behind the loop was requested after the loop had passed, and
every step keeps it so. -/
theorem renewed_step (hw : Renewed k h w) (left : Attentive w) (hs : World.Step e w w') :
    Renewed k h w' := by
  have grown := suffix_step hs
  -- a loop falls asleep at a point past every mailbox, so sleep is not new to the invariant
  have slept (asleep : w'.asleep = true) : w.asleep = true ∨ w.point.Past k := by
    obtain ⟨before, -⟩ | ⟨here, -⟩ := asleep_step hs asleep
    · exact .inl before
    · exact .inr (here ▸ trivial)
  cases hs with
  | loop awake hl =>
    refine hw.keep grown (fun late => ?_) fun m hm => waiting_of_loop hl hm
    obtain asleep | past := late
    · exact .inl (slept asleep)
    · exact (past_of_loop hl past).imp_left .inr
  | call i c idle =>
    by_cases hc : ∃ mode, c = .change mode
    · obtain ⟨mode, rfl⟩ := hc
      exact hw.change i mode
    · have others : ∀ x ∈ c.parts.take 1, ∀ m, x ≠ .putMode m := by
        rintro x hx mode rfl
        refine hc ?_
        cases c with
        | change mode' => exact ⟨mode', rfl⟩
        | pause paused => cases paused <;> simp [Control.parts] at hx
        | _ => simp [Control.parts] at hx
      refine hw.keep grown (fun late => .inl (late.elim slept .inr)) fun m hm => ?_
      exact (waiting_runParts (s := w.scheduler.record (.control c)) others).symm.trans hm
  | @act i x rest next =>
    have others : ∀ y ∈ [x], ∀ m, y ≠ .putMode m := by
      rintro y hy mode rfl
      obtain rfl := List.mem_singleton.mp hy
      -- no change is left to be stored in the middle of a control
      exact absurd (left.last next).1 (by simp)
    refine hw.keep grown (fun late => .inl (late.elim slept .inr)) fun m hm => ?_
    exact (waiting_runParts others).symm.trans hm
  | outside files cheats =>
    exact hw.keep grown (fun late => .inl (late.elim slept .inr)) fun _ hm => hm

/-- So it is in every run from a world in which the loop has yet to come there. -/
theorem renewed_reachable (hr : Reachable e w w') (left : Attentive w) (awake : w.asleep = false)
    (early : ¬w.point.Past k) : Renewed k w.scheduler.history w' := by
  -- at the start the loop is awake and not past the mailbox, and nothing is claimed
  induction hr with
  | start =>
    refine ⟨[], rfl, fun late => ?_⟩
    obtain asleep | past := late
    · exact absurd (awake.symm.trans asleep) Bool.false_ne_true
    · exact absurd past early
  | step hr hs ih => exact renewed_step ih (attentive_reachable left hr) hs

end Renewed

/-! ### What is slept over -/

/-- A change and a wakeup come between the check of the tick and its sleep. -/
theorem slept_over [DecidableEq ι] (hr : Reachable e w₀ w) (here : w.point = .sleeping)
    (rests : w.scheduler.hasWork = false) {i : ι} (idle : w.todo i = []) (m : ModeChange) :
    ∃ w' v v', Reachable e w₀ w' ∧ w'.asleep = true ∧ w'.todo = w.todo ∧
      w'.scheduler.shared.requests.waiting? m.kind = some m ∧
      w'.scheduler.history =
        ⟨.control .wake, v'⟩ :: ⟨.control (.change m), v⟩ :: w.scheduler.history := by
  obtain ⟨p, s, todo⟩ := w
  obtain rfl : p = .sleeping := here
  have changed := control_reachable hr idle (.change m)
  have woken := control_reachable changed idle .wake
  -- the wakeup finds nobody asleep, and the loop goes on to its check
  have slept := woken.step (.loop rfl .sleep)
  refine ⟨_, _, _, slept, ?_, rfl, ?_, rfl⟩
  · change (!(s.shared.stopping || (s.shared.requests.change m).rom.isPending ||
      (s.romLoaded && !s.shared.paused))) = true
    rw [Requests.rom_change, Bool.not_eq_true']
    exact rests
  · exact (Requests.waiting?_change _ m m.kind).trans (if_pos rfl)

/-- **Which changes a wakeup serves.** However the steps of the loop and of any number of
controllers come: a loop that sleeps is between two ticks. Where the loop is awake and not past the
mailbox of a kind, what waits of that kind is applied before the loop sleeps; what it sleeps over
was requested later. Where the loop is about to sleep without work, any controller that is idle can
leave any change and wake the loop, and the loop sleeps over that change. -/
theorem late_changes_wait {engine : σ} {workingDirectory : Path} {modes : Modes} {sink : Sink}
    [DecidableEq ι] {files : FileTree} {now : Nat}
    (hr : Reachable e (.start (.start e engine workingDirectory modes sink files now)) w) :
    (w.asleep = true → w.point = .between) ∧
      (w.asleep = false → ∀ k, ¬w.point.Past k → ∀ w', Reachable e w w' → w'.asleep = true →
        ∀ m, w'.scheduler.shared.requests.waiting? k = some m →
          ∃ new, w'.scheduler.history = new ++ w.scheduler.history ∧ Asked m new) ∧
      (w.asleep = false → w.point = .sleeping → w.scheduler.hasWork = false →
        ∀ i, w.todo i = [] → ∀ m : ModeChange, ∃ w' v v', Reachable e w w' ∧ w'.asleep = true ∧
          w'.todo = w.todo ∧ w'.scheduler.shared.requests.waiting? m.kind = some m ∧
          w'.scheduler.history =
            ⟨.control .wake, v'⟩ :: ⟨.control (.change m), v⟩ :: w.scheduler.history) := by
  refine ⟨between_of_asleep hr rfl, fun awake k early w' hw' asleep m hm => ?_,
    fun awake here rests i idle m => slept_over .start here rests idle m⟩
  have left : Attentive w := attentive_reachable (attentive_start rfl) hr
  obtain ⟨new, history, since⟩ := renewed_reachable hw' left awake early
  exact ⟨new, history, since (.inl asleep) m hm⟩

/-- The first tick, without a ROM, comes to the check that precedes sleep. -/
theorem sample_before_sleep :
    ∃ s, Reachable TestPattern.engine (.start sample)
        (⟨.sleeping, s, fun _ => []⟩ : World Bool TestPattern) ∧
      s.hasWork = false := by
  let e := TestPattern.engine
  obtain ⟨s, chosen, awake, stays, rests⟩ : ∃ s,
      Reachable e (.start sample) (⟨.choosing, s, fun _ => []⟩ : World Bool TestPattern) ∧
        s.shared.gate.asleep = false ∧ (s.romLoaded && !s.shared.paused) = false ∧
        s.hasWork = false := by
    have begun : Reachable e (.start sample) (.start sample : World Bool TestPattern) := .start
    obtain ⟨chosen, awake⟩ := choice_reachable begun rfl rfl (i := true) rfl rfl 0
      (by decide +kernel) (by decide +kernel)
    exact ⟨_, chosen, awake, by decide +kernel, by decide +kernel⟩
  -- the rest of the tick parks, with nothing left to apply
  have parking := chosen.step (.loop awake (.rest stays))
  have published := (parking.step (.loop awake .park)).step (.loop awake .publish)
  exact ⟨_, published, rests⟩

/-- What the loop sleeps over was requested while it ran. -/
theorem late_changes_wait_once :
    ∃ w : World Bool TestPattern,
      Reachable TestPattern.engine (.start sample) w ∧ w.asleep = true ∧
        w.scheduler.shared.requests.waiting? .cpu = some (.cpu .interpreter) ∧
        Asked (.cpu .interpreter) w.scheduler.history := by
  obtain ⟨s, sleeping, rests⟩ := sample_before_sleep
  obtain ⟨w, v, v', slept, asleep, -, waits, -⟩ :=
    slept_over sleeping rfl rests (i := true) rfl (.cpu .interpreter)
  obtain ⟨-, served, -⟩ :=
    late_changes_wait (.start : Reachable TestPattern.engine (.start sample : World Bool _) _)
  obtain ⟨new, history, asked⟩ := served rfl .cpu id w slept asleep _ waits
  rw [show new = w.scheduler.history from (history.trans (List.append_nil new)).symm] at asked
  exact ⟨w, slept, asleep, waits, asked⟩

/-- **A wakeup can come too late for the change before it.** The loop sleeps, no controller is in
the middle of anything, and of the change that was left and followed by a wakeup nothing was
applied. -/
theorem change_slept_over :
    ∃ w : World Bool TestPattern,
      Reachable TestPattern.engine (.start sample) w ∧ w.asleep = true ∧ (∀ i, w.todo i = []) ∧
        (w.scheduler.history.take 2).map Entry.action =
          [.control .wake, .control (.change (.cpu .interpreter))] ∧
        w.scheduler.shared.requests.waiting? .cpu = some (.cpu .interpreter) := by
  obtain ⟨s, sleeping, rests⟩ := sample_before_sleep
  obtain ⟨w, v, v', slept, asleep, idle, waits, history⟩ :=
    slept_over sleeping rfl rests (i := true) rfl (.cpu .interpreter)
  refine ⟨w, slept, asleep, fun i => congrFun idle i, ?_, waits⟩
  rw [history]
  rfl

end EmuScheduler
