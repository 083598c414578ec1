import EmuScheduler.Proofs.LoadEvents
import EmuScheduler.Proofs.Phases

/-!
# The life of a run

A run begins with a fresh scheduler and ends when its loop has released the engine. `lifecycle` says
what it comes to, in every order of the steps of the loop and of any number of controllers. That the
phases are a path of a graph is shown in the file on phases; this one is about the end.

How a run ends is decided at one of two places (`Decides`): a tick that begins sees that the
scheduler was told to stop, or a tick fails. From there on the run has a verdict (`World.verdict?`),
and four steps are left to the loop, beside further looks at the flag (`loop_of_verdict`): it says
that it stops, sets the flag, closes the ROM and says that it has stopped. `Winding v w new` says
what was done between a world `v` with a verdict and a later world `w`, where `new` is what the
history has grown by. Everything that is left to a failed run, to one that was told to stop and to
one that is over is in it:

* no event is sent;
* the mailboxes hold what they held, with the requests of `new` (`Requests.since`), so none is
  emptied;
* the only use made of the engine is to close the ROM that was open, once;
* a pause still mutes. If sound was on, the engine is told so once, by a controller and not by the
  loop.
-/

namespace EmuScheduler

open Scheduler World

variable {ι σ : Type} {e : Engine σ} {s s' : Scheduler σ} {p p' : Point} {h : List Entry}

/-! ### Being told to stop -/

/-- Whether the scheduler was told to stop. -/
def toldToStop : List Entry → Bool
  | [] => false
  | x :: older =>
    match x.action with
    | .control .shutdown => true
    | _ => toldToStop older

/-- What the engine is told of its sound does not tell anybody to stop. -/
@[simp] theorem toldToStop_told {v : View} {t : Option Bool} :
    toldToStop (toldEntries v t ++ h) = toldToStop h := by
  cases t <;> rfl

/-- A scheduler that was told to stop remembers it. -/
def Heeds (s : Scheduler σ) : Prop :=
  toldToStop s.history = true → s.shared.stopping = true

/-- The loop never takes the flag back. -/
theorem heeds_loop (hs : Heeds s) (hl : Loop e p s p' s') : Heeds s' := by
  cases hl with
  | create hc =>
    obtain ⟨files, rfl⟩ := createTree_cases hc
    exact hs
  | purge hc =>
    obtain ⟨files, rfl | ⟨removed, rfl⟩⟩ := purgeImages_cases hc
    · exact hs
    · exact hs
  | engage =>
    change toldToStop (s.withAudio e Audio.engage).history = true →
      (s.withAudio e Audio.engage).shared.stopping = true
    rw [withAudio_history, withAudio_shared, toldToStop_told]
    exact hs
  | close | empty =>
    -- to close the ROM tells nobody to stop
    obtain ⟨-, heq⟩ | ⟨-, heq⟩ := closeRom_cases e s
    · rw [heq]
      exact hs
    · rw [heq]
      exact hs
  | apply ha =>
    obtain ⟨-, rfl, rfl⟩ | ⟨mode, -, ⟨rfl, rfl⟩ | ⟨rfl, rfl⟩⟩ := applyMode_cases ha
    · exact hs
    · exact hs
    · exact hs
  | unmute =>
    unfold Heeds
    rw [withAudio_history, withAudio_shared, toldToStop_told]
    exact hs
  | @present _ n now =>
    obtain ⟨rate, window, heq⟩ := present_cases (s := s) n now
    rw [heq]
    exact hs
  | requestStop => exact fun _ => rfl
  | _ => exact hs

/-- A control begins with its entry, and its first part is not about sound. -/
theorem begun_control (e : Engine σ) (s : Scheduler σ) (c : Control) :
    ((s.record (.control c)).runParts e (c.parts.take 1)).history =
        ⟨.control c, s.view⟩ :: s.history ∧
      ((s.record (.control c)).runParts e (c.parts.take 1)).shared.audio = s.shared.audio := by
  cases c with
  | pause paused => cases paused <;> exact ⟨rfl, rfl⟩
  | _ => exact ⟨rfl, rfl⟩

section Worlds

variable [DecidableEq ι] {w w' w₀ : World ι σ}

/-- Whoever is told to stop sets the flag in the same step. -/
theorem heeds_step (hw : Heeds w.scheduler) (hs : World.Step e w w') : Heeds w'.scheduler := by
  cases hs with
  | loop _ hl => exact heeds_loop hw hl
  | call i c idle =>
    -- the request and its first part come together
    cases c with
    | shutdown => exact fun _ => rfl
    | pause paused => cases paused <;> exact hw
    | _ => exact hw
  | @act i x rest next =>
    cases x with
    | storeStop => exact fun _ => rfl
    | mute =>
      change toldToStop (w.scheduler.withAudio e Audio.mute).history = true →
        (w.scheduler.withAudio e Audio.mute).shared.stopping = true
      rw [withAudio_history, withAudio_shared, toldToStop_told]
      exact hw
    | _ => exact hw
  | outside => exact hw

/-- So it is at all times. -/
theorem heeds_reachable (hw : Heeds w₀.scheduler) (hr : Reachable e w₀ w) : Heeds w.scheduler := by
  induction hr with
  | start => exact hw
  | step _ hs ih => exact heeds_step ih hs

end Worlds

/-! ### How a run ends -/

/-- How a run ends, once that is decided: without an error, if it was told to stop and no tick is
going on, and with the error of a tick that failed. -/
def World.verdict? (w : World ι σ) : Option (Option SchedulerError) :=
  match w.point with
  | .between => if w.scheduler.shared.stopping then some none else none
  | .failed error => some (some error)
  | .stopping error? | .emptying error? | .vanishing error? | .released error? => some error?
  | _ => none

/-- Between two ticks it is the flag that decides. -/
theorem flag_of_verdict {todo : ι → List ControlPart} {error? : Option SchedulerError}
    (hv : World.verdict? ⟨.between, s, todo⟩ = some error?) :
    s.shared.stopping = true ∧ error? = none := by
  change (if s.shared.stopping then some none else none) = some error? at hv
  split at hv
  · next stops => exact ⟨stops, (Option.some.inj hv).symm⟩
  · exact absurd hv nofun

/-- Whether the loop has left its rounds for good. -/
def Point.leaving : Point → Bool
  | .stopping _ | .emptying _ | .vanishing _ | .released _ => true
  | _ => false

/-- Where the loop has left its rounds it is decided how the run ends. -/
theorem verdict_of_left {w : World ι σ} (left : w.point.leaving = true) : w.verdict? ≠ none := by
  obtain ⟨p, s, todo⟩ := w
  cases p with
  | stopping | emptying | vanishing | released => exact nofun
  | _ => exact absurd left Bool.false_ne_true

/-- The loop leaves its rounds only where that was decided. -/
theorem verdict_of_leaving {w : World ι σ} (hl : Loop e w.point w.scheduler p s)
    (leaving : p.leaving = true) : w.verdict? ≠ none := by
  obtain ⟨q, s₀, todo⟩ := w
  cases hl with
  | stop stops =>
    change (if s₀.shared.stopping then some none else none) ≠ none
    rw [if_pos stops]
    exact nofun
  | abort | requestStop | empty | vanish => exact nofun
  | create | purge | setUpEnds | check | apply | choose =>
    refine absurd leaving (ne_true_of_eq_false ?_)
    exact Point.after_elim (motive := (·.leaving = false)) rfl fun _ => rfl
  | _ => exact absurd leaving Bool.false_ne_true

/-- **What the loop still does once it is decided how the run ends.** -/
theorem loop_of_verdict {w : World ι σ} {error? : Option SchedulerError}
    (hv : w.verdict? = some error?) (hl : Loop e w.point w.scheduler p s) :
    (w.point = .between ∧ p = .between ∧ s = w.scheduler.record .tick ∧ error? = none) ∨
      ((w.point = .between ∨ ∃ error, w.point = .failed error) ∧ p = .stopping error? ∧
        s = w.scheduler.publish .stopping) ∨
      (w.point = .stopping error? ∧ p = .emptying error? ∧
        s = w.scheduler.modify Shared.requestStop) ∨
      (w.point = .emptying error? ∧ p = .vanishing error? ∧ s = w.scheduler.closeRom e) ∨
      (w.point = .vanishing error? ∧ p = .released error? ∧ s = w.scheduler.publish .stopped) := by
  obtain ⟨q, s₀, todo⟩ := w
  cases hl with
  | halt => exact .inl ⟨rfl, rfl, rfl, (flag_of_verdict hv).2⟩
  | first going | begin going =>
    exact absurd ((flag_of_verdict hv).1.symm.trans going) Bool.false_ne_true.symm
  | stop =>
    obtain ⟨-, rfl⟩ := flag_of_verdict hv
    right; left
    exact ⟨.inl rfl, rfl, rfl⟩
  | @abort _ error =>
    -- from here on the point says how the run ends
    obtain rfl := Option.some.inj hv
    right; left
    exact ⟨.inr ⟨error, rfl⟩, rfl, rfl⟩
  | requestStop =>
    obtain rfl := Option.some.inj hv
    right; right; left
    exact ⟨rfl, rfl, rfl⟩
  | empty =>
    obtain rfl := Option.some.inj hv
    right; right; right; left
    exact ⟨rfl, rfl, rfl⟩
  | vanish =>
    obtain rfl := Option.some.inj hv
    right; right; right; right
    exact ⟨rfl, rfl, rfl⟩
  | _ => exact absurd hv nofun

/-- Whether a world is one in which the end of a run is decided: a tick that begins sees that the
scheduler is to stop, or a tick has failed. -/
def Decides (w : World ι σ) (error? : Option SchedulerError) : Prop :=
  (w.point = .between ∧ w.scheduler.shared.stopping = true ∧ error? = none) ∨
    ∃ error, w.point = .failed error ∧ error? = some error

/-- Where it is decided, the verdict says so. -/
theorem Decides.verdict {v : World ι σ} {error? : Option SchedulerError} (hd : Decides v error?) :
    v.verdict? = some error? := by
  obtain ⟨p, s, todo⟩ := v
  obtain ⟨here, stops, rfl⟩ | ⟨error, here, rfl⟩ := hd
  · obtain rfl : p = .between := here
    exact if_pos stops
  · obtain rfl : p = .failed error := here
    rfl

/-- The mailboxes after the requests of some entries. -/
def Requests.since (r : Requests) : List Entry → Requests
  | [] => r
  | x :: older =>
    match x.action with
    | .control (.load rom) => { r.since older with rom := (r.since older).rom.set rom }
    | .control (.change mode) => (r.since older).change mode
    | _ => r.since older

/-- Whether a call is about sound. -/
def EngineCall.isSound : EngineCall → Bool
  | .order o => o.isSound
  | _ => false

/-- The calls about sound, newest first. -/
def sounds (h : List Entry) : List EngineCall :=
  (calls h).filter (·.isSound)

/-- The other calls, newest first. -/
def uses (h : List Entry) : List EngineCall :=
  (calls h).filter (!·.isSound)

/-- **What the end of a run comes to**, from a world in which it is decided. -/
structure Winding (v w : World ι σ) (new : List Entry) : Prop where
  history : w.scheduler.history = new ++ v.scheduler.history
  silent : emissions new = []
  /-- What waits stays, and what is requested waits too. -/
  requests : w.scheduler.shared.requests = v.scheduler.shared.requests.since new
  /-- A ROM that is open is closed, and no other use is made of the engine. -/
  used : uses new = if v.scheduler.romLoaded && w.point.isClosed then [.order .closeRom] else []
  loaded : w.scheduler.romLoaded = (v.scheduler.romLoaded && !w.point.isClosed)
  /-- A pause may still find sound on, once. -/
  heard : sounds new = [] ∧ w.scheduler.shared.audio = v.scheduler.shared.audio ∨
    v.scheduler.shared.audio.muted = false ∧ w.scheduler.shared.audio.muted = true ∧
      (sounds new = [] ∨ sounds new = [.order (.muteMic true), .order (.muteAudio true)])

/-- The loop itself has nothing more to say of the sound. -/
theorem sounds_of_verdict {w : World ι σ} {error? : Option SchedulerError}
    (hv : w.verdict? = some error?) (hl : Loop e w.point w.scheduler p s) :
    sounds s.history = sounds w.scheduler.history := by
  obtain ⟨-, -, rfl, -⟩ | ⟨-, -, rfl⟩ | ⟨-, -, rfl⟩ | ⟨-, -, rfl⟩ | ⟨-, -, rfl⟩ :=
    loop_of_verdict hv hl
  · rfl
  · rfl
  · rfl
  · -- to close the ROM is the one call that is left, and it is not about sound
    obtain ⟨-, heq⟩ | ⟨-, heq⟩ := closeRom_cases e w.scheduler
    · rw [heq]
    · rw [heq]
      rfl
  · rfl

section Readings

variable (new older : List Entry)

/-- Emissions are read from the oldest on. -/
theorem emissions_append : emissions (new ++ older) = emissions older ++ emissions new := by
  induction new with
  | nil => exact (List.append_nil _).symm
  | cons x new ih =>
    obtain ⟨action, v⟩ := x
    cases action with
    | emit event sink delivered => exact (congrArg (· ++ _) ih).trans (List.append_assoc ..)
    | _ => exact ih

theorem Requests.since_append (r : Requests) :
    r.since (new ++ older) = (r.since older).since new := by
  induction new with
  | nil => rfl
  | cons x new ih =>
    rw [List.cons_append]
    unfold Requests.since
    rw [ih]

theorem sounds_append : sounds (new ++ older) = sounds new ++ sounds older := by
  unfold sounds
  rw [calls_append, List.filter_append]

theorem uses_append : uses (new ++ older) = uses new ++ uses older := by
  unfold uses
  rw [calls_append, List.filter_append]

end Readings

namespace Winding

variable {v w w' : World ι σ} {new : List Entry}

/-- At first nothing happened since. -/
theorem start (hv : v.point.isClosed = true → v.scheduler.romLoaded = false) : Winding v v [] where
  history := rfl
  silent := rfl
  requests := rfl
  used := by
    cases hp : v.point.isClosed with
    | true =>
      rw [hv hp]
      rfl
    | false =>
      rw [Bool.and_false]
      rfl
  loaded := by
    cases hp : v.point.isClosed with
    | true => rw [hv hp]; rfl
    | false => rw [Bool.not_false, Bool.and_true]
  heard := .inl ⟨rfl, rfl⟩

/-- What makes no use of the engine and sends no event. -/
theorem keep (hw : Winding v w new) (newer : List Entry)
    (history : w'.scheduler.history = newer ++ w.scheduler.history) (silent : emissions newer = [])
    (uncalled : calls newer = [])
    (requests : w'.scheduler.shared.requests = w.scheduler.shared.requests.since newer)
    (loaded : w'.scheduler.romLoaded = w.scheduler.romLoaded)
    (audio : w'.scheduler.shared.audio = w.scheduler.shared.audio)
    (closed : w'.point.isClosed = w.point.isClosed) : Winding v w' (newer ++ new) := by
  -- without a call there is neither a use nor anything about sound
  have unused : uses newer = [] := congrArg (List.filter _) uncalled
  have unheard : sounds newer = [] := congrArg (List.filter _) uncalled
  refine ⟨?_, ?_, ?_, ?_, ?_, ?_⟩
  · rw [history, hw.history, List.append_assoc]
  · rw [emissions_append, hw.silent, silent]
    rfl
  · rw [requests, hw.requests, Requests.since_append]
  · rw [uses_append, unused, closed]
    exact hw.used
  · rw [loaded, closed]
    exact hw.loaded
  · rw [sounds_append, unheard, audio]
    exact hw.heard

/-- The end of the loop's work: the ROM is closed, if one is open. -/
theorem close (hw : Winding v w new) {p : Point} (opened : w.point.isClosed = false)
    (closed : p.isClosed = true) :
    ∃ new, Winding v { w with point := p, scheduler := w.scheduler.closeRom e } new := by
  -- nothing was closed so far, and the ROM is the one that was open when the end was decided
  have unused : uses new = [] := by
    rw [hw.used, opened, Bool.and_false]
    rfl
  have loaded : w.scheduler.romLoaded = v.scheduler.romLoaded := by
    rw [hw.loaded, opened, Bool.not_false, Bool.and_true]
  obtain ⟨empty, heq⟩ | ⟨full, heq⟩ := closeRom_cases e w.scheduler
  · rw [heq]
    rw [empty] at loaded
    refine ⟨new, hw.history, hw.silent, hw.requests, ?_, ?_, hw.heard⟩
    · rw [unused, ← loaded]
      rfl
    · rw [← loaded]
      exact empty
  · rw [heq]
    rw [full] at loaded
    refine ⟨⟨.call (.order .closeRom), w.scheduler.view⟩ :: new, congrArg _ hw.history, hw.silent,
      hw.requests, ?_, ?_, hw.heard⟩
    · change .order .closeRom :: uses new = _
      rw [unused, ← loaded, closed]
      rfl
    · rw [← loaded, closed]
      rfl

/-- A pause mutes, if it finds sound on. -/
theorem mute (hw : Winding v w new) (todo : ι → List ControlPart) :
    ∃ new, Winding v { w with scheduler := w.scheduler.withAudio e Audio.mute, todo } new := by
  cases hm : w.scheduler.shared.audio.muted with
  | true =>
    have same : w.scheduler.withAudio e Audio.mute = w.scheduler := by
      unfold Scheduler.withAudio
      rw [Audio.mute_of_muted _ hm]
      rfl
    rw [same]
    exact ⟨[] ++ new, hw.keep [] rfl rfl rfl rfl rfl rfl rfl⟩
  | false =>
    -- so nobody has muted since the end was decided
    obtain ⟨silence, same⟩ := hw.heard.resolve_right fun hn => by simp [hm] at hn
    let t := w.scheduler.shared.audio.mute.2
    let view := { w.scheduler.view with muted := w.scheduler.shared.audio.mute.1.muted }
    refine ⟨toldEntries view t ++ new, ?_, ?_, ?_, ?_, ?_, .inr ⟨same ▸ hm, ?_, ?_⟩⟩
    · change (w.scheduler.withAudio e Audio.mute).history = _
      rw [withAudio_history, hw.history, List.append_assoc]
    · cases t <;> exact hw.silent
    · change (w.scheduler.withAudio e Audio.mute).shared.requests = _
      rw [withAudio_shared]
      cases t <;> exact hw.requests
    · cases t <;> exact hw.used
    · exact (withAudio_romLoaded ..).trans hw.loaded
    · change (w.scheduler.withAudio e Audio.mute).shared.audio.muted = true
      rw [withAudio_shared]
      exact Audio.mute_muted _
    · cases ht : t with
      | none => exact .inl silence
      | some muted =>
        obtain ⟨rfl, -⟩ := Audio.eq_of_mute _ ht
        right
        rw [sounds_append, silence]
        rfl

end Winding

section Worlds

variable [DecidableEq ι] {v w w' w₀ : World ι σ} {error? : Option SchedulerError} {new : List Entry}

/-- What is decided stays decided. -/
theorem verdict_step (hv : w.verdict? = some error?) (hs : World.Step e w w') :
    w'.verdict? = some error? := by
  obtain ⟨p, s, todo⟩ := w
  obtain ⟨p', s', todo'⟩ := w'
  obtain hl | ⟨here, new, beside⟩ := step_cases hs
  · obtain ⟨rfl, rfl, rfl, rfl⟩ | ⟨-, rfl, -⟩ | ⟨-, rfl, -⟩ | ⟨-, rfl, -⟩ | ⟨-, rfl, -⟩ :=
      loop_of_verdict hv hl
    · exact hv
    all_goals rfl
  · obtain rfl : p' = p := here
    cases p' with
    | between =>
      -- the flag is never taken back
      obtain ⟨stops, rfl⟩ := flag_of_verdict hv
      exact if_pos (beside.stopping stops)
    | _ => exact hv

/-- **A step after the end was decided.** -/
theorem winding_step (left : Attentive w) (hv : w.verdict? = some error?) (hw : Winding v w new)
    (hs : World.Step e w w') : ∃ new, Winding v w' new := by
  cases hs with
  | loop _ hl =>
    obtain ⟨here, rfl, rfl, -⟩ | ⟨here, rfl, rfl⟩ | ⟨here, rfl, rfl⟩ | ⟨here, rfl, rfl⟩ |
      ⟨here, rfl, rfl⟩ := loop_of_verdict hv hl
    · -- the beginning of a tick that will see the flag
      exact ⟨_, hw.keep [_] rfl rfl rfl rfl rfl rfl (by rw [here])⟩
    · refine ⟨_, hw.keep [_] rfl rfl rfl rfl rfl rfl ?_⟩
      obtain here | ⟨error, here⟩ := here
      · rw [here]
        rfl
      · rw [here]
        rfl
    · exact ⟨_, hw.keep [] rfl rfl rfl rfl rfl rfl (by rw [here]; rfl)⟩
    · exact hw.close (by rw [here]; rfl) rfl
    · exact ⟨_, hw.keep [_] rfl rfl rfl rfl rfl rfl (by rw [here]; rfl)⟩
  | call i c idle =>
    -- its first part is not about sound: a pause stores the flag before it mutes
    obtain ⟨history, audio⟩ := begun_control e w.scheduler c
    refine ⟨_, hw.keep [_] history rfl rfl ?_ ?_ audio rfl⟩
    · cases c with
      | pause paused => cases paused <;> rfl
      | _ => rfl
    · cases c with
      | pause paused => cases paused <;> rfl
      | _ => rfl
  | @act i x rest next =>
    -- what is left of a control is a notification or a muting
    obtain ⟨rfl | rfl, rfl⟩ := left.last next
    · exact ⟨_, hw.keep [] rfl rfl rfl rfl rfl rfl rfl⟩
    · exact hw.mute _
  | outside => exact ⟨_, hw.keep [] rfl rfl rfl rfl rfl rfl rfl⟩

/-- **All that can come after the end of a run was decided.** -/
theorem winding_reachable (left : Attentive v) (hv : v.verdict? = some error?)
    (closed : v.point.isClosed = true → v.scheduler.romLoaded = false) (hr : Reachable e v w) :
    w.verdict? = some error? ∧ ∃ new, Winding v w new := by
  induction hr with
  | start => exact ⟨hv, [], .start closed⟩
  | step hr hs ih =>
    obtain ⟨decided, new, winding⟩ := ih
    exact ⟨verdict_step decided hs, winding_step (attentive_reachable left hr) decided winding hs⟩

/-- A step that decides on the end leads to a flag or to a failed tick. -/
theorem decides_of_step (hn : w.verdict? = none) (hs : World.Step e w w')
    (hv : w'.verdict? = some error?) : Decides w' error? := by
  have stayed : w'.point.leaving = false := by
    rw [← Bool.not_eq_true]
    intro leaving
    obtain hl | ⟨here, -⟩ := step_cases hs
    · exact verdict_of_leaving hl leaving hn
    · -- a controller does not move the loop
      rw [here] at leaving
      exact verdict_of_left leaving hn
  obtain ⟨p, s, todo⟩ := w'
  cases p with
  | between => exact .inl ⟨rfl, flag_of_verdict hv⟩
  | failed error => exact .inr ⟨error, rfl, (Option.some.inj hv).symm⟩
  | stopping | emptying | vanishing | released => exact absurd stayed Bool.false_ne_true.symm
  | _ => exact absurd hv nofun

/-- **A run that ends was led to its end by a flag or by a failed tick.** -/
theorem decides_of_verdict (hr : Reachable e w₀ w) (undecided : w₀.verdict? = none)
    (hv : w.verdict? = some error?) :
    ∃ v, Reachable e w₀ v ∧ Decides v error? ∧ Reachable e v w := by
  -- by the last step: the end was decided by it, or before it and then in the same way
  induction hr with
  | start => exact absurd (undecided.symm.trans hv) nofun
  | @step w w' hr hs ih =>
    cases hw : w.verdict? with
    | none => exact ⟨w', hr.step hs, decides_of_step hw hs hv, .start⟩
    | some earlier =>
      obtain rfl : earlier = error? := Option.some.inj ((verdict_step hw hs).symm.trans hv)
      obtain ⟨v, before, decides, after⟩ := ih hw
      exact ⟨v, before, decides, after.step hs⟩

end Worlds

/-- What a run has come to when it is over: the engine is released, and nothing shows any more. -/
structure Finished (w : World ι σ) : Prop where
  phase : w.scheduler.shared.phase = .stopped
  rom : w.scheduler.shared.rom? = none
  closed : w.scheduler.romLoaded = false

/-- A loop that says that it runs has a ROM open, on an engine that has answered that it is set
up. -/
theorem fit_of_running [DecidableEq ι] {w w' : World ι σ} (ho : Ordered w.scheduler w.point)
    (hf : Fit e w.scheduler w.point) (hs : World.Step e w w') {before : Phase} {v : View}
    (hh : w'.scheduler.history = ⟨.publish before .running, v⟩ :: w.scheduler.history) :
    w.scheduler.romLoaded = true ∧ w.scheduler.shared.rom? ≠ none ∧
      Answered e w.scheduler.engine := by
  -- from the phases one sees which step it was, and with that where the loop stood
  have said : phases w'.scheduler.history = .running :: phases w.scheduler.history := by
    rw [hh]
    rfl
  have other (same : phases w'.scheduler.history = phases w.scheduler.history) : False :=
    List.ne_cons_self (same.symm.trans said)
  have running : w.point = .running := by
    by_contra hp
    obtain hl | ⟨-, new, beside⟩ := step_cases hs
    · obtain same | ⟨phase, hn, later⟩ := phases_of_loop ho hl hp
      · exact other same
      · exact hn (List.cons.inj (later.symm.trans said)).1
    · exact other beside.phases_eq
  obtain ⟨loaded, answered⟩ := hf.ready running
  refine ⟨loaded, ?_, answered⟩
  rw [hf.agreed] at loaded
  exact Option.isSome_iff_ne_none.mp loaded

/-- A run that was released stays so. -/
theorem released_reachable [DecidableEq ι] {w w' : World ι σ} {error? : Option SchedulerError}
    (hw : w.point = .released error?) (hr : Reachable e w w') : w'.point = .released error? := by
  induction hr with
  | start => exact hw
  | step _ hs ih =>
    obtain hl | ⟨here, -⟩ := step_cases hs
    · -- the loop has no step from there
      rw [ih] at hl
      cases hl
    · exact here.trans ih

/-- A run that was released has said that it stopped, and has no ROM. -/
theorem finished_of_released {w : World ι σ} {error? : Option SchedulerError}
    (hw : w.point = .released error?) (ho : Ordered w.scheduler w.point)
    (hf : Fit e w.scheduler w.point) : Finished w := by
  rw [hw] at ho hf
  -- at this point there is one phase only, and controllers see no ROM where none is open
  have closed : w.scheduler.romLoaded = false := hf.closed rfl
  refine ⟨List.mem_singleton.mp ho.place, ?_, closed⟩
  rw [hf.agreed] at closed
  exact Option.not_isSome_iff_eq_none.mp (by rw [closed]; exact Bool.false_ne_true)

/-- **The life of a run**, in every order of the steps of its loop and of any number of controllers.

* The phases that are made known are a path of the graph, and the last of them is the phase.
* A loop that says that it runs has a ROM open, on an engine that has answered that it is set up.
* A scheduler that was told to stop remembers it. So the next tick that begins sees it, and with
  that the end of the run is decided; it is decided too by a tick that fails.
* Once it is decided it stays so. From then on no event is sent, nothing that waits is taken, and no
  use is made of the engine but to close the ROM that is open; a pause may still mute.
* A run that is over was led there by one or the other, and has the error of the tick that failed,
  or none. The phase is the last one and no ROM shows, and that stays, whatever controllers do. -/
theorem lifecycle {engine : σ} {workingDirectory : Path} {modes : Modes} {sink : Sink}
    {files : FileTree} {now : Nat} [DecidableEq ι] {w : World ι σ}
    (hr : Reachable e (.start (.start e engine workingDirectory modes sink files now)) w) :
    ((phases w.scheduler.history).IsChain (fun later earlier => later ∈ earlier.next) ∧
      (phases w.scheduler.history).head? = some w.scheduler.shared.phase) ∧
    (∀ w', World.Step e w w' → ∀ before v,
      w'.scheduler.history = ⟨.publish before .running, v⟩ :: w.scheduler.history →
        w.scheduler.romLoaded = true ∧ w.scheduler.shared.rom? ≠ none ∧
          Answered e w.scheduler.engine) ∧
    (toldToStop w.scheduler.history = true → w.scheduler.shared.stopping = true) ∧
    (∀ error?, w.verdict? = some error? →
      (∀ p s, Loop e w.point w.scheduler p s → sounds s.history = sounds w.scheduler.history) ∧
        ∀ w', Reachable e w w' → w'.verdict? = some error? ∧ ∃ new, Winding w w' new) ∧
    (∀ error?, w.point = .released error? →
      (∃ v, Reachable e (.start (.start e engine workingDirectory modes sink files now)) v ∧
        Decides v error? ∧ Reachable e v w ∧ ∃ new, Winding v w new) ∧
      ∀ w', Reachable e w w' → w'.point = .released error? ∧ Finished w') := by
  let s₀ : Scheduler σ := .start e engine workingDirectory modes sink files now
  have ordered₀ : Ordered s₀ .between :=
    ⟨List.isChain_singleton _, rfl, List.mem_cons_self, nofun⟩
  have fit₀ : Fit e s₀ .between := ⟨rfl, nofun, nofun⟩
  have heeds₀ : Heeds s₀ := fun told => absurd told Bool.false_ne_true
  have left₀ : Attentive (.start s₀ : World ι σ) := attentive_start rfl
  have ordered : Ordered w.scheduler w.point := ordered_reachable ordered₀ hr
  have fit : Fit e w.scheduler w.point := fit_reachable fit₀ hr
  -- what the end comes to is told from a world in which it is decided
  have winds {v : World ι σ} {error? : Option SchedulerError} (hv : Reachable e (.start s₀) v)
      (decided : v.verdict? = some error?) {w' : World ι σ} (hw : Reachable e v w') :
      w'.verdict? = some error? ∧ ∃ new, Winding v w' new :=
    winding_reachable (attentive_reachable left₀ hv) decided (fit_reachable fit₀ hv).closed hw
  refine ⟨⟨ordered.path, ordered.current⟩,
    fun w' hs before v hh => fit_of_running ordered fit hs hh,
    heeds_reachable heeds₀ hr, fun error? decided =>
      ⟨fun p s hl => sounds_of_verdict decided hl, fun w' hw => winds hr decided hw⟩,
    fun error? released => ⟨?_, fun w' hw => ?_⟩⟩
  · -- a release was decided before, and what came since is the end of the run
    have decided : w.verdict? = some error? := by
      unfold World.verdict?
      rw [released]
    obtain ⟨v, hv, decides, after⟩ := decides_of_verdict hr rfl decided
    exact ⟨v, hv, decides, after, (winds hv decides.verdict after).2⟩
  · have later := hr.trans hw
    exact ⟨released_reachable released hw,
      finished_of_released (released_reachable released hw) (ordered_reachable ordered₀ later)
        (fit_reachable fit₀ later)⟩

/-- A loop that is awake between two ticks and was told to stop can come to its end at once. -/
theorem end_reachable [DecidableEq ι] {w : World ι σ} (here : w.point = .between)
    (awake : w.asleep = false) (stops : w.scheduler.shared.stopping = true) :
    ∃ w', Reachable e w w' ∧ w'.point = .released none := by
  obtain ⟨p, s, todo⟩ := w
  obtain rfl : p = .between := here
  have stopping := (Reachable.start (e := e)).step (.loop awake (.stop stops))
  have emptying := stopping.step (.loop awake .requestStop)
  have vanishing := emptying.step (.loop awake .empty)
  -- closing the ROM wakes nobody, and puts nobody to sleep
  have kept : (((s.publish .stopping).modify Shared.requestStop).closeRom e).shared.gate.asleep =
      false := by
    rw [closeRom_gate]
    exact awake
  exact ⟨_, vanishing.step (.loop kept .vanish), rfl⟩

/-- A controller pauses a ROM and shuts the scheduler down while the loop sleeps; the ROM is closed
at the end. -/
theorem lifecycle_shutdown :
    ∃ v w : World Bool TestPattern, ∃ new,
      Reachable TestPattern.engine (.start sample) v ∧ v.scheduler.romLoaded = true ∧
        Winding v w new ∧ uses new = [.order .closeRom] ∧ w.point = .released none ∧
        Finished w := by
  let e := TestPattern.engine
  -- the loop comes to the choice, with a ROM
  obtain ⟨s, chosen, awake, loaded⟩ : ∃ s,
      Reachable e (.start sample) (⟨.choosing, s, fun _ => []⟩ : World Bool TestPattern) ∧
        s.shared.gate.asleep = false ∧ s.romLoaded = true := by
    have begun : Reachable e (.start sample) (.start sample : World Bool TestPattern) := .start
    have asked := control_reachable begun (i := true) rfl (.load sampleRom)
    obtain ⟨chosen, awake⟩ := choice_reachable asked rfl rfl (i := true) rfl rfl 0
      (by decide +kernel) (by decide +kernel)
    exact ⟨_, chosen, awake, by decide +kernel⟩
  have paused := control_reachable chosen (i := true) rfl (.pause true)
  have rests : ((s.control e (.pause true)).romLoaded &&
      !(s.control e (.pause true)).shared.paused) = false := by
    rw [control_shared]
    exact Bool.and_false _
  have still := awake_control (e := e) awake (.pause true)
  have parking := paused.step (.loop still (.rest rests))
  have published := (parking.step (.loop still .park)).step (.loop still .publish)
  have slept := published.step (.loop still .sleep)
  -- a controller wakes it, and it is over
  obtain ⟨v, told, here, awake, stops, full⟩ : ∃ v, Reachable e (.start sample) v ∧
      v.point = .between ∧ v.asleep = false ∧ v.scheduler.shared.stopping = true ∧
        v.scheduler.romLoaded = true := by
    refine ⟨_, control_reachable slept (i := true) rfl .shutdown, rfl, rfl, rfl, ?_⟩
    change (s.control e (.pause true)).romLoaded = true
    rw [control_romLoaded]
    exact loaded
  obtain ⟨w, after, released⟩ := end_reachable (e := e) here awake stops
  obtain ⟨-, -, -, decided, -⟩ := lifecycle told
  obtain ⟨-, new, winding⟩ := (decided none (Decides.verdict (.inl ⟨here, stops, rfl⟩))).2 w after
  obtain ⟨-, -, -, -, ended⟩ := lifecycle (told.trans after)
  refine ⟨v, w, new, told, full, winding, ?_, released, ((ended none released).2 w .start).2⟩
  rw [winding.used, released, full]
  rfl

end EmuScheduler
