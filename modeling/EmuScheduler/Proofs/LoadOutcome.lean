import EmuScheduler.Proofs.Coalescing
import EmuScheduler.Proofs.FailedStart
import EmuScheduler.Proofs.Phases
import EmuScheduler.Proofs.Replay

/-!
# What a tick makes of a load

A load that waits is settled by the next tick, and what comes of it depends on the engine alone:
`load_outcome` says it for every run whose preparations are over and every engine that behaves
(`Orderly`), whatever ROM was open, whether or not there was a pause, and whatever controllers do
from inside the load. The tick asks for the ROM that was requested last. If the engine accepts it,
the tick makes a frame of it; a pause that was there before, or comes from inside the load, is over
when the first step begins. If the engine refuses, the tick parks without a ROM, and the pause is as
controllers have left it. What is requested from inside the load waits for the tick after this one.

The tick is followed through its stages, each with its own account of what happened so far: the ROM
of before is closed (`Cleared`), the engine was called and controllers have acted (`Visited`), its
answer has had its effect (`LoadSettled`), and the modes were applied (`Chosen`). All that is
neither a load nor a closing leaves such an account alone (`Unasked`), requests apart, which wait.
That what waits was requested last is an invariant of the loop (`Latest`).
-/

namespace EmuScheduler

open Scheduler

variable {σ : Type} {e : Engine σ}

/-! ### Reading requests -/

/-- The ROM that an action asks the scheduler to load, if it is a request for one. -/
def Action.requested? : Action → Option Path
  | .control c => c.load?
  | _ => none

/-- The ROM that was requested last. -/
def lastRequested? (h : List Entry) : Option Path :=
  h.findSome? (·.action.requested?)

/-- The newer requests come first. -/
@[simp] theorem lastRequested?_append (new h : List Entry) :
    lastRequested? (new ++ h) = (lastRequested? new).or (lastRequested? h) :=
  List.findSome?_append

@[simp] theorem lastRequested?_told (v : View) (t : Option Bool) (h : List Entry) :
    lastRequested? (toldEntries v t ++ h) = lastRequested? h := by
  cases t <;> rfl

/-- Closings add up. -/
theorem closings_append (new h : List Entry) : closings (new ++ h) = closings new + closings h := by
  unfold closings
  rw [calls_append, List.count_append]

/-- The pause flag that a control stores. -/
def Control.pause? : Control → Option Bool
  | .pause paused => some paused
  | _ => none

/-- Of the controls only a pause, or its end, touches the flag. -/
theorem paused_control (h : Shared) (c : Control) :
    some (h.control c).paused = c.pause?.or (some h.paused) := by
  cases c with
  | pause paused => cases paused <;> rfl
  | _ => rfl

/-! ### While no load is settled -/

/-- From `s` to `s'` the engine was asked for no load and not to close its ROM; `new` is what
happened. -/
structure Unasked (s s' : Scheduler σ) (new : List Entry) : Prop where
  history : s'.history = new ++ s.history
  unattempted : ∀ h, attempts (new ++ h) = attempts h
  unclosed : closings new = 0
  /-- The last request waits, or the one that did before. -/
  waits : s'.shared.requests.rom.value? =
    (lastRequested? new).or s.shared.requests.rom.value?
  loaded : s'.romLoaded = s.romLoaded
  rom : s'.shared.rom? = s.shared.rom?

/-- Whether an action has nothing to do with loads. -/
def Action.isLoadless : Action → Bool
  | .call (.load _) | .call (.order .closeRom) | .accept _ | .reject _ | .control _ => false
  | _ => true

/-- Actions that have nothing to do with loads change none of the readings. -/
theorem loadless {new : List Entry} (hn : ∀ x ∈ new, x.action.isLoadless = true) :
    (∀ h, attempts (new ++ h) = attempts h) ∧ closings new = 0 ∧ lastRequested? new = none := by
  induction new with
  | nil => exact ⟨fun _ => rfl, rfl, rfl⟩
  | cons x new ih =>
    obtain ⟨ha, hc, hr⟩ := ih fun y hy => hn y (List.mem_cons_of_mem x hy)
    have hx := hn x List.mem_cons_self
    obtain ⟨action, v⟩ := x
    -- each reading looks at the entries that are excluded here, and passes over the others
    cases action with
    | accept | reject | control => exact absurd hx Bool.false_ne_true
    | call c =>
      cases c with
      | load => exact absurd hx Bool.false_ne_true
      | order o =>
        cases o with
        | closeRom => exact absurd hx Bool.false_ne_true
        | _ => exact ⟨ha, hc, hr⟩
      | _ => exact ⟨ha, hc, hr⟩
    | _ => exact ⟨ha, hc, hr⟩

section Unasked

variable {s s₁ s' : Scheduler σ} {new old : List Entry} {x : Entry} {p p' : Point}

/-- One stretch without a load after another. -/
theorem Unasked.trans (h : Unasked s s₁ old) (h' : Unasked s₁ s' new) :
    Unasked s s' (new ++ old) where
  history := by rw [h'.history, h.history, List.append_assoc]
  unattempted l := by rw [List.append_assoc, h'.unattempted, h.unattempted]
  unclosed := by rw [closings_append, h'.unclosed, h.unclosed]
  waits := by rw [h'.waits, h.waits, lastRequested?_append, Option.or_assoc]
  loaded := h'.loaded.trans h.loaded
  rom := h'.rom.trans h.rom

/-- A stretch in which nothing has to do with loads. -/
theorem Unasked.of_loadless (hh : s'.history = new ++ s.history)
    (hn : ∀ x ∈ new, x.action.isLoadless = true)
    (hw : s'.shared.requests.rom = s.shared.requests.rom) (hl : s'.romLoaded = s.romLoaded)
    (hr : s'.shared.rom? = s.shared.rom?) : Unasked s s' new := by
  obtain ⟨unattempted, unclosed, unrequested⟩ := loadless hn
  refine ⟨hh, unattempted, unclosed, ?_, hl, hr⟩
  rw [unrequested, hw]
  rfl

theorem Unasked.same (hh : s'.history = s.history)
    (hw : s'.shared.requests.rom = s.shared.requests.rom) (hl : s'.romLoaded = s.romLoaded)
    (hr : s'.shared.rom? = s.shared.rom?) : Unasked s s' [] :=
  .of_loadless hh (fun _ hx => absurd hx List.not_mem_nil) hw hl hr

theorem Unasked.one (hh : s'.history = x :: s.history) (hx : x.action.isLoadless = true)
    (hw : s'.shared.requests.rom = s.shared.requests.rom) (hl : s'.romLoaded = s.romLoaded)
    (hr : s'.shared.rom? = s.shared.rom?) : Unasked s s' [x] :=
  .of_loadless hh (fun _ hy => List.mem_singleton.mp hy ▸ hx) hw hl hr

variable (e) in
/-- A section of the audio lock asks for no load. -/
theorem unasked_withAudio (s : Scheduler σ) (change : Audio → Audio × Option Bool) :
    ∃ new, Unasked s (s.withAudio e change) new := by
  refine ⟨_, .of_loadless (withAudio_history ..) (fun x hx => ?_) (by rw [withAudio_shared])
    (by simp) (by rw [withAudio_shared])⟩
  obtain ⟨muted, rfl | rfl⟩ := mem_told hx <;> rfl

variable (e) in
/-- A request for a load waits until the loop comes to it. -/
theorem unasked_control (s : Scheduler σ) (c : Control) :
    ∃ new, Unasked s (s.control e c) new := by
  refine ⟨toldEntries (s.shared.control c).view (s.shared.toldBy c) ++ [⟨.control c, s.view⟩],
    ?_, fun h => ?_, ?_, ?_, control_romLoaded .., ?_⟩
  · rw [control_history, List.append_assoc]
    rfl
  · rw [List.append_assoc, attempts_told]
    rfl
  · rw [closings_told]
    rfl
  · rw [control_shared, rom_control, lastRequested?_told]
    cases c <;> rfl
  · rw [control_shared, Shared.control_rom?]

variable (e) in
/-- Nor do controls, one after the other. -/
theorem unasked_controls (s : Scheduler σ) (cs : List Control) :
    ∃ new, Unasked s (s.controls e cs) new := by
  induction cs generalizing s with
  | nil => exact ⟨[], .same rfl rfl rfl rfl⟩
  | cons c cs ih =>
    obtain ⟨old, first⟩ := unasked_control e s c
    obtain ⟨new, rest⟩ := ih (s.control e c)
    exact ⟨_, first.trans rest⟩

/-- The places of the loop where it settles a load, or closes the ROM. -/
def Point.Loads : Point → Prop
  | .loading | .closing _ | .asking _ | .inLoad _ _ | .emptying _ => True
  | _ => False

/-- **Everywhere else a step of the loop asks for no load.** -/
theorem unasked_of_loop (hl : Loop e p s p' s') (hp : ¬p.Loads) : ∃ new, Unasked s s' new := by
  -- the steps with a choice of their own come first, then those that add one entry and those that
  -- add none
  cases hl with
  | create hc =>
    obtain ⟨files, rfl⟩ := createTree_cases hc
    exact ⟨_, .one rfl rfl rfl rfl rfl⟩
  | purge hc =>
    obtain ⟨files, rfl | ⟨removed, rfl⟩⟩ := purgeImages_cases hc
    · exact ⟨_, .same rfl rfl rfl rfl⟩
    · exact ⟨_, .one rfl rfl rfl rfl rfl⟩
  | engage =>
    obtain ⟨new, engaged⟩ := unasked_withAudio e s Audio.engage
    have prepared : Unasked (s.withAudio e Audio.engage)
        ((s.withAudio e Audio.engage).record
          (.prepared (WorkingTree.below s.workingDirectory).root)) _ :=
      .one rfl rfl rfl rfl rfl
    exact ⟨_, (engaged.trans prepared).trans (.one rfl rfl rfl rfl rfl)⟩
  | apply ha =>
    obtain ⟨-, rfl, rfl⟩ | ⟨mode, -, ⟨rfl, rfl⟩ | ⟨rfl, rfl⟩⟩ := applyMode_cases ha
    · exact ⟨_, .same rfl rfl rfl rfl⟩
    · exact ⟨_, .one rfl rfl (Requests.rom_takeMode ..) rfl rfl⟩
    · exact ⟨_, .same rfl (Requests.rom_takeMode ..) rfl rfl⟩
  | unmute => exact unasked_withAudio e s _
  | @present _ n now =>
    obtain ⟨rate, window, heq⟩ := present_cases (s := s) n now
    rw [heq]
    exact ⟨_, .one rfl rfl rfl rfl rfl⟩
  | noLoad | takeLoad | close | load | accept | reject | empty => exact absurd trivial hp
  | halt | first | begin | direct | setUp | announce | configure | run | step | publish | stop
  | abort | vanish => exact ⟨_, .one rfl rfl rfl rfl rfl⟩
  | skip | setUpEnds | check | configured | choose | rest | lock | again | finish | giveUp
  | abandon | park | sleep | requestStop => exact ⟨_, .same rfl rfl rfl rfl⟩

end Unasked

/-! ### What waits was requested last -/

/-- If a load waits it is the last one that was requested. -/
def Latest (s : Scheduler σ) : Prop :=
  ∀ rom, s.shared.requests.rom.value? = some rom → lastRequested? s.history = some rom

section Latest

variable {s₀ s s' : Scheduler σ} {new : List Entry} {p p' : Point}

/-- Where no load is taken, the one that waits is still the last one requested. -/
theorem Latest.unasked (h : Latest s) (hu : Unasked s s' new) : Latest s' := by
  intro rom hw
  rw [hu.waits] at hw
  rw [hu.history, lastRequested?_append]
  obtain newer | ⟨none, older⟩ := Option.or_eq_some_iff.mp hw
  · rw [newer]
    rfl
  · rw [none, h rom older]
    rfl

/-- The loop takes a load as a whole, and then none waits. -/
theorem latest_loop (h : Latest s) (hl : Loop e p s p' s') : Latest s' := by
  by_cases hp : p.Loads
  · cases hl with
    | takeLoad => exact nofun
    | close | empty =>
      obtain ⟨-, heq⟩ | ⟨-, heq⟩ := closeRom_cases e s
      · rw [heq]
        exact h
      · rw [heq]
        exact h
    | noLoad | load | accept | reject => exact h
    | _ => exact hp.elim
  · obtain ⟨new, unasked⟩ := unasked_of_loop hl hp
    exact h.unasked unasked

/-- If a load waits it is always the last one requested. -/
theorem latest_reached (h : Latest s₀) (hr : Reached e s₀ p s) : Latest s := by
  induction hr with
  | start => exact h
  | loop _ hl ih => exact latest_loop ih hl
  | control _ _ c ih =>
    obtain ⟨new, unasked⟩ := unasked_control e _ c
    exact ih.unasked unasked
  | outside _ _ _ ih => exact ih

end Latest

/-- The loop and the controllers agree at all times on whether a ROM is open. -/
theorem agreed_reached {s₀ s : Scheduler σ} {p : Point}
    (h : s₀.romLoaded = s₀.shared.rom?.isSome) (hr : Reached e s₀ p s) :
    s.romLoaded = s.shared.rom?.isSome := by
  induction hr with
  | start => exact h
  | loop _ hl ih => exact agreed_loop ih hl
  | control _ _ c ih =>
    rw [control_romLoaded, control_shared, Shared.control_rom?]
    exact ih
  | outside _ _ _ ih => exact ih

/-! ### Settling a load -/

/-- What the engine does about a ROM, after it has closed the one that is open. -/
def Scheduler.loadVisit (e : Engine σ) (s : Scheduler σ) (rom : Path) : Visit σ Bool :=
  e.load (if s.romLoaded then e.obey s.engine .closeRom else s.engine) s.files rom

/-- A load from `s` to `s'`, with `new` for what happened. -/
structure LoadSettled (e : Engine σ) (rom : Path) (s s' : Scheduler σ) (new : List Entry) :
    Prop where
  history : s'.history = new ++ s.history
  /-- The engine was asked for this ROM alone, with the answer of its visit, -/
  attempted : attempts s'.history = (rom, some (s.loadVisit e rom).answer) :: attempts s.history
  /-- and the ROM that was open was closed. -/
  closed : closings new = if s.romLoaded then 1 else 0
  requested : lastRequested? new = ((s.loadVisit e rom).controls.filterMap Control.load?).getLast?
  waits : s'.shared.requests.rom.value? = lastRequested? new
  loaded : s'.romLoaded = (s.loadVisit e rom).answer
  rom? : s'.shared.rom? = if (s.loadVisit e rom).answer then some rom else none
  /-- An accepted ROM ends the pause; otherwise the flag is as controllers left it. -/
  paused : s'.shared.paused =
    if (s.loadVisit e rom).answer then false
    else (((s.loadVisit e rom).controls.filterMap Control.pause?).getLast?).getD s.shared.paused

/-- The load was taken and announced, and the ROM of before is closed. -/
structure Cleared (e : Engine σ) (s s' : Scheduler σ) (new : List Entry) : Prop where
  history : s'.history = new ++ s.history
  unattempted : attempts s'.history = attempts s.history
  closed : closings new = if s.romLoaded then 1 else 0
  unrequested : lastRequested? new = none
  engine : s'.engine = if s.romLoaded then e.obey s.engine .closeRom else s.engine
  files : s'.files = s.files
  waits : s'.shared.requests.rom.value? = none
  loaded : s'.romLoaded = false
  rom : s'.shared.rom? = none
  paused : s'.shared.paused = s.shared.paused

section Settle

variable {s : Scheduler σ} {rom : Path}

/-- Before the engine is asked the load is announced, and the ROM of before is closed. -/
theorem cleared (agreed : s.romLoaded = s.shared.rom?.isSome) (rom : Path) :
    ∃ new, Cleared e s
      (((s.modify fun h => { h with requests := { h.requests with rom := .empty } }).emit
        (.started rom)).closeRom e) new := by
  generalize hs₁ : (s.modify fun h => { h with requests := { h.requests with rom := .empty } }).emit
    (.started rom) = s₁
  have loaded : s₁.romLoaded = s.romLoaded := by rw [← hs₁]; rfl
  -- either no ROM was open, and none shows, or it is closed and taken off
  obtain ⟨empty, heq⟩ | ⟨open', heq⟩ := closeRom_cases e s₁
  · have empty : s.romLoaded = false := loaded.symm.trans empty
    rw [heq, ← hs₁]
    rw [empty] at agreed
    refine ⟨[_], rfl, rfl, by rw [empty]; rfl, rfl, by rw [empty]; rfl, rfl, rfl, empty, ?_, rfl⟩
    exact Option.not_isSome_iff_eq_none.mp (ne_true_of_eq_false agreed.symm)
  · have open' : s.romLoaded = true := loaded.symm.trans open'
    rw [heq, ← hs₁]
    exact ⟨[_, _], rfl, rfl, by rw [open']; rfl, rfl, by rw [open']; rfl, rfl, rfl, rfl, rfl, rfl⟩

/-- The engine was called, and controllers have acted from inside the call. -/
structure Visited (e : Engine σ) (rom : Path) (s s' : Scheduler σ) (new : List Entry) : Prop where
  history : s'.history = new ++ s.history
  unanswered : attempts s'.history = (rom, none) :: attempts s.history
  closed : closings new = if s.romLoaded then 1 else 0
  requested : lastRequested? new = ((s.loadVisit e rom).controls.filterMap Control.load?).getLast?
  waits : s'.shared.requests.rom.value? = lastRequested? new
  loaded : s'.romLoaded = false
  rom? : s'.shared.rom? = none
  paused : s'.shared.paused =
    (((s.loadVisit e rom).controls.filterMap Control.pause?).getLast?).getD s.shared.paused

/-- The call, and what controllers do from inside it. -/
theorem visited {c : Scheduler σ} {old : List Entry} (clear : Cleared e s c old) (rom : Path) :
    ∃ new, Visited e rom s
      ({ c.record (.call (.load rom)) with engine := (s.loadVisit e rom).engine }.controls e
        (s.loadVisit e rom).controls) new := by
  generalize hv : s.loadVisit e rom = v
  generalize hs₁ : ({ c.record (.call (.load rom)) with engine := v.engine } : Scheduler σ) = s₁
  have called : s₁.history = ⟨.call (.load rom), c.view⟩ :: c.history := by rw [← hs₁]; rfl
  have shared : s₁.shared = c.shared := by rw [← hs₁]; rfl
  have open' : s₁.romLoaded = c.romLoaded := by rw [← hs₁]; rfl
  obtain ⟨mid, unasked⟩ := unasked_controls e s₁ v.controls
  -- what waits after the visit was requested in it, for the mailbox was empty
  have waits : (s₁.controls e v.controls).shared.requests.rom.value? = lastRequested? mid := by
    rw [unasked.waits, shared, clear.waits, Option.or_none]
  have requested : lastRequested? (mid ++ ⟨.call (.load rom), c.view⟩ :: old) =
      lastRequested? mid := by
    rw [lastRequested?_append]
    change (lastRequested? mid).or (lastRequested? old) = _
    rw [clear.unrequested, Option.or_none]
  have paused : some (s₁.controls e v.controls).shared.paused =
      (v.controls.filterMap Control.pause?).getLast?.or (some s₁.shared.paused) :=
    last_left (fun h => some h.paused) paused_control
  refine ⟨mid ++ ⟨.call (.load rom), c.view⟩ :: old, ?_, ?_, ?_, ?_, ?_, ?_, ?_, ?_⟩
  · rw [unasked.history, called, clear.history, List.append_assoc, List.cons_append]
  · rw [unasked.history, unasked.unattempted, called, ← clear.unattempted]
    rfl
  · rw [closings_append, unasked.unclosed, Nat.zero_add]
    exact clear.closed
  · rw [requested, ← waits, rom_controls, shared, clear.waits, Option.or_none, hv]
  · rw [waits, requested]
  · rw [unasked.loaded, open', clear.loaded]
  · rw [unasked.rom, shared, clear.rom]
  · rw [shared, clear.paused] at paused
    rw [hv]
    cases hl : (v.controls.filterMap Control.pause?).getLast? <;> rw [hl] at paused <;>
      exact Option.some.inj paused

/-- **What settling a load comes to.** -/
theorem settled_of_waits (agreed : s.romLoaded = s.shared.rom?.isSome)
    (waits : s.shared.requests.rom.value? = some rom) (now : Nat) :
    ∃ new, LoadSettled e rom s (s.settleLoad e now) new := by
  have taken : s.settleLoad e now =
      (((s.modify fun h => { h with requests := { h.requests with rom := .empty } }).emit
        (.started rom)).closeRom e).loadRom e rom now := by
    unfold Scheduler.settleLoad Mailbox.take
    rw [waits]
  obtain ⟨old, clear⟩ := cleared (e := e) agreed rom
  rw [taken]
  generalize Scheduler.closeRom e _ = c at clear
  obtain ⟨new, visit⟩ := visited clear rom
  -- the announcement and the closing leave the engine and the files as the visit finds them
  have called : e.load (c.record (.call (.load rom))).engine (c.record (.call (.load rom))).files
      rom = s.loadVisit e rom := by
    change e.load c.engine c.files rom = _
    rw [clear.engine, clear.files]
    rfl
  unfold Scheduler.loadRom
  dsimp only
  rw [called]
  generalize Scheduler.controls e _ _ = s₁ at visit
  -- an acceptance adds two entries to those of the visit, and a refusal three
  cases answer : (s.loadVisit e rom).answer with
  | true =>
    rw [if_pos rfl]
    have history := acceptRom_history e s₁ rom now
    rw [visit.history] at history
    refine ⟨_ :: _ :: new, history, ?_, visit.closed, visit.requested, visit.waits, answer.symm,
      ?_, ?_⟩
    · rw [acceptRom_history, answer]
      exact congrArg (EmuScheduler.answer true) visit.unanswered
    · rw [answer]
      rfl
    · rw [answer]
      rfl
  | false =>
    rw [if_neg Bool.false_ne_true]
    have history := rejectRom_history s₁ rom
    rw [visit.history] at history
    refine ⟨_ :: _ :: _ :: new, history, ?_, visit.closed, visit.requested, visit.waits, ?_, ?_, ?_⟩
    · rw [rejectRom_history, answer]
      exact congrArg (EmuScheduler.answer false) visit.unanswered
    · rw [answer]
      exact visit.loaded
    · rw [answer]
      exact visit.rom?
    · rw [answer]
      exact visit.paused

end Settle

/-! ### After the load -/

/-- From here on the engine stays set up, comes back from every step, and does not fast-forward for
ever. -/
structure Orderly (e : Engine σ) (s : Scheduler σ) : Prop where
  ready : ∀ p t, Reached e s p t → e.isReady t.engine = true
  returns : ∀ n t, Reached e s (.stepping n) t → (t.stepOnce e).1 = false
  ends : ∀ t, Reached e s (.stepping 0) t →
    ∃ n, e.fastForwards (t.afterSteps e (n + 1)).engine = false

/-- From `s` to `s'` nothing that is shared has changed but the mode changes that wait. -/
def OnlyModes (s s' : Scheduler σ) : Prop :=
  ∃ r, s'.shared = { s.shared with requests := r } ∧ r.rom = s.shared.requests.rom

section After

variable {s₀ s s₁ s' : Scheduler σ} {p : Point}

theorem OnlyModes.trans (h : OnlyModes s s₁) (h' : OnlyModes s₁ s') : OnlyModes s s' := by
  obtain ⟨r, shared, rom⟩ := h
  obtain ⟨r', shared', rom'⟩ := h'
  rw [shared] at shared' rom'
  exact ⟨r', shared', rom'.trans rom⟩

/-- To apply a mode takes it out of its mailbox, and touches nothing else that is shared. -/
theorem onlyModes_applyMode (e : Engine σ) (s : Scheduler σ) (k : ModeKind) :
    OnlyModes s (s.applyMode e k).2 := by
  obtain ⟨-, -, heq⟩ | ⟨mode, -, ⟨-, heq⟩ | ⟨-, heq⟩⟩ :=
    applyMode_cases (e := e) (Prod.eta (s.applyMode e k)).symm
  all_goals rw [heq]
  · exact ⟨_, rfl, rfl⟩
  · exact ⟨_, rfl, Requests.rom_takeMode ..⟩
  · exact ⟨_, rfl, Requests.rom_takeMode ..⟩

/-- A mode is refused only for an engine that is not ready. -/
theorem applyMode_of_ready (ready : e.isReady s.engine = true) (k : ModeKind) :
    (s.applyMode e k).1 = .ok () := by
  unfold Scheduler.applyMode
  split
  · rfl
  · unfold requireReady Scheduler.followedBy
    rw [if_pos ready]

/-- The modes are given to an engine that stays set up, and nothing else changes. -/
theorem applied_of_ready (orderly : Orderly e s₀) {ks : List ModeKind}
    (hr : Reached e s₀ (.applying ks) s) :
    ∃ s' new, applyModes e ks s = (.ok (), s') ∧ Reached e s₀ .choosing s' ∧ Unasked s s' new ∧
      OnlyModes s s' := by
  -- by induction on the modes still to be looked at; the engine stays ready on the way
  induction ks generalizing s with
  | nil =>
    exact ⟨s, [], rfl, hr.loop .configured, .same rfl rfl rfl rfl, s.shared.requests, rfl, rfl⟩
  | cons k ks ih =>
    have applied := applyMode_of_ready (orderly.ready _ _ hr) k
    have step : Loop e (.applying (k :: ks)) s (.after (s.applyMode e k).1 (.applying ks))
        (s.applyMode e k).2 := .apply rfl
    obtain ⟨new, first⟩ := unasked_of_loop step id
    rw [applied] at step
    obtain ⟨s', newer, rest, reached, second, configured⟩ := ih (hr.loop step)
    refine ⟨s', _, ?_, reached, first.trans second, (onlyModes_applyMode e s k).trans configured⟩
    unfold Scheduler.applyModes Scheduler.followedBy
    rw [applied]
    exact rest

/-- So the whole stage goes through. -/
theorem configured_of_ready (orderly : Orderly e s₀) (hr : Reached e s₀ .configuring s) :
    ∃ s' new, s.configure e = (.ok (), s') ∧ Reached e s₀ .choosing s' ∧ Unasked s s' new ∧
      OnlyModes s s' := by
  obtain ⟨s', new, applied, reached, rest, configured⟩ :=
    applied_of_ready orderly (hr.loop .configure)
  have begun : Unasked s (s.record .configure) _ := .one rfl rfl rfl rfl rfl
  exact ⟨s', _, applied, reached, begun.trans rest, configured⟩

/-- As long as the engine fast-forwards the loop goes on stepping. -/
theorem reached_afterSteps {n : Nat} (hr : Reached e s₀ (.stepping 0) s) (h : FastForwards e s n) :
    Reached e s₀ (.stepping (.ofNat n)) (s.afterSteps e n) := by
  induction n with
  | zero => exact hr
  | succ n ih =>
    obtain ⟨comes, again⟩ := h n (Nat.lt_succ_self n)
    have stepped := (ih fun j hj => h j (Nat.lt_succ_of_lt hj)).stepOnce
    rw [comes, ← afterSteps_succ] at stepped
    rw [UInt64.ofNat_add]
    exact stepped.loop (.again again)

/-- **A burst of an orderly engine is finished**, if enough steps are allowed. -/
theorem burst_of_orderly (orderly : Orderly e s₀) (hr : Reached e s₀ (.stepping 0) s) :
    ∃ enough, ∀ limit, enough ≤ limit →
      ∃ k, s.burst e limit 0 = (.finished (.ofNat (k + 1)), s.afterSteps e (k + 1)) := by
  obtain ⟨n, slow⟩ := orderly.ends s hr
  refine ⟨n + 1, fun limit enough => ?_⟩
  obtain ⟨k, fast, ends⟩ := burst_cases (e := e) (Prod.eta (s.burst e limit 0)).symm
  obtain ⟨how, heq, -⟩ | ⟨-, gaveUp⟩ | ⟨-, rfl⟩ := ends
  · rw [UInt64.zero_add] at how
    exact ⟨k, Prod.ext how heq⟩
  · exact absurd ((orderly.returns _ _ (reached_afterSteps hr fast)).symm.trans gaveUp)
      Bool.false_ne_true
  · exact absurd (slow.symm.trans (fast n enough).2) Bool.false_ne_true

/-- A burst begins with a step. -/
theorem suffix_afterSteps (n : Nat) :
    ⟨.call .step, s.view⟩ :: s.history <:+ (s.afterSteps e (n + 1)).history := by
  induction n with
  | zero =>
    -- controllers act after the call
    obtain ⟨t, cs, heq, called⟩ : ∃ (t : Scheduler σ) (cs : _), (s.stepOnce e).2 = t.controls e cs ∧
        t.history = ⟨.call .step, s.view⟩ :: s.history := ⟨_, _, rfl, rfl⟩
    obtain ⟨new, visit⟩ := unasked_controls e t cs
    rw [afterSteps_succ]
    change _ <:+ (s.stepOnce e).2.history
    rw [heq, ← called]
    exact ⟨new, visit.history.symm⟩
  | succ n ih =>
    obtain ⟨new, spell, -⟩ := spell_stepOnce (e := e) (s.afterSteps e (n + 1))
    rw [afterSteps_succ]
    exact ih.trans ⟨new, spell.history.symm⟩

/-- Steps ask for no load. -/
theorem unasked_afterSteps (n : Nat) : ∃ new, Unasked s (s.afterSteps e n) new := by
  induction n with
  | zero => exact ⟨[], .same rfl rfl rfl rfl⟩
  | succ n ih =>
    obtain ⟨old, before⟩ := ih
    obtain ⟨called, step⟩ :=
      unasked_of_loop (Loop.step (e := e) (s := s.afterSteps e n) (n := 0)) id
    obtain ⟨new, visit⟩ := unasked_controls e _
      (e.step (s.afterSteps e n).engine (s.afterSteps e n).shared.frame.buffer).controls
    rw [afterSteps_succ]
    exact ⟨_, before.trans (step.trans visit)⟩

/-- Nor does beginning a frame. -/
theorem unasked_enter (s : Scheduler σ) : ∃ new, Unasked s (s.enter e) new := by
  obtain ⟨old, published⟩ := unasked_of_loop (Loop.run (e := e) (s := s)) id
  obtain ⟨new, unmuted⟩ := unasked_of_loop (Loop.unmute (e := e) (s := s.publish .running)) id
  exact ⟨_, published.trans (unmuted.trans (.same rfl rfl rfl rfl))⟩

/-- The scheduler after a frame of `k + 1` steps, which is made known at `now`. -/
def Scheduler.framed (e : Engine σ) (s : Scheduler σ) (k now : Nat) : Scheduler σ :=
  ((s.enter e).afterSteps e (k + 1)).leave.present (.ofNat (k + 1)) now

/-- With a ROM to run on an engine that is ready, a burst that is finished makes a frame. -/
theorem runOrPark_of_burst {k now limit : Nat}
    (runs : (s.romLoaded && !s.shared.paused) = true) (ready : e.isReady s.engine = true)
    (burst : (s.enter e).burst e limit 0 =
      (.finished (.ofNat (k + 1)), (s.enter e).afterSteps e (k + 1))) :
    s.runOrPark e now limit = (.done (.stepped (.ofNat (k + 1))), s.framed e k now) := by
  obtain ⟨rests, -⟩ | ⟨-, ⟨unready, -⟩ | ⟨-, how, s₁, hb, ends⟩⟩ :=
    runOrPark_cases (e := e) (Prod.eta (s.runOrPark e now limit)).symm
  · exact absurd (rests.symm.trans runs) Bool.false_ne_true
  · exact absurd (unready.symm.trans ready) Bool.false_ne_true
  · obtain ⟨rfl, rfl⟩ := Prod.mk.inj (hb.symm.trans burst)
    obtain ⟨steps, ⟨⟩, hr, hs⟩ | ⟨⟨⟩, -⟩ | ⟨⟨⟩, -⟩ := ends
    exact Prod.ext hr hs

/-- To make a frame asks for no load. -/
theorem unasked_framed (s : Scheduler σ) (k now : Nat) :
    ∃ new, Unasked s (s.framed e k now) new := by
  obtain ⟨old, opened⟩ := unasked_enter (e := e) s
  obtain ⟨steps, stepped⟩ := unasked_afterSteps (e := e) (s := s.enter e) (k + 1)
  obtain ⟨new, ended⟩ := unasked_of_loop (Loop.present (e := e)
    (s := ((s.enter e).afterSteps e (k + 1)).leave) (n := .ofNat (k + 1)) now) id
  have left : Unasked ((s.enter e).afterSteps e (k + 1))
      ((s.enter e).afterSteps e (k + 1)).leave [] := .same rfl rfl rfl rfl
  exact ⟨_, opened.trans (stepped.trans (left.trans ended))⟩

/-- Behind its opening a frame begins with a step. -/
theorem suffix_framed (s : Scheduler σ) (k now : Nat) :
    ⟨.call .step, (s.enter e).view⟩ :: (s.enter e).history <:+ (s.framed e k now).history := by
  obtain ⟨rate, window, made⟩ :=
    present_cases ((s.enter e).afterSteps e (k + 1)).leave (.ofNat (k + 1)) now
  unfold Scheduler.framed
  rw [made]
  exact (suffix_afterSteps k).trans (List.suffix_cons _ _)

/-- The opening of a frame asks the engine for no step. -/
theorem stepCount_enter (s : Scheduler σ) :
    stepCount (s.enter e).history = stepCount s.history ∧ s.history <:+ (s.enter e).history := by
  obtain ⟨locked, new, still, entered⟩ := still_enter (e := e) s
  have history : (s.enter e).history = new ++ s.history := by
    rw [entered]
    exact still.history
  rw [history]
  refine ⟨?_, List.suffix_append _ _⟩
  rw [stepCount_append, still.unstepped, Nat.zero_add]

/-- A frame is made of its steps. -/
theorem stepCount_framed (s : Scheduler σ) (k now : Nat) :
    stepCount (s.framed e k now).history = stepCount s.history + (k + 1) := by
  obtain ⟨during, burst, steps⟩ := spell_afterSteps (e := e) (s := s.enter e) (k + 1)
  obtain ⟨rate, window, made⟩ :=
    present_cases ((s.enter e).afterSteps e (k + 1)).leave (.ofNat (k + 1)) now
  unfold Scheduler.framed
  rw [made]
  change stepCount ((s.enter e).afterSteps e (k + 1)).history = _
  rw [burst.history, stepCount_append, steps, (stepCount_enter s).1, Nat.add_comm]

end After

/-! ### What the tick comes to -/

/-- A tick from `s` to `s'` that takes a load; `new` is what happened in it. -/
structure LoadTaken (e : Engine σ) (rom : Path) (s s' : Scheduler σ) (new : List Entry) : Prop where
  history : s'.history = new ++ s.history
  /-- The engine is asked for this ROM and no other, -/
  attempted : attempts s'.history = (rom, some (s.loadVisit e rom).answer) :: attempts s.history
  /-- and to close the one that is open. -/
  closed : closings new = if s.romLoaded then 1 else 0
  /-- What was requested last in the tick waits for the next one; -/
  waits : s'.shared.requests.rom.value? = lastRequested? new
  /-- so a load waits if one was requested from inside this one. -/
  kept : ∀ other, .load other ∈ (s.loadVisit e rom).controls →
    s'.shared.requests.rom.isPending = true

/-- The tick has accepted the ROM: it shows, and a frame was made, with no pause when its first step
begins. -/
structure LoadAccepted (rom : Path) (s s' : Scheduler σ) (r : TickResult) : Prop where
  /-- The engine made a step or more, and the result says how many, modulo 2^64. -/
  stepped : ∃ k, 0 < k ∧ r = .done (.stepped (.ofNat k)) ∧
    stepCount s'.history = stepCount s.history + k
  rom? : s'.shared.rom? = some rom
  runs : ∃ v older, ⟨.call .step, v⟩ :: older <:+ s'.history ∧ s.history <:+ older ∧
    stepCount older = stepCount s.history ∧ v.paused = false

/-- The tick has refused the ROM: there is none, and only controllers have touched the pause. -/
structure LoadRefused (e : Engine σ) (rom : Path) (s s' : Scheduler σ) (r : TickResult) : Prop where
  parked : r = .done .parked
  rom? : s'.shared.rom? = none
  steps : stepCount s'.history = stepCount s.history
  frames : s'.shared.counter.frames = s.shared.counter.frames
  paused : s'.shared.paused =
    (((s.loadVisit e rom).controls.filterMap Control.pause?).getLast?).getD s.shared.paused
  waits : s'.shared.requests.rom.value? =
    ((s.loadVisit e rom).controls.filterMap Control.load?).getLast?

section Outcome

variable {s s₁ s₂ s' : Scheduler σ} {rom : Path} {new old : List Entry} {times : TickTimes}

/-- Where a load was requested one was requested last. -/
theorem mem_load? {cs : List Control} (hc : .load rom ∈ cs) :
    (cs.filterMap Control.load?).getLast?.isSome = true := by
  have some : rom ∈ cs.filterMap Control.load? := List.mem_filterMap.mpr ⟨_, hc, rfl⟩
  exact List.getLast?_isSome.mpr (List.ne_nil_of_mem some)

/-- The rest of the tick asks for no other load. -/
theorem LoadSettled.rest (h : LoadSettled e rom (s.record .tick) s₁ old) (hu : Unasked s₁ s' new) :
    LoadTaken e rom s s' (new ++ old ++ [⟨.tick, s.view⟩]) := by
  -- what waits in the end was requested after the load was taken, from inside it or later
  have waits : s'.shared.requests.rom.value? = (lastRequested? new).or (lastRequested? old) := by
    rw [hu.waits, h.waits]
  refine ⟨?_, ?_, ?_, ?_, fun other ho => ?_⟩
  · rw [hu.history, h.history, List.append_assoc, List.append_assoc]
    rfl
  · rw [hu.history, hu.unattempted]
    exact h.attempted
  · rw [closings_append, closings_append, hu.unclosed, Nat.zero_add]
    exact h.closed
  · rw [waits, lastRequested?_append, lastRequested?_append]
    exact (Option.or_none ..).symm
  · have inside : (lastRequested? old).isSome = true := by
      rw [h.requested]
      exact mem_load? ho
    unfold Mailbox.isPending
    rw [waits, Option.isSome_or, inside, Bool.or_true]

/-- A tick from `s` has settled its load in `s₁` and given the engine its modes, and comes to the
choice between running and parking in `s₂`. -/
structure Chosen (e : Engine σ) (rom : Path) (s s₁ s₂ : Scheduler σ)
    (old new between : List Entry) : Prop where
  settled : LoadSettled e rom (s.record .tick) s₁ old
  unasked : Unasked s₁ s₂ new
  configured : OnlyModes s₁ s₂
  still : Still s s₂ between
  reached : Reached e s .choosing s₂

/-- **A tick of an orderly engine comes with its load to that choice.** -/
theorem chosen_of_waits (orderly : Orderly e s) (agreed : s.romLoaded = s.shared.rom?.isSome)
    (known : s.shared.phase ≠ .uninitialized) (going : s.shared.stopping = false)
    (waits : s.shared.requests.rom.value? = some rom) (times : TickTimes) :
    ∃ s₁ s₂ old new between, Chosen e rom s s₁ s₂ old new between ∧
      ∀ limit, s.tick e times limit = s₂.runOrPark e times.presented limit := by
  obtain ⟨old, settled⟩ :=
    settled_of_waits (e := e) (s := s.record .tick) agreed waits times.loaded
  -- two readings of the same way: where it leads, and that no frame is made on it
  have loading : Preamble e .loading (s.record .tick) .configuring
      ((s.record .tick).settleLoad e times.loaded) := Preamble.settleLoad .start times.loaded
  have begun : Reached e s .loading (s.record .tick) := Reached.start.loop (.begin going known)
  obtain ⟨s₂, new, configured, chosen, unasked, shared⟩ :=
    configured_of_ready orderly (begun.preamble loading)
  have recorded : Still s (s.record .tick) [_] := .one rfl rfl ⟨rfl, rfl⟩ rfl rfl
  have choosing := loading.configure
  rw [configured] at choosing
  obtain ⟨between, still⟩ := still_of_preamble choosing
  refine ⟨_, s₂, old, new, _, ⟨settled, unasked, shared, recorded.trans still, chosen⟩,
    fun limit => ?_⟩
  obtain ⟨error, failed, -⟩ | ⟨-, ticked⟩ := tick_of_known known going times limit configured
  · exact absurd failed nofun
  · exact ticked

/-- After a refusal the loop parks. -/
theorem Chosen.refused {between : List Entry} (h : Chosen e rom s s₁ s₂ old new between)
    (refused : (s.loadVisit e rom).answer = false) (now limit : Nat) :
    ∃ s' new, s₂.runOrPark e now limit = (.done .parked, s') ∧ LoadTaken e rom s s' new ∧
      LoadRefused e rom s s' (.done .parked) := by
  have unloaded : s₂.romLoaded = false := by
    rw [h.unasked.loaded, h.settled.loaded]
    exact refused
  -- without a ROM there is nothing to run
  have rests : s₂.runOrPark e now limit = (.done .parked, s₂.park) := by
    unfold Scheduler.runOrPark
    rw [unloaded]
    rfl
  have parked : Unasked s₂ s₂.park [_] := .one rfl rfl rfl rfl rfl
  have parkedStill : Still s₂ s₂.park [_] := .one rfl rfl ⟨rfl, rfl⟩ rfl rfl
  have whole := h.still.trans parkedStill
  obtain ⟨r, shared, same⟩ := h.configured
  refine ⟨s₂.park, _, rests, h.settled.rest (h.unasked.trans parked), rfl, ?_, ?_, whole.frames,
    ?_, ?_⟩
  · rw [parked.rom, h.unasked.rom, h.settled.rom?]
    exact if_neg (ne_true_of_eq_false refused)
  · rw [whole.history, stepCount_append, whole.unstepped, Nat.zero_add]
  · change s₂.shared.paused = _
    rw [shared]
    change s₁.shared.paused = _
    rw [h.settled.paused]
    exact if_neg (ne_true_of_eq_false refused)
  · change s₂.shared.requests.rom.value? = _
    rw [shared]
    change r.rom.value? = _
    rw [same, h.settled.waits]
    exact h.settled.requested

/-- After an acceptance it runs. -/
theorem Chosen.accepted {between : List Entry} (h : Chosen e rom s s₁ s₂ old new between)
    (orderly : Orderly e s) (accepted : (s.loadVisit e rom).answer = true) (now : Nat) :
    ∃ enough, ∀ limit, enough ≤ limit → ∃ k s' new,
      s₂.runOrPark e now limit = (.done (.stepped (.ofNat (k + 1))), s') ∧
        LoadTaken e rom s s' new ∧ LoadAccepted rom s s' (.done (.stepped (.ofNat (k + 1)))) := by
  have loaded : s₂.romLoaded = true := by
    rw [h.unasked.loaded, h.settled.loaded]
    exact accepted
  have resumed : s₂.shared.paused = false := by
    obtain ⟨r, shared, -⟩ := h.configured
    rw [shared]
    change s₁.shared.paused = _
    rw [h.settled.paused]
    exact if_pos accepted
  have runs : (s₂.romLoaded && !s₂.shared.paused) = true := by
    rw [loaded, resumed]
    rfl
  -- the engine is ready still, so the burst begins
  have ready := orderly.ready _ _ h.reached
  have entered : Reached e s (.stepping 0) (s₂.enter e) := by
    have checked := h.reached.loop (.choose runs)
    unfold Scheduler.requireReady at checked
    rw [if_pos ready] at checked
    exact ((checked.loop .run).loop .unmute).loop .lock
  obtain ⟨enough, finishes⟩ := burst_of_orderly orderly entered
  refine ⟨enough, fun limit hl => ?_⟩
  obtain ⟨k, burst⟩ := finishes limit hl
  obtain ⟨framing, framed⟩ := unasked_framed (e := e) s₂ k now
  obtain ⟨unstepped, opening⟩ := stepCount_enter (e := e) s₂
  have begun : stepCount s₂.history = stepCount s.history := by
    rw [h.still.history, stepCount_append, h.still.unstepped, Nat.zero_add]
  have counted : stepCount (s₂.framed e k now).history = stepCount s.history + (k + 1) := by
    rw [stepCount_framed, begun]
  have older : s.history <:+ (s₂.enter e).history :=
    List.IsSuffix.trans ⟨_, h.still.history.symm⟩ opening
  refine ⟨k, s₂.framed e k now, _, runOrPark_of_burst runs ready burst,
    h.settled.rest (h.unasked.trans framed), ⟨k + 1, Nat.succ_pos k, rfl, counted⟩, ?_,
    (s₂.enter e).view, (s₂.enter e).history, suffix_framed s₂ k now, older,
    unstepped.trans begun, ?_⟩
  · rw [framed.rom, h.unasked.rom, h.settled.rom?]
    exact if_pos accepted
  · change ((s₂.publish .running).withAudio e _).shared.paused = false
    rw [withAudio_shared]
    exact resumed

end Outcome

/-- **What a tick makes of a load.** Whatever came before, the tick asks the engine for the ROM that
was requested last and for no other. If the engine accepts it, the ROM shows and runs, whether or
not there was a pause before or a controller pauses from inside the load; if it refuses, the tick
parks without a ROM, and the pause is what controllers have made of it. A load that is requested
from inside the load waits for the next tick. -/
theorem load_outcome {engine : σ} {workingDirectory : Path} {modes : Modes} {sink : Sink}
    {files : FileTree} {now : Nat} {s : Scheduler σ} {rom : Path}
    (hr : Run e (.start e engine workingDirectory modes sink files now) .between s)
    (prepared : wasPrepared s.history = true) (orderly : Orderly e s)
    (going : s.shared.stopping = false) (waits : s.shared.requests.rom.value? = some rom)
    (times : TickTimes) :
    lastRequested? s.history = some rom ∧
      ∃ enough, ∀ limit, enough ≤ limit → ∃ new,
        LoadTaken e rom s (s.tick e times limit).2 new ∧
        ((s.loadVisit e rom).answer = true →
          LoadAccepted rom s (s.tick e times limit).2 (s.tick e times limit).1) ∧
        ((s.loadVisit e rom).answer = false →
          LoadRefused e rom s (s.tick e times limit).2 (s.tick e times limit).1) := by
  let s₀ : Scheduler σ := .start e engine workingDirectory modes sink files now
  have reached : Reached e s₀ .between s := hr.reached
  -- what earlier ticks leave behind: who was prepared is past the beginning, and a ROM shows only
  -- if one is open
  obtain ⟨sound, heard⟩ := heard_start e engine workingDirectory modes sink files now
  have known : s.shared.phase ≠ .uninitialized := by
    obtain ⟨at', -, -⟩ := heard_reached sound heard reached
    obtain ⟨-, untold⟩ | told := at'
    · exact absurd (untold.unprepared.symm.trans prepared) Bool.false_ne_true
    · exact told.known
  have agreed : s.romLoaded = s.shared.rom?.isSome := agreed_reached rfl reached
  have latest : Latest s :=
    latest_reached (fun rom hw => absurd hw.symm (Option.some_ne_none rom)) reached
  refine ⟨latest rom waits, ?_⟩
  obtain ⟨s₁, s₂, old, new, between, chosen, ticked⟩ :=
    chosen_of_waits orderly agreed known going waits times
  cases answer : (s.loadVisit e rom).answer with
  | true =>
    obtain ⟨enough, accepts⟩ := chosen.accepted orderly answer times.presented
    refine ⟨enough, fun limit hl => ?_⟩
    obtain ⟨k, s', new, runs, taken, accepted⟩ := accepts limit hl
    rw [ticked, runs]
    exact ⟨new, taken, fun _ => accepted, nofun⟩
  | false =>
    refine ⟨0, fun limit _ => ?_⟩
    obtain ⟨s', new, parks, taken, refused⟩ := chosen.refused answer times.presented limit
    rw [ticked, parks]
    exact ⟨new, taken, nofun, fun _ => refused⟩

/-! ### An engine that interferes -/

/-- An engine that pauses, and asks for another ROM, whenever it loads one. -/
def restless : Engine TestPattern :=
  { TestPattern.engine with
    load := fun s files rom =>
      { engine := (s.load files rom).2
        controls := [.pause true, .load (.ofString "/b")]
        answer := (s.load files rom).1 } }

/-- A pattern that is ready stays so, comes back from every step and never fast-forwards. -/
theorem orderly_restless {s : Scheduler TestPattern} (ready : s.engine.ready = true) :
    Orderly restless s where
  ready p t hr := by
    refine (replay_reached hr).kept (P := (TestPattern.ready · = true)) ?_ ?_ ?_ ?_ ready
    · intro g o hg
      cases o <;> exact hg
    · exact fun _ _ => rfl
    · intro g files rom hg
      change (g.load files rom).2.ready = true
      unfold TestPattern.load
      split <;> exact hg
    · exact fun _ _ hg => hg
  returns _ _ _ := rfl
  ends _ _ := ⟨0, rfl⟩

/-- The restless engine is given a ROM that it accepts, with a pause before, and then the one that
it asked for itself, which it refuses: the first runs all the same, and is closed for the second. -/
theorem load_outcome_restless :
    let s₀ : Scheduler TestPattern := .start restless {} (.ofString "/w") {} "main" sample.files 0
    let s₁ := ((s₀.tick restless {} 1).2.control restless (.pause true)).control restless
      (.load sampleRom)
    let s₂ := (s₁.tick restless {} 1).2
    (∃ limit, LoadAccepted sampleRom s₁ (s₁.tick restless {} limit).2
      (s₁.tick restless {} limit).1) ∧
    ∃ limit new, LoadTaken restless (.ofString "/b") s₂ (s₂.tick restless {} limit).2 new ∧
      closings new = 1 ∧ (s₂.tick restless {} limit).1 = .done .parked ∧
      (s₂.tick restless {} limit).2.shared.paused = true ∧
      (s₂.tick restless {} limit).2.shared.requests.rom.isPending = true := by
  intro s₀ s₁ s₂
  -- a tick to prepare, and one for the first load; what it requests from inside is the second one
  have begun : Run restless s₀ .between s₀ := .start
  have parked := begun.done {} 1 .parked (by decide +kernel)
  have first : Run restless s₀ .between s₁ := (parked.control _).control _
  have second : Run restless s₀ .between s₂ := first.done {} 1 (.stepped 1) (by decide +kernel)
  have waits₁ : s₁.shared.requests.rom.value? = some sampleRom := by decide +kernel
  have waits₂ : s₂.shared.requests.rom.value? = some (.ofString "/b") := by decide +kernel
  have accepts : (s₁.loadVisit restless sampleRom).answer = true := by decide +kernel
  have refuses : (s₂.loadVisit restless (.ofString "/b")).answer = false := by decide +kernel
  obtain ⟨-, enough₁, each₁⟩ := load_outcome first (by decide +kernel)
    (orderly_restless (by decide +kernel)) (by decide +kernel) waits₁ {}
  obtain ⟨-, enough₂, each₂⟩ := load_outcome second (by decide +kernel)
    (orderly_restless (by decide +kernel)) (by decide +kernel) waits₂ {}
  obtain ⟨-, -, accepted, -⟩ := each₁ enough₁ le_rfl
  obtain ⟨new, taken, -, refused⟩ := each₂ enough₂ le_rfl
  have opened : s₂.romLoaded = true := by decide +kernel
  refine ⟨⟨_, accepted accepts⟩, _, new, taken, ?_, (refused refuses).parked,
    (refused refuses).paused, ?_⟩
  · rw [taken.closed, if_pos opened]
  · exact taken.kept (.ofString "/b") (List.mem_cons_of_mem _ List.mem_cons_self)

end EmuScheduler
