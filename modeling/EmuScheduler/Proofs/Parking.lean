import EmuScheduler.Proofs.Lifecycle
import EmuScheduler.Proofs.LoadOutcome

/-!
# Wakeups with nothing to run

While the pause flag is set or there is no ROM, and nobody asks for a load or the end, the loop
parks in every tick, however often it is woken. `wakeups_without_effect` says that nothing comes of
such wakeups: in the first tick the engine is given the modes that waited, each once; it is called
for nothing else and never again, no event is sent, and all that controllers can see stays as it
was, but for the phase, which says whether there is a pause.

`Nudged` is what the loop can come to meanwhile. Wakeups are allowed at any moment, also in the
middle of a tick; a tick that is not disturbed is the case without them (`Nudged.tick`). The
invariant (`Drowsing`) follows the loop along the points at which it can be with nothing to run. It
carries a ledger of the modes: what the engine was given, and what is still to come of the kinds
that the loop has not looked at in this tick (`Point.left?`), are together what waited in the
beginning. A tick leaves nothing waiting, so there is nothing to give in those after it.

That the engine is ready wherever the preparations are over is a matter of the engine
(`Engine.StaysReady`) and of the runs before (`Established`).
-/

namespace EmuScheduler

open Scheduler

variable {σ : Type} {e : Engine σ}

/-! ## After the preparations -/

/-- Once it is set up, the engine stays so. -/
structure Engine.StaysReady (e : Engine σ) : Prop where
  obey : ∀ g o, e.isReady g = true → e.isReady (e.obey g o) = true
  setUp : ∀ g, e.isReady g = true → e.isReady (e.setUp g).engine = true
  load : ∀ g files rom, e.isReady g = true → e.isReady (e.load g files rom).engine = true
  step : ∀ g buffer, e.isReady g = true → e.isReady (e.step g buffer).engine = true

/-- If the preparations are over, the engine is ready, and no other tick will prepare. -/
def Established (e : Engine σ) (s : Scheduler σ) : Prop :=
  wasPrepared s.history = true → e.isReady s.engine = true ∧ s.shared.phase ≠ .uninitialized

section Established

variable {s₀ s s' : Scheduler σ} {p p' : Point}

/-- Whatever a history says was asked of the engine, it stays ready. -/
theorem Engine.StaysReady.replay {h₀ h : List Entry} {c₀ c : Console σ} (stays : e.StaysReady)
    (hr : Replay e h₀ c₀ h c) (ready : e.isReady c₀.engine = true) : e.isReady c.engine = true :=
  hr.kept (P := (e.isReady · = true)) stays.obey stays.setUp stays.load stays.step ready

/-- No step of the loop makes the engine unready. -/
theorem Engine.StaysReady.loop (stays : e.StaysReady) (ready : e.isReady s.engine = true)
    (hl : Loop e p s p' s') : e.isReady s'.engine = true :=
  stays.replay (replay_loop .start hl) ready

theorem Engine.StaysReady.control (stays : e.StaysReady) (ready : e.isReady s.engine = true)
    (c : Control) : e.isReady (s.control e c).engine = true :=
  stays.replay (replay_control (p := .between) .start c) ready

/-- The preparations come to an end in one step only. -/
theorem prepared_of_loop (hl : Loop e p s p' s') (prepared : wasPrepared s'.history = true) :
    wasPrepared s.history = true ∨ p = .engaging := by
  -- only the points that have to do with sound make known that all is prepared
  by_cases hp : p.Sounding
  · cases hl with
    | engage => exact .inr rfl
    | unmute =>
      rw [withAudio_history, wasPrepared_told] at prepared
      exact .inl prepared
    | step | abandon => exact .inl prepared
    | _ => exact hp.elim
  · obtain ⟨new, aside⟩ := aside_of_loop hl hp
    obtain ⟨-, -, same⟩ := soundless_append (h := s.history) aside.soundless
    rw [← aside.history] at same
    exact .inl (same.symm.trans prepared)

/-- A session that is established stays so. -/
theorem established_reached (stays : e.StaysReady) (h : Established e s₀)
    (hr : Reached e s₀ p s) : Established e s := by
  induction hr with
  | start => exact h
  | @loop p p' s s' hr hl ih =>
    intro prepared
    obtain before | rfl := prepared_of_loop hl prepared
    · obtain ⟨ready, known⟩ := ih before
      exact ⟨stays.loop ready hl, known_of_loop hr known hl⟩
    · -- this is the step that ends the preparations, and it was seen that the engine is ready
      refine ⟨stays.loop (ready_of_reached hr rfl) hl, ?_⟩
      cases hl
      exact nofun
  | control _ _ c ih =>
    intro prepared
    rw [control_history, wasPrepared_told] at prepared
    obtain ⟨ready, known⟩ := ih prepared
    refine ⟨stays.control ready c, ?_⟩
    rw [control_shared, Shared.control_phase]
    exact known
  | outside _ _ _ ih => exact ih

end Established

/-! ## Wakeups -/

/-- What a scheduler comes to while nobody does more than wake it, at whatever moment: `n` ticks are
over, and the loop is at `p`. -/
inductive Nudged (e : Engine σ) (s₀ : Scheduler σ) : Nat → Point → Scheduler σ → Prop
  | start : Nudged e s₀ 0 .between s₀
  | wake {n : Nat} {p : Point} {s : Scheduler σ} (hn : Nudged e s₀ n p s) :
      Nudged e s₀ n p (s.control e .wake)
  | inside {n : Nat} {p p' : Point} {s s' : Scheduler σ} (hn : Nudged e s₀ n p s)
      (hl : Loop e p s p' s') (inside : p' ≠ .between) : Nudged e s₀ n p' s'
  | finish {n : Nat} {p : Point} {s s' : Scheduler σ} (hn : Nudged e s₀ n p s)
      (hl : Loop e p s .between s') : Nudged e s₀ (n + 1) .between s'

/-- The orders that give the engine what waits of the modes of some kinds. -/
def Requests.orders (r : Requests) (ks : List ModeKind) : List EngineCall :=
  (ks.filterMap r.waiting?).map fun mode => .order (.setMode mode)

/-- A scheduler that is set up and has nothing to run. -/
structure AtRest (e : Engine σ) (s : Scheduler σ) : Prop where
  ready : e.isReady s.engine = true
  known : s.shared.phase ≠ .uninitialized
  going : s.shared.stopping = false
  unasked : s.shared.requests.rom.isPending = false
  idle : (s.romLoaded && !s.shared.paused) = false

/-- From `s` to `t` no event was sent, and nothing has changed but the mode changes that wait, the
gate and the phase. -/
structure Unmoved (s t : Scheduler σ) : Prop where
  shared : ∃ requests gate phase, t.shared = { s.shared with requests, gate, phase } ∧
    requests.rom = s.shared.requests.rom
  romLoaded : t.romLoaded = s.romLoaded
  rate : t.rate = s.rate
  files : t.files = s.files
  workingDirectory : t.workingDirectory = s.workingDirectory
  emissions : emissions t.history = emissions s.history

/-- The kinds of modes whose turn is still to come in a tick, at the points where the loop can be
with nothing to run. -/
def Point.left? : Point → Option (List ModeKind)
  | .between | .loading | .configuring => some ModeKind.all
  | .applying ks => some ks
  | .choosing | .parking | .publishing _ | .sleeping => some []
  | _ => none

/-- The loop has come to `p` from a scheduler `s` at rest, and `n` ticks are over. The engine was
`given` some of what waited in the beginning, newest first, and what is left waits. -/
structure Drowsing (e : Engine σ) (s : Scheduler σ) (n : Nat) (p : Point) (t : Scheduler σ)
    (given : List EngineCall) (ks : List ModeKind) : Prop where
  left : p.left? = some ks
  unmoved : Unmoved s t
  ready : e.isReady t.engine = true
  known : t.shared.phase ≠ .uninitialized
  calls : calls t.history = given ++ calls s.history
  ledger : given.reverse ++ t.shared.requests.orders ks = s.shared.requests.orders ModeKind.all
  nodup : ks.Nodup
  passed : ∀ k, k ∉ ks → t.shared.requests.waiting? k = none
  /-- After the first tick nothing waits. -/
  empty : 0 < n → ∀ k, t.shared.requests.waiting? k = none
  parked : 0 < n ∨ p = .sleeping → t.shared.phase = parkedPhase s.shared.paused
  publishing : ∀ phase, p = .publishing phase → phase = parkedPhase s.shared.paused

section Orders

variable {r r' : Requests} {k : ModeKind} {ks : List ModeKind} {mode : ModeChange}

/-- Where nothing waits there is nothing to order. -/
theorem orders_of_none (h : ∀ k ∈ ks, r.waiting? k = none) : r.orders ks = [] := by
  unfold Requests.orders
  rw [List.filterMap_eq_nil_iff.mpr h]
  rfl

/-- A kind of which nothing waits adds no order. -/
theorem orders_cons_of_none (h : r.waiting? k = none) : r.orders (k :: ks) = r.orders ks := by
  unfold Requests.orders
  rw [List.filterMap_cons_none h]

/-- The change of the first kind is given first; taking it leaves the others. -/
theorem orders_cons_of_some (h : r.waiting? k = some mode) (nodup : (k :: ks).Nodup) :
    r.orders (k :: ks) = .order (.setMode mode) :: (r.takeMode k).2.orders ks := by
  have others : ks.filterMap (r.takeMode k).2.waiting? = ks.filterMap r.waiting? := by
    refine List.filterMap_congr fun j hj => ?_
    rw [Requests.waiting?_takeMode, if_neg (ne_of_mem_of_not_mem hj (List.nodup_cons.mp nodup).1)]
  unfold Requests.orders
  rw [List.filterMap_cons_some h, others]
  rfl

end Orders

section Step

variable {s t t' : Scheduler σ} {n : Nat} {p p' : Point} {given : List EngineCall} {k : ModeKind}
  {ks : List ModeKind}

theorem Unmoved.refl (s : Scheduler σ) : Unmoved s s :=
  ⟨⟨_, _, _, rfl, rfl⟩, rfl, rfl, rfl, rfl, rfl⟩

/-- Two stretches in which nothing else changes. -/
theorem Unmoved.trans (h : Unmoved s t) (h' : Unmoved t t') : Unmoved s t' where
  shared := by
    obtain ⟨r, gate, phase, shared, rom⟩ := h.shared
    obtain ⟨r', gate', phase', shared', rom'⟩ := h'.shared
    rw [shared] at shared' rom'
    exact ⟨r', gate', phase', shared', rom'.trans rom⟩
  romLoaded := h'.romLoaded.trans h.romLoaded
  rate := h'.rate.trans h.rate
  files := h'.files.trans h.files
  workingDirectory := h'.workingDirectory.trans h.workingDirectory
  emissions := h'.emissions.trans h.emissions

/-- Who is not disturbed at rest stays at rest. -/
theorem Unmoved.atRest (h : Unmoved s t) (rest : AtRest e s)
    (ready : e.isReady t.engine = true) (known : t.shared.phase ≠ .uninitialized) :
    AtRest e t := by
  obtain ⟨r, gate, phase, shared, rom⟩ := h.shared
  refine ⟨ready, known, ?_, ?_, ?_⟩
  · rw [shared]
    exact rest.going
  · rw [shared]
    exact (congrArg Mailbox.isPending rom).trans rest.unasked
  · rw [h.romLoaded, shared]
    exact rest.idle

/-- The pause is among what stays. -/
theorem Unmoved.paused (h : Unmoved s t) : t.shared.paused = s.shared.paused := by
  obtain ⟨r, gate, phase, shared, -⟩ := h.shared
  rw [shared]

/-- A scheduler that was only woken up is still at rest. -/
theorem Drowsing.atRest (h : Drowsing e s n p t given ks) (rest : AtRest e s) : AtRest e t :=
  h.unmoved.atRest rest h.ready h.known

/-- The loop goes on and calls nobody. -/
theorem Drowsing.move (h : Drowsing e s n p t given ks) (new : List Entry)
    (uncalled : EmuScheduler.calls new = []) (silent : EmuScheduler.emissions new = [])
    (left : p'.left? = some ks) (awake : p' ≠ .sleeping)
    (publishing : ∀ phase, p' = .publishing phase → phase = parkedPhase t.shared.paused) :
    Drowsing e s n p' { t with history := new ++ t.history } given ks where
  left := left
  unmoved := by
    -- the entries that are added are neither calls nor events
    refine h.unmoved.trans ⟨⟨_, _, _, rfl, rfl⟩, rfl, rfl, rfl, rfl, ?_⟩
    rw [emissions_append, silent, List.append_nil]
  ready := h.ready
  known := h.known
  calls := by
    rw [calls_append, uncalled, List.nil_append]
    exact h.calls
  ledger := h.ledger
  nodup := h.nodup
  passed := h.passed
  empty := h.empty
  parked ended := h.parked (.inl (ended.resolve_right awake))
  publishing phase here := by
    rw [publishing phase here, h.unmoved.paused]

/-- Nothing waits of the mode that the loop comes to. -/
theorem Drowsing.pass (h : Drowsing e s n (.applying (k :: ks)) t given (k :: ks))
    (nothing : t.shared.requests.waiting? k = none) :
    Drowsing e s n (.applying ks) t given ks where
  left := rfl
  unmoved := h.unmoved
  ready := h.ready
  known := h.known
  calls := h.calls
  ledger := by
    rw [← orders_cons_of_none nothing]
    exact h.ledger
  nodup := (List.nodup_cons.mp h.nodup).2
  passed j hj := by
    -- the kind that was looked at had nothing waiting, and the others were looked at before
    by_cases other : j = k
    · rw [other]
      exact nothing
    · exact h.passed j (List.not_mem_cons_of_ne_of_not_mem other hj)
  empty := h.empty
  parked ended := h.parked (.inl (ended.resolve_right nofun))
  publishing := nofun

/-- A change of that mode waits, and the engine is given it: the ledger is the same. -/
theorem Drowsing.give {mode : ModeChange}
    (h : Drowsing e s n (.applying (k :: ks)) t given (k :: ks)) (stays : e.StaysReady)
    (waits : t.shared.requests.waiting? k = some mode) :
    Drowsing e s n (.applying ks)
      ((t.modify fun h => { h with requests := (t.shared.requests.takeMode k).2 }).order e
        (.setMode mode)) (.order (.setMode mode) :: given) ks where
  left := rfl
  unmoved :=
    h.unmoved.trans ⟨⟨_, _, _, rfl, Requests.rom_takeMode ..⟩, rfl, rfl, rfl, rfl, rfl⟩
  ready := stays.obey _ _ h.ready
  known := h.known
  calls := congrArg (List.cons _) h.calls
  ledger := by
    -- the order moves from those that are due to those that were given
    rw [List.reverse_cons, List.append_assoc, List.singleton_append, ← h.ledger,
      orders_cons_of_some waits h.nodup]
    rfl
  nodup := (List.nodup_cons.mp h.nodup).2
  passed j hj := by
    refine (Requests.waiting?_takeMode _ k j).trans ?_
    split_ifs with same
    · rfl
    · exact h.passed j (List.not_mem_cons_of_ne_of_not_mem same hj)
  empty ended j := by
    refine (Requests.waiting?_takeMode _ k j).trans ?_
    rw [h.empty ended j, ite_self]
  parked ended := h.parked (.inl (ended.resolve_right nofun))
  publishing := nofun

/-- A mode that the loop comes to is not refused, as the engine is ready. -/
theorem Drowsing.apply {r : Except SchedulerError Unit}
    (h : Drowsing e s n (.applying (k :: ks)) t given (k :: ks)) (stays : e.StaysReady)
    (ha : t.applyMode e k = (r, t')) :
    r = .ok () ∧ ∃ given', Drowsing e s n (.applying ks) t' given' ks := by
  obtain ⟨nothing, rfl, rfl⟩ | ⟨mode, waits, ⟨rfl, rfl⟩ | ⟨unready, -⟩⟩ := applyMode_cases ha
  · exact ⟨rfl, given, h.pass nothing⟩
  · exact ⟨rfl, _, h.give stays waits⟩
  · have applied := applyMode_of_ready h.ready k
    rw [ha, unready] at applied
    cases applied

/-- The phase says whether there is a pause. -/
theorem Drowsing.publish {phase : Phase} (h : Drowsing e s n (.publishing phase) t given ks) :
    Drowsing e s n .sleeping (t.publish phase) given ks where
  left := h.left
  unmoved := h.unmoved.trans ⟨⟨_, _, _, rfl, rfl⟩, rfl, rfl, rfl, rfl, rfl⟩
  ready := h.ready
  known := by
    -- the phase is the one that a parked scheduler has
    rw [h.publishing phase rfl]
    exact parkedPhase_known _
  calls := h.calls
  ledger := h.ledger
  nodup := h.nodup
  passed := h.passed
  empty := h.empty
  parked _ := h.publishing phase rfl
  publishing := nofun

/-- The loop sleeps, and the tick has left nothing for the next one. -/
theorem Drowsing.sleep (h : Drowsing e s n .sleeping t given []) :
    Drowsing e s (n + 1) .between (t.modify (·.sleepUnlessWork t.romLoaded)) given
      ModeKind.all where
  left := rfl
  unmoved := h.unmoved.trans ⟨⟨_, _, _, rfl, rfl⟩, rfl, rfl, rfl, rfl, rfl⟩
  ready := h.ready
  known := h.known
  calls := h.calls
  ledger := by
    -- all kinds were passed in this tick, so the next one finds nothing due
    have nothing : t.shared.requests.orders ModeKind.all = [] :=
      orders_of_none fun k _ => h.passed k List.not_mem_nil
    exact (congrArg (given.reverse ++ ·) nothing).trans h.ledger
  nodup := by decide
  passed k _ := h.passed k List.not_mem_nil
  empty _ k := h.passed k List.not_mem_nil
  parked _ := h.parked (.inr rfl)
  publishing := nofun

/-- **What a step of the loop does with nothing to run.** A tick goes on to park, and comes back
from nowhere else. -/
theorem Drowsing.loop (h : Drowsing e s n p t given ks) (rest : AtRest e s) (stays : e.StaysReady)
    (hl : Loop e p t p' t') :
    ∃ given' ks', p' ≠ .between ∧ Drowsing e s n p' t' given' ks' ∨
      p = .sleeping ∧ p' = .between ∧ Drowsing e s (n + 1) p' t' given' ks' := by
  have here := h.atRest rest
  have left := h.left
  cases hl with
  -- what would lead elsewhere does not apply at rest
  | halt stops | stop stops => exact absurd (stops.symm.trans here.going) Bool.false_ne_true.symm
  | first _ fresh => exact absurd fresh here.known
  | takeLoad asked =>
    have waits := Option.isSome_iff_exists.mpr ⟨_, asked⟩
    exact absurd (here.unasked.symm.trans waits) Bool.false_ne_true
  | choose runs => exact absurd (here.idle.symm.trans runs) Bool.false_ne_true
  | begin | configure => exact ⟨_, _, .inl ⟨nofun, h.move [_] rfl rfl left nofun nofun⟩⟩
  | noLoad | configured | rest =>
    exact ⟨_, _, .inl ⟨nofun, h.move [] rfl rfl left nofun nofun⟩⟩
  | park =>
    refine ⟨_, _, .inl ⟨nofun, h.move [] rfl rfl left nofun fun phase hp => ?_⟩⟩
    cases hp
    rfl
  | apply ha =>
    obtain rfl := Option.some.inj left
    obtain ⟨rfl, given', applied⟩ := h.apply stays ha
    exact ⟨_, _, .inl ⟨nofun, applied⟩⟩
  | publish => exact ⟨_, _, .inl ⟨nofun, h.publish⟩⟩
  | sleep =>
    obtain rfl := Option.some.inj left
    exact ⟨_, _, .inr ⟨rfl, rfl, h.sleep⟩⟩
  | _ => cases left

/-- To wake it up changes the gate only. -/
theorem Drowsing.wake (h : Drowsing e s n p t given ks) (stays : e.StaysReady) :
    Drowsing e s n p (t.control e .wake) given ks :=
  { h with
    unmoved := h.unmoved.trans ⟨⟨_, _, _, rfl, rfl⟩, rfl, rfl, rfl, rfl, rfl⟩
    ready := stays.control h.ready .wake }

/-- Before the first wake-up nothing was given yet. -/
theorem AtRest.drowsing (rest : AtRest e s) : Drowsing e s 0 .between s [] ModeKind.all where
  left := rfl
  unmoved := .refl s
  ready := rest.ready
  known := rest.known
  calls := rfl
  ledger := rfl
  nodup := by decide
  passed k other := absurd (by cases k <;> decide) other
  empty := nofun
  parked ended := absurd ended (by simp)
  publishing := nofun

/-- **The invariant is kept**, whoever wakes the loop and when. -/
theorem drowsing_nudged (rest : AtRest e s) (stays : e.StaysReady) (hn : Nudged e s n p t) :
    ∃ given ks, Drowsing e s n p t given ks := by
  -- a wake-up, a step within a tick, or the step that ends one
  induction hn with
  | start => exact ⟨[], ModeKind.all, rest.drowsing⟩
  | wake _ ih =>
    obtain ⟨given, ks, h⟩ := ih
    exact ⟨given, ks, h.wake stays⟩
  | inside _ hl inside ih =>
    obtain ⟨given, ks, h⟩ := ih
    obtain ⟨given', ks', ⟨-, h'⟩ | ⟨-, ended, -⟩⟩ := h.loop rest stays hl
    · exact ⟨given', ks', h'⟩
    · exact absurd ended inside
  | finish _ hl ih =>
    obtain ⟨given, ks, h⟩ := ih
    obtain ⟨given', ks', ⟨inside, -⟩ | ⟨-, -, h'⟩⟩ := h.loop rest stays hl
    · exact absurd rfl inside
    · exact ⟨given', ks', h'⟩

end Step

/-! ## Ticks that nobody disturbs -/

section Tick

variable {s t : Scheduler σ} {n : Nat} {p : Point} {ks : List ModeKind}

/-- The modes are looked at one after the other, and none is refused. -/
theorem Nudged.applied (hn : Nudged e s n (.applying ks) t) (rest : AtRest e s)
    (stays : e.StaysReady) :
    ∃ t', applyModes e ks t = (.ok (), t') ∧ Nudged e s n (.applying []) t' := by
  -- the engine is ready, so no mode is refused and the stage goes through
  induction ks generalizing t with
  | nil => exact ⟨t, rfl, hn⟩
  | cons k ks ih =>
    obtain ⟨given, ks', h⟩ := drowsing_nudged rest stays hn
    have accepted := applyMode_of_ready h.ready k
    have looked : Loop e (.applying (k :: ks)) t (.after (t.applyMode e k).1 (.applying ks))
        (t.applyMode e k).2 := .apply rfl
    rw [accepted] at looked
    obtain ⟨t', applied, hn'⟩ := ih (hn.inside looked nofun)
    refine ⟨t', ?_, hn'⟩
    unfold Scheduler.applyModes Scheduler.followedBy
    rw [accepted]
    exact applied

/-- **A tick with nothing to run parks.** -/
theorem Nudged.tick (hn : Nudged e s n .between t) (rest : AtRest e s) (stays : e.StaysReady)
    (times : TickTimes) (limit : Nat) :
    (t.tick e times limit).1 = .done .parked ∧
      Nudged e s (n + 1) .between (t.tick e times limit).2 := by
  obtain ⟨given, ks, h⟩ := drowsing_nudged rest stays hn
  have here := h.atRest rest
  have settled : (t.record .tick).settleLoad e times.loaded = t.record .tick :=
    settleLoad_of_none (s := t.record .tick) here.unasked _
  have begun := hn.inside (.begin here.going here.known) nofun
  have turned : Nudged e s n .configuring (t.record .tick) := by
    refine begun.inside (.noLoad ?_) nofun
    exact Option.not_isSome_iff_eq_none.mp (ne_true_of_eq_false here.unasked)
  obtain ⟨t₁, applied, hn₁⟩ := (turned.inside .configure nofun).applied rest stays
  have configured : ((t.record .tick).settleLoad e times.loaded).configure e = (.ok (), t₁) := by
    rw [settled]
    exact applied
  have chosen := hn₁.inside .configured nofun
  obtain ⟨given₁, ks₁, h₁⟩ := drowsing_nudged rest stays chosen
  have idle := (h₁.atRest rest).idle
  -- at rest there is nothing to run
  have parks : t₁.runOrPark e times.presented limit = (.done .parked, t₁.park) := by
    unfold Scheduler.runOrPark
    rw [if_neg (ne_true_of_eq_false idle)]
  obtain ⟨error, failed, -⟩ | ⟨-, ticked⟩ :=
    tick_of_known here.known here.going times limit configured
  · cases failed
  · rw [ticked, parks]
    have publishing := (chosen.inside (.rest idle) nofun).inside .park nofun
    exact ⟨rfl, (publishing.inside .publish nofun).finish .sleep⟩

end Tick

/-! ## The theorem -/

/-- What has become of a scheduler `s` with nothing to run when it was only woken, `n` ticks are
over and the loop is at `p`. -/
structure WithoutEffect (e : Engine σ) (s : Scheduler σ) (n : Nat) (p : Point) (t : Scheduler σ) :
    Prop where
  unmoved : Unmoved s t
  /-- The calls are those that give the engine the modes that waited, and the first tick makes
  all. -/
  calls : ∃ given, calls t.history = given ++ calls s.history ∧
    given.reverse <+: s.shared.requests.orders ModeKind.all ∧
    (0 < n → given.reverse = s.shared.requests.orders ModeKind.all)
  phase : 0 < n → t.shared.phase = parkedPhase s.shared.paused
  /-- A tick, disturbed or not, comes to its end by parking, -/
  parks : ∀ t', Loop e p t .between t' → p = .sleeping
  /-- and says so. -/
  ticks : p = .between → ∀ times limit, (t.tick e times limit).1 = .done .parked ∧
    Nudged e s (n + 1) .between (t.tick e times limit).2

/-- **Wakeups with nothing to run have no effect.** Take any moment at which the preparations are
over, no load waits and nobody has asked for the end, and there is a pause or no ROM. However often
the scheduler is woken from then on, every tick parks, the first one gives the engine the modes that
wait, and apart from that and the phase nothing changes. -/
theorem wakeups_without_effect {engine : σ} {workingDirectory : Path} {modes : Modes} {sink : Sink}
    {files : FileTree} {now : Nat} {s t : Scheduler σ} {n : Nat} {p : Point}
    (hs : Session e (.start e engine workingDirectory modes sink files now) s)
    (stays : e.StaysReady) (prepared : wasPrepared s.history = true)
    (going : s.shared.stopping = false) (unasked : s.shared.requests.rom.isPending = false)
    (nothing : s.shared.paused = true ∨ s.shared.rom? = none) (hn : Nudged e s n p t) :
    WithoutEffect e s n p t := by
  have begun : Established e (.start e engine workingDirectory modes sink files now) :=
    fun prepared => absurd prepared Bool.false_ne_true
  have established : Established e s :=
    hs.kept (fun h hr => established_reached stays h hr) begun
  have agreed : s.romLoaded = s.shared.rom?.isSome :=
    hs.kept (P := fun s => s.romLoaded = s.shared.rom?.isSome) agreed_reached rfl
  obtain ⟨ready, known⟩ := established prepared
  have rest : AtRest e s := by
    refine ⟨ready, known, going, unasked, ?_⟩
    obtain paused | none := nothing
    · rw [paused]
      exact Bool.and_false _
    · rw [agreed, none]
      rfl
  obtain ⟨given, ks, h⟩ := drowsing_nudged rest stays hn
  refine ⟨h.unmoved, ⟨given, h.calls, ?_, fun ended => ?_⟩, fun ended => h.parked (.inl ended),
    fun t' hl => ?_, ?_⟩
  · rw [← h.ledger]
    exact List.prefix_append _ _
  · rw [← h.ledger, orders_of_none fun k _ => h.empty ended k, List.append_nil]
  · obtain ⟨given', ks', ⟨inside, -⟩ | ⟨here, -, -⟩⟩ := h.loop rest stays hl
    · exact absurd rfl inside
    · exact here
  · rintro rfl times limit
    exact hn.tick rest stays times limit

theorem staysReady_testPattern : TestPattern.engine.StaysReady where
  obey g o ready := by cases o <;> exact ready
  setUp _ _ := rfl
  load g files rom ready := by
    change (g.load files rom).2.ready = true
    unfold TestPattern.load
    split <;> exact ready
  step _ _ ready := ready

/-- A ROM has run, there is a pause, and a mode change waits. The loop is woken between two ticks
and in the middle of a third. -/
theorem wakeups_without_effect_paused :
    let e := TestPattern.engine
    let tick (s : Scheduler TestPattern) := (s.tick e {} 1).2
    let s := ((tick (sample.control e (.load sampleRom))).control e (.pause true)).control e
      (.change (.cpu .interpreter))
    let t := ((tick ((tick s).control e .wake)).record .tick).control e .wake
    s.shared.paused = true ∧ s.shared.rom? = some sampleRom ∧
      (s.tick e {} 1).1 = .done .parked ∧
      (((tick s).control e .wake).tick e {} 1).1 = .done .parked ∧
      Unmoved s t ∧
      calls t.history = .order (.setMode (.cpu .interpreter)) :: calls s.history ∧
      t.shared.phase = .paused := by
  intro e tick s t
  have hs : Session e sample s :=
    ((Session.start.control (.load sampleRom)).tick {} 1).control (.pause true) |>.control _
  have paused : s.shared.paused = true := by decide +kernel
  have effect {n : Nat} {p : Point} {t : Scheduler TestPattern} (hn : Nudged e s n p t) :
      WithoutEffect e s n p t :=
    wakeups_without_effect hs staysReady_testPattern (by decide +kernel) (by decide +kernel)
      (by decide +kernel) (.inl paused) hn
  obtain ⟨first, hn₁⟩ := (effect .start).ticks rfl {} 1
  obtain ⟨second, hn₂⟩ := (effect hn₁.wake).ticks rfl {} 1
  have woken : Nudged e s 2 .loading t :=
    (hn₂.inside (.begin (by decide +kernel) (by decide +kernel)) nofun).wake
  obtain ⟨given, called, -, all⟩ := (effect woken).calls
  have waits : s.shared.requests.orders ModeKind.all = [.order (.setMode (.cpu .interpreter))] := by
    decide +kernel
  rw [waits, List.reverse_eq_iff] at all
  refine ⟨paused, by decide +kernel, first, second, (effect woken).unmoved, ?_, ?_⟩
  · rw [called, all Nat.two_pos, List.reverse_singleton, List.singleton_append]
  · rw [(effect woken).phase Nat.two_pos, paused, parkedPhase, if_pos rfl]

end EmuScheduler
