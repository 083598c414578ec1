import EmuScheduler.Engine.TestPattern
import EmuScheduler.Proofs.History
import EmuScheduler.Proofs.Run

/-!
# The order in which an engine is called

An engine relies on being called in order: its directories first and once, then at most one setting
up, a load only while no ROM is open, a closing and a step only while one is, and no step before
every mode was set. Controllers rely on `rom?` to name the ROM that is open. `Lawful` states this of
one entry of a history, and `engine_protocol` of every entry of every run: whatever the engine
answers, whatever controls come and from where, and also after a failed tick and after the release.

Whether a ROM is open is counted: a load that the engine accepted opens one and a closing closes it.
`Shown rom? h` is the agreement between that count and what controllers see.

The proof annotates the loop. `Obeyed` holds at every point; `At p` adds what holds with the loop
at `p`. The flag `romLoaded`, on which the loop decides, agrees with `rom?` at every point, because
each operation that changes one changes the other. Sound is on only after the engine was called
(`Obeyed.quiet`), so no control can be the first to call it.
-/

namespace EmuScheduler

open Scheduler

variable {σ : Type}

/-- The engine was given a value for this mode. -/
def Given (k : ModeKind) (h : List Entry) : Prop :=
  ∃ mode : ModeChange, mode.kind = k ∧ .order (.setMode mode) ∈ calls h

/-- What controllers see of the ROM agrees with the calls: one ROM more was opened than closed, and
it is the last one that was accepted; or as many were closed as opened. -/
def Shown (rom? : Option Path) (h : List Entry) : Prop :=
  match rom? with
  | some rom => accepted h = closings h + 1 ∧ lastAccepted? h = some rom
  | none => accepted h = closings h

/-- Who sees a ROM sees one that was opened and not closed. -/
theorem Shown.of_ne_none {rom? : Option Path} {h : List Entry} (hs : Shown rom? h)
    (hr : rom? ≠ none) : accepted h = closings h + 1 := by
  obtain ⟨rom, rfl⟩ := Option.ne_none_iff_exists'.mp hr
  exact hs.1

/-- An entry that neither opens nor closes a ROM. -/
theorem Shown.congr {rom? : Option Path} {h h' : List Entry} (hs : Shown rom? h)
    (ha : attempts h' = attempts h) (hc : closings h' = closings h) : Shown rom? h' := by
  unfold Shown accepted lastAccepted? at hs ⊢
  rw [ha, hc]
  exact hs

/-- A load that waits for its answer opens nothing. -/
theorem Shown.load {rom? : Option Path} {rom : Path} {h h' : List Entry} (hs : Shown rom? h)
    (ha : attempts h' = (rom, none) :: attempts h) (hc : closings h' = closings h) :
    Shown rom? h' := by
  unfold Shown accepted lastAccepted? at hs ⊢
  rw [ha, hc]
  exact hs

/-- **The protocol**, for an entry and those older than it. -/
structure Lawful (x : Entry) (older : List Entry) : Prop where
  /-- The directories come first of all, hence once. -/
  directories : ∀ root temp, x.action = .call (.order (.setDirectories root temp)) →
    calls older = []
  /-- Every other call comes after them. -/
  directed : ∀ c, x.action = .call c → (∀ root temp, c ≠ .order (.setDirectories root temp)) →
    ∃ root temp, (calls older).getLast? = some (.order (.setDirectories root temp))
  setUp : x.action = .call .setUp → .setUp ∉ calls older
  load : ∀ rom, x.action = .call (.load rom) → accepted older = closings older
  close : x.action = .call (.order .closeRom) → accepted older = closings older + 1
  step : x.action = .call .step → accepted older = closings older + 1 ∧ ∀ k, Given k older
  shown : Shown x.view.rom? older

/-- An entry that is no call has only the ROM to show. -/
theorem Lawful.of_shown {x : Entry} {older : List Entry} (hx : ∀ c, x.action ≠ .call c)
    (hs : Shown x.view.rom? older) : Lawful x older where
  directories _ _ h := absurd h (hx _)
  directed c h := absurd h (hx c)
  setUp h := absurd h (hx _)
  load _ h := absurd h (hx _)
  close h := absurd h (hx _)
  step h := absurd h (hx _)
  shown := hs

/-- In a lawful history the first call of all gives the directories. -/
theorem directed_of_throughout {h : List Entry} (ht : Throughout Lawful h) (hc : calls h ≠ []) :
    ∃ root temp, (calls h).getLast? = some (.order (.setDirectories root temp)) := by
  induction h with
  | nil => exact absurd rfl hc
  | cons x h ih =>
    obtain ⟨hx, ht⟩ := throughout_cons.mp ht
    cases hcall : x.action.call? with
    | none =>
      have same : calls (x :: h) = calls h := List.filterMap_cons_none hcall
      rw [same] at hc ⊢
      exact ih ht hc
    | some c =>
      have more : calls (x :: h) = c :: calls h := List.filterMap_cons_some hcall
      have haction : x.action = .call c := by
        unfold Action.call? at hcall
        split at hcall
        · next c' h' => rw [h', Option.some.inj hcall]
        · exact absurd hcall nofun
      rw [more]
      -- either the newest call is the one that gives the directories, and then the only one
      by_cases hd : ∃ root temp, c = .order (.setDirectories root temp)
      · obtain ⟨root, temp, rfl⟩ := hd
        rw [hx.directories root temp haction]
        exact ⟨root, temp, rfl⟩
      · -- or the older ones have it at their end already
        obtain ⟨root, temp, hlast⟩ := hx.directed c haction fun root temp h' => hd ⟨root, temp, h'⟩
        refine ⟨root, temp, ?_⟩
        rw [List.getLast?_cons, hlast]
        rfl

/-! ### The invariant -/

/-- What holds at every point. -/
structure Obeyed (s : Scheduler σ) : Prop where
  past : Throughout Lawful s.history
  shown : Shown s.shared.rom? s.history
  /-- The loop and the controllers agree on whether a ROM is open. -/
  loaded : s.romLoaded = s.shared.rom?.isSome
  /-- There is no sound before the first call. -/
  quiet : calls s.history = [] → s.shared.audio.muted = true

/-- Every mode was given to the engine or waits to be. -/
def Settable (s : Scheduler σ) : Prop :=
  ∀ k, Given k s.history ∨ s.shared.requests.waiting? k ≠ none

/-- The scheduler has told the engine its directories. -/
def Begun (s : Scheduler σ) : Prop :=
  s.shared.phase ≠ .uninitialized ∧ calls s.history ≠ []

/-- What else holds with the loop at a point. -/
def At (s : Scheduler σ) : Point → Prop
  | .between =>
    (s.shared.phase = .uninitialized ∧ calls s.history = [] ∨ Begun s) ∧ Settable s
  | .preparing => calls s.history = [] ∧ Settable s
  | .purging | .directing =>
    s.shared.phase ≠ .uninitialized ∧ calls s.history = [] ∧ Settable s
  | .settingUp => Begun s ∧ .setUp ∉ calls s.history ∧ Settable s
  | .inSetUp _ | .checking | .engaging | .loading | .starting _ | .closing _ | .configuring =>
    Begun s ∧ Settable s
  | .asking _ => Begun s ∧ Settable s ∧ s.shared.rom? = none
  | .inLoad rom _ =>
    Begun s ∧ Settable s ∧ s.shared.rom? = none ∧
      ∃ rest, attempts s.history = (rom, none) :: rest
  | .applying ks => Begun s ∧ Settable s ∧ ∀ k ∉ ks, Given k s.history
  | .choosing | .parking | .sleeping => Begun s ∧ ∀ k, Given k s.history
  | .running | .unmuting | .locking | .stepping _ | .inStep _ _ | .presenting _ =>
    Begun s ∧ (∀ k, Given k s.history) ∧ s.romLoaded = true
  | .publishing phase => Begun s ∧ (∀ k, Given k s.history) ∧ phase ≠ .uninitialized
  | .vanishing _ | .released _ => s.shared.rom? = none
  | .failed _ | .broken | .stopping _ | .emptying _ => True

/-- A call other than that of the directories is lawful once there was another one, if it is made
at its time. -/
theorem Lawful.call {c : EngineCall} {v : View} {older : List Entry}
    (ht : Throughout Lawful older) (hne : calls older ≠ []) (hs : Shown v.rom? older)
    (hc : ∀ root temp, c ≠ .order (.setDirectories root temp))
    (hsetUp : c = .setUp → .setUp ∉ calls older)
    (hload : ∀ rom, c = .load rom → v.rom? = none)
    (hclose : c = .order .closeRom → v.rom? ≠ none)
    (hstep : c = .step → v.rom? ≠ none ∧ ∀ k, Given k older) :
    Lawful ⟨.call c, v⟩ older where
  directories root temp h := absurd (Action.call.inj h) (hc root temp)
  directed _ _ _ := directed_of_throughout ht hne
  setUp h := hsetUp (Action.call.inj h)
  load rom h := by
    have hs := hs
    rw [hload rom (Action.call.inj h)] at hs
    exact hs
  close h := hs.of_ne_none (hclose (Action.call.inj h))
  step h := ⟨hs.of_ne_none (hstep (Action.call.inj h)).1, (hstep (Action.call.inj h)).2⟩
  shown := hs

/-- The other orders, those about modes and sound, only have to come after the directories. -/
theorem Lawful.order {o : Order} {v : View} {older : List Entry}
    (ht : Throughout Lawful older) (hne : calls older ≠ []) (hs : Shown v.rom? older)
    (hd : ∀ root temp, o ≠ .setDirectories root temp) (hn : o ≠ .closeRom) :
    Lawful ⟨.call (.order o), v⟩ older :=
  .call ht hne hs (fun root temp h => hd root temp (EngineCall.order.inj h)) nofun nofun
    (fun h => absurd (EngineCall.order.inj h) hn) nofun

/-- The directories are given first of all. -/
theorem Lawful.setDirectories {root temp : Path} {v : View} {older : List Entry}
    (silent : calls older = []) (hs : Shown v.rom? older) :
    Lawful ⟨.call (.order (.setDirectories root temp)), v⟩ older where
  directories _ _ _ := silent
  directed _ hc hn := absurd (Action.call.inj hc).symm (hn root temp)
  setUp h := absurd (Action.call.inj h) nofun
  load _ h := absurd (Action.call.inj h) nofun
  close h := absurd (Action.call.inj h) nofun
  step h := absurd (Action.call.inj h) nofun
  shown := hs

namespace Obeyed

variable {s s' : Scheduler σ}

/-- Files, mailboxes and counters are not part of the protocol. -/
theorem of_eq (h : Obeyed s) (hh : s'.history = s.history)
    (hr : s'.shared.rom? = s.shared.rom?) (hl : s'.romLoaded = s.romLoaded)
    (ha : s'.shared.audio = s.shared.audio) : Obeyed s' where
  past := hh ▸ h.past
  shown := by rw [hh, hr]; exact h.shown
  loaded := by rw [hl, hr]; exact h.loaded
  quiet := by rw [hh, ha]; exact h.quiet

/-- An action that is neither a call nor the answer to one. -/
theorem record (h : Obeyed s) (a : Action)
    (hc : calls (⟨a, s.view⟩ :: s.history) = calls s.history)
    (ha : attempts (⟨a, s.view⟩ :: s.history) = attempts s.history) : Obeyed (s.record a) where
  past := by
    refine throughout_cons.mpr ⟨.of_shown ?_ h.shown, h.past⟩
    -- a call would have made the list of calls longer
    rintro c rfl
    exact List.cons_ne_self _ _ hc
  shown := h.shown.congr ha (congrArg (List.count _) hc)
  loaded := h.loaded
  quiet hn := h.quiet (hc ▸ hn)

/-- A lawful call that closes no ROM. -/
theorem recordCall (h : Obeyed s) {c : EngineCall} (hc : Lawful ⟨.call c, s.view⟩ s.history)
    (hn : c ≠ .order .closeRom) : Obeyed (s.record (.call c)) where
  past := throughout_cons.mpr ⟨hc, h.past⟩
  shown := by
    have same : closings (⟨.call c, s.view⟩ :: s.history) = closings s.history :=
      List.count_cons_of_ne hn
    -- only a load is an attempt, and it has no answer yet
    cases c with
    | load rom => exact h.shown.load rfl same
    | _ => exact h.shown.congr rfl same
  loaded := h.loaded
  quiet hn := absurd hn (List.cons_ne_nil _ _)

theorem publish (h : Obeyed s) (phase : Phase) : Obeyed (s.publish phase) :=
  (h.record (.publish s.shared.phase phase) rfl rfl).of_eq rfl rfl rfl rfl

theorem emit (h : Obeyed s) (event : LoadEvent) : Obeyed (s.emit event) :=
  (h.record (.emit event s.shared.notifier.bound s.shared.notifier.listening) rfl rfl).of_eq
    rfl rfl rfl rfl

/-- The engine may be told its mute state once it was called. -/
theorem tellMuted (h : Obeyed s) (e : Engine σ) {t : Option Bool}
    (ht : ∀ muted, t = some muted → calls s.history ≠ []) : Obeyed (s.tellMuted e t) where
  past := by
    rw [tellMuted_history]
    refine throughout_told h.past (fun muted hm => ?_) fun muted hm => ?_
    -- the sound first and then the microphone, each after a call that is there already
    · exact .order h.past (ht muted hm) h.shown nofun nofun
    · have audio : Lawful ⟨.call (.order (.muteAudio muted)), s.view⟩ s.history :=
        .order h.past (ht muted hm) h.shown nofun nofun
      have after := h.recordCall audio nofun
      exact .order after.past (List.cons_ne_nil _ _) after.shown nofun nofun
  shown := by
    rw [tellMuted_history, tellMuted_shared]
    exact h.shown.congr (attempts_told ..) (closings_told ..)
  loaded := by rw [tellMuted_romLoaded, tellMuted_shared]; exact h.loaded
  quiet hn := by
    rw [tellMuted_shared]
    rw [tellMuted_history, calls_append] at hn
    exact h.quiet (List.append_eq_nil_iff.mp hn).2

/-- A section of the audio lock, once the engine was called. -/
theorem withAudio (h : Obeyed s) (e : Engine σ) {change : Audio → Audio × Option Bool}
    (hc : calls s.history ≠ []) : Obeyed (s.withAudio e change) :=
  tellMuted (s := s.modify fun h => { h with audio := (change s.shared.audio).1 })
    ⟨h.past, h.shown, h.loaded, fun hn => absurd hn hc⟩ e fun _ _ => hc

/-- A control makes no call but to mute, and that only after the first one. -/
theorem control (h : Obeyed s) (e : Engine σ) (c : Control) : Obeyed (s.control e c) := by
  rw [control_eq]
  have recorded := h.record (.control c) rfl rfl
  refine tellMuted (s := (s.record (.control c)).modify (·.control c))
    ⟨recorded.past, ?_, ?_, fun hn => ?_⟩ e fun muted ht hn => ?_
  · change Shown (s.shared.control c).rom? _
    rw [Shared.control_rom?]
    exact recorded.shown
  · change s.romLoaded = (s.shared.control c).rom?.isSome
    rw [Shared.control_rom?]
    exact h.loaded
  · exact Shared.muted_control _ _ (h.quiet hn)
  · -- before the first call there is no sound that a pause could switch off
    rw [Shared.toldBy_eq_none _ _ (h.quiet hn)] at ht
    exact absurd ht nofun

/-- The ROM that is open is closed, and no ROM is open then. -/
theorem closeRom (h : Obeyed s) (e : Engine σ) :
    Obeyed (s.closeRom e) ∧ (s.closeRom e).shared.rom? = none := by
  obtain ⟨loaded, heq⟩ | ⟨loaded, heq⟩ := closeRom_cases e s
  · rw [heq]
    exact ⟨h, by simpa [loaded] using h.loaded.symm⟩
  · rw [heq]
    have isOpen : s.shared.rom? ≠ none := by
      rw [← Option.isSome_iff_ne_none, ← h.loaded]
      exact loaded
    have count := h.shown.of_ne_none isOpen
    -- a ROM that is open was loaded, so the closing is not the first call
    have called : calls s.history ≠ [] := by
      refine calls_ne_nil_of_attempts fun hn => ?_
      rw [show accepted s.history = 0 by rw [accepted, hn]; rfl] at count
      omega
    refine ⟨⟨?_, ?_, rfl, fun hn => absurd hn (List.cons_ne_nil _ _)⟩, rfl⟩
    · exact throughout_cons.mpr ⟨.call h.past called h.shown nofun nofun nofun (fun _ => isOpen)
        nofun, h.past⟩
    · change accepted s.history = closings (⟨.call (.order .closeRom), s.view⟩ :: s.history)
      rw [count]
      exact List.count_cons_self.symm

/-- The engine accepted the load that waited for its answer. -/
theorem acceptRom (h : Obeyed s) (e : Engine σ) {rom : Path}
    {rest : List (Path × Option Bool)} (now : Nat) (hr : s.shared.rom? = none)
    (ha : attempts s.history = (rom, none) :: rest) : Obeyed (s.acceptRom e rom now) := by
  have closed := h.shown
  rw [hr] at closed
  -- the load that waited at the head of the attempts is now counted
  have opened : accepted (⟨.accept rom, s.view⟩ :: s.history) = accepted s.history + 1 ∧
      lastAccepted? (⟨.accept rom, s.view⟩ :: s.history) = some rom := by
    unfold accepted lastAccepted?
    rw [show attempts (⟨.accept rom, s.view⟩ :: s.history) = (rom, some true) :: rest by
      simp [attempts, ha, answer], ha]
    simp
  have called : calls s.history ≠ [] :=
    calls_ne_nil_of_attempts (by rw [ha]; exact List.cons_ne_nil _ _)
  have shown : Shown (some rom) (⟨.accept rom, s.view⟩ :: s.history) :=
    ⟨opened.1.trans (congrArg (· + 1) closed), opened.2⟩
  refine ⟨?_, shown, rfl, fun hn => absurd hn called⟩
  rw [acceptRom_history]
  exact throughout_cons.mpr ⟨.of_shown nofun shown,
    throughout_cons.mpr ⟨.of_shown nofun h.shown, h.past⟩⟩

/-- The engine refused the load that waited for its answer. -/
theorem rejectRom (h : Obeyed s) {rom : Path} {rest : List (Path × Option Bool)}
    (hr : s.shared.rom? = none) (ha : attempts s.history = (rom, none) :: rest) :
    Obeyed (s.rejectRom rom) := by
  have closed := h.shown
  rw [hr] at closed
  -- a refusal leaves the count as it is
  have same : accepted (⟨.reject rom, s.view⟩ :: s.history) = accepted s.history := by
    unfold accepted
    rw [show attempts (⟨.reject rom, s.view⟩ :: s.history) = (rom, some false) :: rest by
      simp [attempts, ha, answer], ha]
    simp
  have rejected : Obeyed (s.record (.reject rom)) := by
    refine ⟨?_, ?_, h.loaded, h.quiet⟩
    · exact throughout_cons.mpr ⟨.of_shown nofun h.shown, h.past⟩
    · change Shown s.shared.rom? _
      rw [hr]
      exact same.trans closed
  exact (rejected.emit _).emit _

end Obeyed

/-! ### What holds at a point goes on to hold -/

/-- No call is forgotten and no mode change that waits is lost. -/
structure Grown (s s' : Scheduler σ) : Prop where
  calls : ∀ c ∈ calls s.history, c ∈ calls s'.history
  waiting : ∀ k, s.shared.requests.waiting? k ≠ none → s'.shared.requests.waiting? k ≠ none

namespace Grown

variable {s s' : Scheduler σ} {k : ModeKind}

/-- What was given stays given. -/
theorem given (g : Grown s s') (h : Given k s.history) : Given k s'.history := by
  obtain ⟨mode, hk, hc⟩ := h
  exact ⟨mode, hk, g.calls _ hc⟩

theorem settable (g : Grown s s') (h : Settable s) : Settable s' :=
  fun k => (h k).imp g.given (g.waiting k)

theorem begun (g : Grown s s') (h : Begun s) (known : s'.shared.phase ≠ .uninitialized) :
    Begun s' := by
  obtain ⟨c, hc⟩ := List.exists_mem_of_ne_nil _ h.2
  exact ⟨known, List.ne_nil_of_mem (g.calls c hc)⟩

theorem record (s : Scheduler σ) (c : EngineCall) : Grown s (s.record (.call c)) where
  calls _ h := List.mem_cons_of_mem c h
  waiting _ h := h

theorem order (s : Scheduler σ) (e : Engine σ) (o : Order) : Grown s (s.order e o) where
  calls _ h := List.mem_cons_of_mem _ h
  waiting _ h := h

theorem closeRom (s : Scheduler σ) (e : Engine σ) : Grown s (s.closeRom e) := by
  obtain ⟨-, heq⟩ | ⟨-, heq⟩ := closeRom_cases e s
  · rw [heq]
    exact ⟨fun _ h => h, fun _ h => h⟩
  · rw [heq]
    exact ⟨fun _ h => List.mem_cons_of_mem _ h, fun _ h => h⟩

/-- A section of the audio lock forgets no call and takes nothing from a mailbox. -/
theorem withAudio (s : Scheduler σ) (e : Engine σ) (change : Audio → Audio × Option Bool) :
    Grown s (s.withAudio e change) where
  calls c hc := by rw [withAudio_history]; exact mem_calls_told _ _ _ hc
  waiting k hk := by rw [withAudio_shared]; exact hk

/-- A control forgets no call. It can displace a mode change that waits, but by another one. -/
theorem control (s : Scheduler σ) (e : Engine σ) (c : Control) : Grown s (s.control e c) where
  calls c hc := by rw [control_history]; exact mem_calls_told _ _ _ hc
  waiting k hk := by
    rw [control_shared, Shared.waiting?_control]
    split
    · split
      · simp
      · exact hk
    · exact hk

end Grown

section Annotation

variable {e : Engine σ} {s s' : Scheduler σ} {p p' : Point}

/-- What holds at a point where controls can come holds after them. -/
theorem At.control (ho : Obeyed s) (h : At s p) (hp : p.Open) (c : Control) :
    At (s.control e c) p := by
  have g := Grown.control s e c
  have phase : (s.control e c).shared.phase = s.shared.phase := by
    rw [control_shared, Shared.control_phase]
  have rom : (s.control e c).shared.rom? = s.shared.rom? := by
    rw [control_shared, Shared.control_rom?]
  have begun : Begun s → Begun (s.control e c) := fun b => g.begun b (by rw [phase]; exact b.1)
  cases p with
  | between =>
    -- before the first tick a control must not make the first call; afterwards it may call
    refine ⟨h.1.imp (fun fresh => ⟨phase.trans fresh.1, ?_⟩) begun, g.settable h.2⟩
    -- the engine was never called, so sound is off and no control calls it
    rw [control_history, Shared.toldBy_eq_none _ _ (ho.quiet fresh.2)]
    exact fresh.2
  | inSetUp answer => exact ⟨begun h.1, g.settable h.2⟩
  | inLoad rom' accepted =>
    obtain ⟨hb, hs, hr, rest, ha⟩ := h
    refine ⟨begun hb, g.settable hs, rom.trans hr, rest, ?_⟩
    rw [control_history, attempts_told]
    exact ha
  | inStep steps panics =>
    exact ⟨begun h.1, fun k => g.given (h.2.1 k), by rw [control_romLoaded]; exact h.2.2⟩
  | released error? => exact rom.trans h
  | failed error => trivial
  | broken => trivial
  | _ => exact hp.elim

/-- A step that fails leaves the tick, and then nothing more is claimed. -/
theorem At.after (h : At s p) (r : Except SchedulerError Unit) : At s (.after r p) := by
  cases r with
  | ok u => exact h
  | error error => trivial

/-- A mode that does not wait was given before, and one that waits is given now. -/
theorem annotated_apply {k : ModeKind} {ks : List ModeKind} {r : Except SchedulerError Unit}
    (ho : Obeyed s) (h : At s (.applying (k :: ks))) (ha : s.applyMode e k = (r, s')) :
    Obeyed s' ∧ At s' (.after r (.applying ks)) := by
  obtain ⟨hb, hs, hg⟩ := h
  obtain ⟨hw, rfl, rfl⟩ | ⟨mode, hw, ⟨rfl, rfl⟩ | ⟨rfl, rfl⟩⟩ := applyMode_cases ha
  · refine ⟨ho, hb, hs, fun j hj => ?_⟩
    by_cases hjk : j = k
    · subst hjk
      exact (hs j).resolve_right fun hn => hn hw
    · exact hg j (by simp [hjk, hj])
  · have lawful : Lawful ⟨.call (.order (.setMode mode)), s.view⟩ s.history :=
      .order ho.past hb.2 ho.shown nofun nofun
    have given : Given k (⟨.call (.order (.setMode mode)), s.view⟩ :: s.history) :=
      ⟨mode, Requests.kind_of_waiting? hw, List.mem_cons_self ..⟩
    have kept {j : ModeKind} (hj : Given j s.history) :
        Given j (⟨.call (.order (.setMode mode)), s.view⟩ :: s.history) :=
      (Grown.record s (.order (.setMode mode))).given hj
    refine ⟨(ho.recordCall lawful nofun).of_eq rfl rfl rfl rfl,
      ⟨hb.1, List.cons_ne_nil _ _⟩, fun j => ?_, fun j hj => ?_⟩
    · by_cases hjk : j = k
      · subst hjk
        exact .inl given
      · -- the other mailboxes are as they were
        refine (hs j).imp kept fun hn => ?_
        change (s.shared.requests.takeMode k).2.waiting? j ≠ none
        rw [Requests.waiting?_takeMode, if_neg hjk]
        exact hn
    · by_cases hjk : j = k
      · subst hjk
        exact given
      · exact kept (hg j (by simp [hjk, hj]))
  · exact ⟨ho.of_eq rfl rfl rfl rfl, trivial⟩

/-- **The annotation is kept by every step of the loop.** -/
theorem annotated_step (ho : Obeyed s) (h : At s p) (hl : Loop e p s p' s') :
    Obeyed s' ∧ At s' p' := by
  cases hl with
  | halt => exact ⟨ho.record .tick rfl rfl, h⟩
  | first _ fresh => exact ⟨ho.record .tick rfl rfl, (h.1.resolve_right fun b => b.1 fresh).2, h.2⟩
  | begin _ prepared =>
    exact ⟨ho.record .tick rfl rfl, h.1.resolve_left fun f => prepared f.1, h.2⟩
  | create hc =>
    obtain ⟨files, rfl⟩ := createTree_cases hc
    refine ⟨(ho.publish .initializing).of_eq rfl rfl rfl rfl, At.after ?_ _⟩
    exact ⟨nofun, h.1, h.2⟩
  | purge hc =>
    obtain ⟨files, rfl | ⟨removed, rfl⟩⟩ := purgeImages_cases hc
    · exact ⟨ho.of_eq rfl rfl rfl rfl, At.after (p := .directing) h _⟩
    · have same : Obeyed { s with files } := ho.of_eq rfl rfl rfl rfl
      exact ⟨same.record (.purge _ removed) rfl rfl, At.after (p := .directing) h _⟩
  | direct =>
    -- nothing was called before, which is what the protocol asks of the directories
    obtain ⟨known, silent, hs⟩ := h
    have told (root temp : Path) :
        Obeyed (s.record (.call (.order (.setDirectories root temp)))) :=
      ho.recordCall (.setDirectories silent ho.shown) nofun
    refine ⟨(told _ _).of_eq rfl rfl rfl rfl, ⟨known, List.cons_ne_nil _ _⟩, ?_,
      (Grown.order s e _).settable hs⟩
    change EngineCall.setUp ∉ _ :: calls s.history
    rw [silent]
    simp
  | skip => exact ⟨ho, h.1, h.2.2⟩
  | setUp =>
    obtain ⟨hb, hn, hs⟩ := h
    have g := Grown.record s .setUp
    have lawful : Lawful ⟨.call .setUp, s.view⟩ s.history :=
      .call ho.past hb.2 ho.shown nofun (fun _ => hn) nofun nofun nofun
    exact ⟨(ho.recordCall lawful nofun).of_eq rfl rfl rfl rfl, g.begun hb hb.1,
      g.settable hs⟩
  | setUpEnds => exact ⟨ho, At.after (p := .checking) h _⟩
  | check => exact ⟨ho, At.after (p := .engaging) h _⟩
  | engage =>
    obtain ⟨hb, hs⟩ := h
    have g := Grown.withAudio s e Audio.engage
    refine ⟨((ho.withAudio e hb.2).record _ rfl rfl).publish .idle, ⟨?_, ?_⟩, g.settable hs⟩
    · exact nofun
    · exact (g.begun hb (by rw [withAudio_shared]; exact hb.1)).2
  | announce => exact ⟨ho.emit _, h⟩
  | close =>
    obtain ⟨hb, hs⟩ := h
    have g := Grown.closeRom s e
    have known : (s.closeRom e).shared.phase ≠ .uninitialized := by
      rw [closeRom_phase]
      exact hb.1
    exact ⟨(ho.closeRom e).1, g.begun hb known, g.settable hs, (ho.closeRom e).2⟩
  | @load _ rom =>
    -- the ROM of before was closed just now
    obtain ⟨hb, hs, hr⟩ := h
    have g := Grown.record s (.load rom)
    have lawful : Lawful ⟨.call (.load rom), s.view⟩ s.history :=
      .call ho.past hb.2 ho.shown nofun nofun (fun _ _ => hr) nofun nofun
    exact ⟨(ho.recordCall lawful nofun).of_eq rfl rfl rfl rfl, g.begun hb hb.1,
      g.settable hs, hr, attempts s.history, rfl⟩
  | accept now =>
    obtain ⟨hb, hs, hr, rest, ha⟩ := h
    exact ⟨ho.acceptRom e now hr ha, hb, hs⟩
  | reject =>
    obtain ⟨hb, hs, hr, rest, ha⟩ := h
    exact ⟨ho.rejectRom hr ha, hb, hs⟩
  | configure =>
    obtain ⟨hb, hs⟩ := h
    -- every kind is still to be looked at
    refine ⟨ho.record .configure rfl rfl, hb, hs, fun k hk => ?_⟩
    exact absurd (by cases k <;> simp [ModeKind.all]) hk
  | apply ha => exact annotated_apply ho h ha
  | configured => exact ⟨ho, h.1, fun k => h.2.2 k (by simp)⟩
  | choose runs =>
    have loaded : s.romLoaded = true := by
      rw [Bool.and_eq_true] at runs
      exact runs.1
    exact ⟨ho, At.after (p := .running) ⟨h.1, h.2, loaded⟩ _⟩
  | run =>
    refine ⟨ho.publish .running, ⟨?_, h.1.2⟩, h.2⟩
    exact nofun
  | unmute =>
    obtain ⟨hb, hg, hr⟩ := h
    have g := Grown.withAudio s e (Audio.unmute · s.shared.paused)
    refine ⟨ho.withAudio e hb.2, g.begun hb (by rw [withAudio_shared]; exact hb.1),
      fun k => g.given (hg k), by rw [withAudio_romLoaded]; exact hr⟩
  | step =>
    obtain ⟨hb, hg, hr⟩ := h
    have g := Grown.record s .step
    -- the loop goes by its own flag, and the flag agrees with what controllers see
    have isOpen : s.shared.rom? ≠ none := by
      rw [← Option.isSome_iff_ne_none, ← ho.loaded]
      exact hr
    have lawful : Lawful ⟨.call .step, s.view⟩ s.history :=
      .call ho.past hb.2 ho.shown nofun nofun nofun nofun fun _ => ⟨isOpen, hg⟩
    exact ⟨(ho.recordCall lawful nofun).of_eq rfl rfl rfl rfl, g.begun hb hb.1,
      fun k => g.given (hg k), hr⟩
  | @present _ n now =>
    obtain ⟨rate, window, heq⟩ := present_cases (s := s) n now
    rw [heq]
    exact ⟨(ho.record (.present n) rfl rfl).of_eq rfl rfl rfl rfl, .inr h.1,
      fun k => .inl (h.2.1 k)⟩
  | park => exact ⟨ho, h.1, h.2, parkedPhase_known _⟩
  | publish => exact ⟨ho.publish _, ⟨h.2.2, h.1.2⟩, h.2.1⟩
  | sleep => exact ⟨ho.of_eq rfl rfl rfl rfl, .inr h.1, fun k => .inl (h.2 k)⟩
  | empty => exact ho.closeRom e
  | vanish => exact ⟨ho.publish _, h⟩
  | noLoad | rest | again => exact ⟨ho, h⟩
  | takeLoad | lock | finish => exact ⟨ho.of_eq rfl rfl rfl rfl, h⟩
  -- a run that is to end has nothing more to say of the modes
  | giveUp | abandon | requestStop => exact ⟨ho.of_eq rfl rfl rfl rfl, trivial⟩
  | stop | abort => exact ⟨ho.publish _, trivial⟩

/-- Nothing that the annotation speaks of is the files or the cheat list. -/
theorem annotated_outside (ho : Obeyed s) (h : At s p) (files : FileTree) (cheats : CheatStore) :
    Obeyed (s.outside files cheats) ∧ At (s.outside files cheats) p := by
  refine ⟨ho.of_eq rfl rfl rfl rfl, ?_⟩
  cases p <;> exact h

/-- A scheduler that has done nothing yet has every mode in its mailbox. -/
theorem annotated_start (e : Engine σ) (engine : σ) (workingDirectory : Path) (modes : Modes)
    (sink : Sink) (files : FileTree) (now : Nat) :
    Obeyed (.start e engine workingDirectory modes sink files now) ∧
      At (.start e engine workingDirectory modes sink files now) .between := by
  refine ⟨⟨throughout_nil, rfl, rfl, fun _ => rfl⟩, .inl ⟨rfl, rfl⟩, fun k => .inr ?_⟩
  change (Requests.seed {} modes).waiting? k ≠ none
  rw [Requests.waiting?_seed]
  exact Option.some_ne_none _

/-- What the annotation says of a point holds whenever the loop is there. -/
theorem annotated_reached {s₀ : Scheduler σ} (ho : Obeyed s₀) (h : At s₀ .between)
    (hr : Reached e s₀ p s) : Obeyed s ∧ At s p := by
  -- the loop, a controller or somebody outside; each keeps what holds at the point
  induction hr with
  | start => exact ⟨ho, h⟩
  | loop _ hl ih => exact annotated_step ih.1 ih.2 hl
  | control _ hp c ih => exact ⟨ih.1.control e c, ih.2.control ih.1 hp c⟩
  | outside _ files cheats ih => exact annotated_outside ih.1 ih.2 files cheats

end Annotation

/-- **The engine is called in order.** In every run every entry is lawful, whatever the engine
answers and whatever it does from inside its calls; controllers see the ROM that is open and no
other; and once the run is released none is open. -/
theorem engine_protocol {e : Engine σ} {engine : σ} {workingDirectory : Path} {modes : Modes}
    {sink : Sink} {files : FileTree} {now : Nat} {p : Point} {s : Scheduler σ}
    (hr : Run e (.start e engine workingDirectory modes sink files now) p s) :
    Throughout Lawful s.history ∧ Shown s.shared.rom? s.history ∧
      ∀ error?, p = .released error? →
        s.shared.rom? = none ∧ accepted s.history = closings s.history := by
  obtain ⟨ho, hp⟩ := annotated_start e engine workingDirectory modes sink files now
  obtain ⟨ho, hp⟩ := annotated_reached ho hp hr.reached
  refine ⟨ho.past, ho.shown, ?_⟩
  rintro error? rfl
  have closed : s.shared.rom? = none := hp
  have count := ho.shown
  rw [closed] at count
  exact ⟨closed, count⟩

/-- A run with a load and a second one in its place, which is then told to stop: both ROMs were
closed. -/
theorem engine_protocol_reload :
    let e := TestPattern.engine
    let s₁ := ((sample.control e (.load sampleRom)).tick e {} 1).2
    let s₂ := ((s₁.control e (.load sampleRom)).tick e {} 1).2.control e .shutdown
    Throughout Lawful (s₂.release e).history ∧ s₁.shared.rom? = some sampleRom ∧
      (s₂.release e).shared.rom? = none ∧ closings (s₂.release e).history = 2 := by
  intro e s₁ s₂
  have loaded : Run e sample .between s₁ := (Run.start.control _).done {} 1 (.stepped 1) (by decide)
  have again : Run e sample .between s₂ :=
    ((loaded.control _).done {} 1 (.stepped 1) (by decide)).control _
  have law := engine_protocol (again.stop (by decide))
  exact ⟨law.1, by decide, (law.2.2 none rfl).1, by decide⟩

end EmuScheduler
