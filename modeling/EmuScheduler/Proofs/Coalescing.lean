import EmuScheduler.Proofs.History
import EmuScheduler.Proofs.Oblivious

/-!
# Independent requests coalesce and commute

Controllers that leave requests between two ticks need not agree on an order. Of what is left in a
mailbox only the last counts, one mailbox has nothing to do with another, to stop is to stop however
often it is said, and to wake changes nothing. Only pauses have to keep their order, as the first of
them may have something to tell the engine. So two sequences of requests that leave the same in each
mailbox, pause alike and agree on stopping (`SameRequests`) are interchangeable: nothing that
follows can tell which of them it was.

Each part of the state has its own law, which says what a whole sequence does to it:

* `last_left`, for anything that keeps the last value it was given, and so for the five mailboxes;
* `muting_controls`, for the engine, the pause flag and the mute state: they depend on the pauses;
* `stopping_controls` and `asleep_controls`, for the two flags that go one way;
* `untouched_controls`, for all the rest, which requests leave alone.

Together they determine the scheduler but for its past and its gate (`Scheduler.bare`), and the past
is of no consequence (`goAlike_of_forget`, `follows_of_forget`). Of the gate there remains whether
the loop sleeps. Between two ticks it does not, and then the requests cannot change that. While it
sleeps, a wake more in one of the sequences ends the sleep, and what follows is compared when both
ended it or neither did.
-/

namespace EmuScheduler

open Scheduler

/-! ### Requests -/

namespace Control

/-- Whether a control is a request to the loop. -/
def isRequest : Control → Bool
  | .load _ | .change _ | .pause _ | .shutdown | .wake => true
  | _ => false

/-- Whether a control pauses or ends the pause. -/
def isPause : Control → Bool
  | .pause _ => true
  | _ => false

/-- Whether a control notifies the gate. -/
def wakes : Control → Bool
  | .load _ | .pause false | .shutdown | .wake => true
  | _ => false

/-- The ROM that a control leaves in its mailbox. -/
def load? : Control → Option Path
  | .load rom => some rom
  | _ => none

/-- The change that a control leaves in the mailbox of a mode. -/
def mode? (k : ModeKind) : Control → Option ModeChange
  | .change mode => if mode.kind = k then some mode else none
  | _ => none

end Control

/-- Requests that come to the same. -/
structure SameRequests (cs ds : List Control) : Prop where
  left : ∀ c ∈ cs, c.isRequest = true
  right : ∀ c ∈ ds, c.isRequest = true
  /-- Both leave the same ROM last, or none, -/
  load : (cs.filterMap Control.load?).getLast? = (ds.filterMap Control.load?).getLast?
  /-- and the same change of each mode. -/
  modes : ∀ k, (cs.filterMap (Control.mode? k)).getLast? = (ds.filterMap (Control.mode? k)).getLast?
  pauses : cs.filter Control.isPause = ds.filter Control.isPause
  shutdown : .shutdown ∈ cs ↔ .shutdown ∈ ds

variable {σ : Type} {e : Engine σ} {s s₁ s₂ : Scheduler σ} {cs ds : List Control}

/-! ### Mailboxes -/

/-- What keeps the last value it was given has the last one of all after several controls. -/
theorem last_left {α : Type} (kept : Shared → Option α) {given : Control → Option α}
    (one : ∀ h c, kept (h.control c) = (given c).or (kept h)) :
    kept (s.controls e cs).shared =
      (cs.filterMap given).getLast?.or (kept s.shared) := by
  -- from the first control on; what it left is the old value for the others
  induction cs generalizing s with
  | nil => rfl
  | cons c cs ih =>
    refine (ih (s := s.control e c)).trans ?_
    rw [control_shared, one, List.filterMap_cons]
    cases given c with
    | none => rfl
    | some a =>
      -- this one counts unless a later one was given
      rw [List.getLast?_cons]
      cases (cs.filterMap given).getLast? <;> rfl

/-- A request for a load replaces the ROM that waits, and no other control touches it. -/
theorem rom_control (h : Shared) (c : Control) :
    (h.control c).requests.rom.value? = c.load?.or h.requests.rom.value? := by
  cases c with
  | change mode => exact congrArg Mailbox.value? (Requests.rom_change h.requests mode)
  | pause paused => cases paused <;> rfl
  | _ => rfl

/-- After several controls the last ROM that was asked for waits. -/
theorem rom_controls :
    (s.controls e cs).shared.requests.rom.value? =
      (cs.filterMap Control.load?).getLast?.or s.shared.requests.rom.value? :=
  last_left (·.requests.rom.value?) rom_control

/-- The same of a mode. -/
theorem waiting?_controls (k : ModeKind) :
    (s.controls e cs).shared.requests.waiting? k =
      (cs.filterMap (Control.mode? k)).getLast?.or (s.shared.requests.waiting? k) :=
  last_left (·.requests.waiting? k) fun h c => by
    rw [Shared.waiting?_control]
    cases c with
    | change mode =>
      -- a change is of one kind, and of any other it leaves nothing
      unfold Control.mode?
      dsimp only
      by_cases hk : k = mode.kind
      · rw [if_pos hk, if_pos hk.symm]
        rfl
      · rw [if_neg hk, if_neg (Ne.symm hk)]
        rfl
    | _ => rfl

/-- The mailboxes are what waits in them. -/
theorem requests_ext {r r' : Requests} (rom : r.rom.value? = r'.rom.value?)
    (modes : ∀ k, r.waiting? k = r'.waiting? k) : r = r' := by
  obtain ⟨⟨rom₁⟩, ⟨renderer₁⟩, ⟨soundCore₁⟩, ⟨cpu₁⟩, ⟨soundSync₁⟩⟩ := r
  obtain ⟨⟨rom₂⟩, ⟨renderer₂⟩, ⟨soundCore₂⟩, ⟨cpu₂⟩, ⟨soundSync₂⟩⟩ := r'
  -- a mailbox of modes is read through the constructor of its kind, which loses nothing
  have renderers : renderer₁ = renderer₂ :=
    Option.map_injective (fun _ _ => ModeChange.renderer.inj) (modes .renderer)
  have soundCores : soundCore₁ = soundCore₂ :=
    Option.map_injective (fun _ _ => ModeChange.soundCore.inj) (modes .soundCore)
  have cpus : cpu₁ = cpu₂ := Option.map_injective (fun _ _ => ModeChange.cpu.inj) (modes .cpu)
  have soundSyncs : soundSync₁ = soundSync₂ :=
    Option.map_injective (fun _ _ => ModeChange.soundSync.inj) (modes .soundSync)
  obtain rfl : rom₁ = rom₂ := rom
  subst renderers soundCores cpus soundSyncs
  rfl

/-- Requests that come to the same leave the same in every mailbox. -/
theorem requests_of_same (same : SameRequests cs ds) :
    (s.controls e cs).shared.requests = (s.controls e ds).shared.requests := by
  apply requests_ext
  · rw [rom_controls, rom_controls, same.load]
  · intro k
    rw [waiting?_controls, waiting?_controls, same.modes]

/-! ### Pausing and muting -/

/-- What pausing depends on and changes. -/
structure Muting (σ : Type) where
  engine : σ
  paused : Bool
  audio : Audio
  /-- What the engine was told. -/
  calls : List EngineCall

/-- What a scheduler has of that. -/
def Scheduler.muting (s : Scheduler σ) : Muting σ :=
  ⟨s.engine, s.shared.paused, s.shared.audio, calls s.history⟩

/-- What the engine is told it is told alike. -/
theorem muting_tellMuted (h : s₁.muting = s₂.muting) (t : Option Bool) :
    (s₁.tellMuted e t).muting = (s₂.tellMuted e t).muting := by
  cases t with
  | none => exact h
  | some muted =>
    obtain ⟨engines, pauses, audios, told⟩ := Muting.mk.inj h
    unfold muting
    congr 1
    · exact congrArg (fun x => e.obey (e.obey x (.muteAudio muted)) (.muteMic muted)) engines
    · exact congrArg (fun x => .order (.muteMic muted) :: .order (.muteAudio muted) :: x) told

/-- What a control does to muting, it does alike wherever muting is the same. -/
theorem muting_control (h : s₁.muting = s₂.muting) (c : Control) :
    (s₁.control e c).muting = (s₂.control e c).muting := by
  obtain ⟨engines, pauses, audios, told⟩ := Muting.mk.inj h
  cases c with
  | pause paused =>
    cases paused with
    | false =>
      change Muting.mk s₁.engine false s₁.shared.audio (calls s₁.history) =
        Muting.mk s₂.engine false s₂.shared.audio (calls s₂.history)
      rw [engines, audios, told]
    | true =>
      -- what the engine is told is decided by the mute state before
      rw [control_eq, control_eq]
      have tells : s₁.shared.toldBy (.pause true) = s₂.shared.toldBy (.pause true) :=
        congrArg (·.mute.2) audios
      rw [tells]
      refine muting_tellMuted ?_ _
      change Muting.mk s₁.engine true s₁.shared.audio.mute.1 (calls s₁.history) =
        Muting.mk s₂.engine true s₂.shared.audio.mute.1 (calls s₂.history)
      rw [engines, audios, told]
  | _ => exact h

/-- **Muting depends on the pauses alone.** -/
theorem muting_controls (h : s₁.muting = s₂.muting) :
    (s₁.controls e cs).muting = (s₂.controls e (cs.filter Control.isPause)).muting := by
  -- two schedulers, as the first goes through requests of which the second is not told
  induction cs generalizing s₁ s₂ with
  | nil => exact h
  | cons c cs ih =>
    cases c with
    | pause paused => exact ih (muting_control h (.pause paused))
    | _ => exact ih h

/-- Requests that come to the same pause alike, so the engine hears the same of them. -/
theorem muting_of_same (same : SameRequests cs ds) :
    (s.controls e cs).muting = (s.controls e ds).muting :=
  calc (s.controls e cs).muting
    _ = (s.controls e (cs.filter Control.isPause)).muting := muting_controls rfl
    _ = (s.controls e (ds.filter Control.isPause)).muting := by rw [same.pauses]
    _ = (s.controls e ds).muting := (muting_controls rfl).symm

/-! ### Flags that go one way -/

/-- The scheduler is to stop if it was to before or one of the controls says so. -/
theorem stopping_controls :
    (s.controls e cs).shared.stopping = (s.shared.stopping || decide (.shutdown ∈ cs)) := by
  induction cs generalizing s with
  | nil => exact (Bool.or_false _).symm
  | cons c cs ih =>
    -- the flag is read off the first control, and then the others may set it too
    refine (ih (s := s.control e c)).trans ?_
    rw [control_shared]
    cases c with
    | shutdown => simp [Shared.control, Shared.requestStop, Shared.notify]
    | pause paused => cases paused <;> simp [Shared.control, Shared.storePaused, Shared.notify]
    | _ => simp [Shared.control, Shared.requestLoad, Shared.requestChange, Shared.notify]

/-- The loop sleeps on for as long as no control notifies the gate. -/
theorem asleep_controls :
    (s.controls e cs).shared.gate.asleep =
      (s.shared.gate.asleep && !cs.any Control.wakes) := by
  induction cs generalizing s with
  | nil => exact (Bool.and_true _).symm
  | cons c cs ih =>
    have one : (s.control e c).shared.gate.asleep = (s.shared.gate.asleep && !c.wakes) := by
      rw [control_shared]
      cases c with
      | pause paused => cases paused <;> simp [Shared.control, Control.wakes, Shared.storePaused,
          Shared.notify, Gate.notify]
      | _ => simp [Shared.control, Control.wakes, Shared.requestLoad, Shared.requestChange,
          Shared.requestStop, Shared.notify, Gate.notify]
    -- whoever wakes the loop first, it stays awake
    refine (ih (s := s.control e c)).trans ?_
    rw [one, List.any_cons, Bool.not_or, Bool.and_assoc]

/-! ### What requests leave alone -/

/-- What no request touches. -/
structure Untouched where
  workingDirectory : Path
  romLoaded : Bool
  rate : RateWindow
  files : FileTree
  frame : FrameLock
  counter : FrameCounter
  notifier : Notifier
  phase : Phase
  rom? : Option Path
  cheats : CheatStore

/-- What a scheduler has of that. -/
def Scheduler.untouched (s : Scheduler σ) : Untouched where
  workingDirectory := s.workingDirectory
  romLoaded := s.romLoaded
  rate := s.rate
  files := s.files
  frame := s.shared.frame
  counter := s.shared.counter
  notifier := s.shared.notifier
  phase := s.shared.phase
  rom? := s.shared.rom?
  cheats := s.shared.cheats

/-- A request leaves the rest alone. -/
theorem untouched_control {c : Control} (request : c.isRequest = true) :
    (s.control e c).untouched = s.untouched := by
  rw [control_eq]
  -- to be told its mute state concerns the engine and the history alone
  have told (s : Scheduler σ) (t : Option Bool) : (s.tellMuted e t).untouched = s.untouched := by
    cases t <;> rfl
  rw [told]
  cases c with
  | pause paused => cases paused <;> rfl
  | load | change | shutdown | wake => rfl
  | _ => exact absurd request Bool.false_ne_true

/-- So do several requests. -/
theorem untouched_controls (requests : ∀ c ∈ cs, c.isRequest = true) :
    (s.controls e cs).untouched = s.untouched := by
  induction cs generalizing s with
  | nil => rfl
  | cons c cs ih =>
    have later := ih (s := s.control e c) fun c hc => requests c (List.mem_cons_of_mem _ hc)
    exact later.trans (untouched_control (requests c List.mem_cons_self))

/-! ### Requests that come to the same -/

/-- The scheduler without its past and its gate. -/
def Scheduler.bare (s : Scheduler σ) : Scheduler σ :=
  { s with history := [], shared := { s.shared with gate := {} } }

/-- Past and gate apart, nothing else is left of a scheduler. -/
theorem bare_ext (untouched : s₁.untouched = s₂.untouched) (muting : s₁.muting = s₂.muting)
    (requests : s₁.shared.requests = s₂.shared.requests)
    (stopping : s₁.shared.stopping = s₂.shared.stopping) : s₁.bare = s₂.bare := by
  -- compared field by field: what is in none of the four parts is taken away by bare
  obtain ⟨engine₁, shared₁, _, _, _, _, _⟩ := s₁
  obtain ⟨engine₂, shared₂, _, _, _, _, _⟩ := s₂
  obtain ⟨_, _, _, _, _, _, _, _, _, _, _⟩ := shared₁
  obtain ⟨_, _, _, _, _, _, _, _, _, _, _⟩ := shared₂
  cases untouched
  cases requests
  cases stopping
  obtain ⟨rfl, rfl, rfl, -⟩ := Muting.mk.inj muting
  rfl

/-- Apart from the past, a gate is its sleeper. -/
theorem forget_of_bare (h : s₁.bare = s₂.bare)
    (asleep : s₁.shared.gate.asleep = s₂.shared.gate.asleep) : s₁.forget = s₂.forget := by
  have again (s : Scheduler σ) : s.forget =
      s.bare.modify fun h => { h with gate := { asleep := s.shared.gate.asleep } } := rfl
  rw [again, again, h, asleep]

/-- **Two sequences of requests to a scheduler that can stand for each other.** -/
structure Interchangeable (e : Engine σ) (s : Scheduler σ) (cs ds : List Control) : Prop where
  /-- What comes of them differs in the past and the gate alone. -/
  bare : (s.controls e cs).bare = (s.controls e ds).bare
  /-- Neither can make the loop sleep, and each ends its sleep if it wakes. -/
  asleep : (s.controls e cs).shared.gate.asleep = (s.shared.gate.asleep && !cs.any Control.wakes) ∧
    (s.controls e ds).shared.gate.asleep = (s.shared.gate.asleep && !ds.any Control.wakes)
  /-- The engine was told the same on the way. -/
  told : ∃ new₁ new₂, (s.controls e cs).history = new₁ ++ s.history ∧
    (s.controls e ds).history = new₂ ++ s.history ∧ calls new₁ = calls new₂
  /-- What follows is the same: the scheduler goes on alike, and so does its loop wherever it is,
  with controllers beside it. If the loop sleeps now, both have to wake it or neither. -/
  future : (s.shared.gate.asleep = true → cs.any Control.wakes = ds.any Control.wakes) →
    (s.controls e cs).forget = (s.controls e ds).forget ∧
      (s.controls e cs).GoAlike e (s.controls e ds) ∧
      ∀ (ι : Type) [DecidableEq ι] (p : Point) (todo : ι → List ControlPart),
        World.Follows e ⟨p, s.controls e cs, todo⟩ ⟨p, s.controls e ds, todo⟩ ∧
          World.Follows e ⟨p, s.controls e ds, todo⟩ ⟨p, s.controls e cs, todo⟩

/-- What controls add to a history. -/
theorem controls_history (e : Engine σ) (s : Scheduler σ) (cs : List Control) :
    ∃ new, (s.controls e cs).history = new ++ s.history := by
  induction cs generalizing s with
  | nil => exact ⟨[], rfl⟩
  | cons c cs ih =>
    obtain ⟨new, later⟩ := ih (s.control e c)
    refine ⟨new ++ (toldEntries (s.shared.control c).view (s.shared.toldBy c) ++
      [⟨.control c, s.view⟩]), later.trans ?_⟩
    rw [control_history, List.append_assoc, List.append_assoc]
    rfl

/-- **Independent requests coalesce and commute.** -/
theorem requests_coalesce (e : Engine σ) (s : Scheduler σ) (same : SameRequests cs ds) :
    Interchangeable e s cs ds := by
  -- the four parts of the state, each by its own law
  have untouched : (s.controls e cs).untouched = (s.controls e ds).untouched :=
    (untouched_controls same.left).trans (untouched_controls same.right).symm
  have muting : (s.controls e cs).muting = (s.controls e ds).muting := muting_of_same same
  have stopping : (s.controls e cs).shared.stopping = (s.controls e ds).shared.stopping := by
    rw [stopping_controls, stopping_controls, decide_eq_decide.mpr same.shutdown]
  have bare := bare_ext untouched muting (requests_of_same same) stopping
  refine ⟨bare, ⟨asleep_controls, asleep_controls⟩, ?_, ?_⟩
  · obtain ⟨new₁, h₁⟩ := controls_history e s cs
    obtain ⟨new₂, h₂⟩ := controls_history e s ds
    -- the calls since the beginning are the same, and so are those that are new
    have told : calls (s.controls e cs).history = calls (s.controls e ds).history :=
      congrArg Muting.calls muting
    rw [h₁, h₂, calls_append, calls_append] at told
    exact ⟨new₁, new₂, h₁, h₂, List.append_cancel_right told⟩
  · intro wakes
    -- the gates agree on the only thing that counts of them
    have asleep : (s.controls e cs).shared.gate.asleep = (s.controls e ds).shared.gate.asleep := by
      rw [asleep_controls, asleep_controls]
      cases sleeping : s.shared.gate.asleep with
      | false =>
        -- no request puts the loop to sleep
        rfl
      | true => rw [wakes sleeping]
    have alike := forget_of_bare bare asleep
    exact ⟨alike, goAlike_of_forget alike, fun ι _ p todo =>
      ⟨follows_of_forget alike p todo, follows_of_forget alike.symm p todo⟩⟩

/-- Controllers at a game that runs, who change their minds or know at once what they want: either
way it falls silent, and what follows is the same. -/
theorem requests_coalesce_running :
    let e := TestPattern.engine
    let s := ((sample.control e (.load sampleRom)).tick e {} 1).2
    let cs := [.load (.ofString "/b"), .pause true, .change (.renderer .softRasterizer), .wake,
      .change (.cpu .interpreter), .load sampleRom, .change (.renderer .null), .pause true]
    let ds := [.change (.renderer .null), .pause true, .pause true, .load sampleRom,
      .change (.cpu .interpreter)]
    SameRequests cs ds ∧ s.shared.audio.muted = false ∧
      (s.controls e cs).shared.audio.muted = true ∧
      (s.controls e cs).shared.gate.notifications ≠ (s.controls e ds).shared.gate.notifications ∧
      (s.controls e cs).forget = (s.controls e ds).forget ∧
      (s.controls e cs).GoAlike e (s.controls e ds) := by
  intro e s cs ds
  have same : SameRequests cs ds :=
    { left := by decide
      right := by decide
      load := by decide +kernel
      modes := fun k => by cases k <;> decide
      pauses := by decide
      shutdown := by decide }
  have law := requests_coalesce e s same
  have ⟨alike, further, _⟩ := law.future (by decide)
  exact ⟨same, by decide, by decide, by decide, alike, further⟩

end EmuScheduler
