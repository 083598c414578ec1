import EmuScheduler.Proofs.Interleaving
import EmuScheduler.Proofs.Scrolling

/-!
# The history tells the engine

A history lists the calls to the engine and its answers to loads, and the engine itself is kept
beside it. The two never part. `Replay` makes the calls of a history over again, oldest first, on an
engine and the frame that it draws into (a `Console`), and what comes out is the engine and the
frame of the scheduler, wherever its loop is (`replay_reached`), also while controllers are in the
middle of their controls (`replay_reachable`). All that a history leaves open is which files a load
has found, for others may change them.

A replay is particular about answers. Between a load and its answer the engine is given orders and
is asked for nothing else, and an entry for an answer stands only where the engine has given it. So
what is proved of the loads in a history is a fact about the engine (`answer_given`), and what every
call keeps of an engine is kept (`Replay.kept`).

For the engine that draws the test pattern the history tells the next picture (`drawn_in_run`).
-/

namespace EmuScheduler

open Scheduler

variable {σ : Type} {e : Engine σ}

/-! ### Consoles -/

/-- An engine, with what it has to do with. -/
structure Console (σ : Type) where
  engine : σ
  /-- The frame that it draws into. -/
  buffer : FrameBuffer
  /-- The last load and its answer, as long as that has had no effect. -/
  given? : Option (Path × Bool) := none

/-- The load that the loop is in, with its answer. -/
def Point.given? : Point → Option (Path × Bool)
  | .inLoad rom accepted => some (rom, accepted)
  | _ => none

/-- The console of a scheduler, with the loop at a point. -/
def Scheduler.console (s : Scheduler σ) (p : Point) : Console σ where
  engine := s.engine
  buffer := s.shared.frame.buffer
  given? := p.given?

/-- Whether an action is neither a call to the engine nor about an answer of it. -/
def Action.isEngineless : Action → Bool
  | .call _ | .accept _ | .reject _ => false
  | _ => true

/-- **What an action makes of a console.** Orders can come at any time, because controllers give
some. -/
inductive Console.Next (e : Engine σ) : Console σ → Action → Console σ → Prop
  | order {c : Console σ} (o : Order) :
      Next e c (.call (.order o)) { c with engine := e.obey c.engine o }
  | setUp {c : Console σ} (idle : c.given? = none) :
      Next e c (.call .setUp) { c with engine := (e.setUp c.engine).engine }
  | load {c : Console σ} (idle : c.given? = none) (files : FileTree) (rom : Path) :
      Next e c (.call (.load rom))
        { c with
          engine := (e.load c.engine files rom).engine
          given? := some (rom, (e.load c.engine files rom).answer) }
  | step {c : Console σ} (idle : c.given? = none) :
      Next e c (.call .step)
        { c with
          engine := (e.step c.engine c.buffer).engine
          buffer := (e.step c.engine c.buffer).answer.buffer }
  | accept {c : Console σ} {rom : Path} (given : c.given? = some (rom, true)) :
      Next e c (.accept rom) { c with given? := none }
  | reject {c : Console σ} {rom : Path} (given : c.given? = some (rom, false)) :
      Next e c (.reject rom) { c with given? := none }
  | aside {c : Console σ} {a : Action} (aside : a.isEngineless = true) : Next e c a c

/-- **Histories made over again**: with what comes after `h₀` in a history, the console `c₀` comes
to this. -/
inductive Replay (e : Engine σ) (h₀ : List Entry) (c₀ : Console σ) :
    List Entry → Console σ → Prop
  | start : Replay e h₀ c₀ h₀ c₀
  | entry {h : List Entry} {c c' : Console σ} {x : Entry} (hr : Replay e h₀ c₀ h c)
      (hn : Console.Next e c x.action c') : Replay e h₀ c₀ (x :: h) c'

variable {h₀ h older new : List Entry} {c₀ c c' : Console σ} {s₀ s s' : Scheduler σ} {p p' : Point}

/-! ### The loop makes histories that can be made over again -/

section Loop

variable {x : Entry}

theorem Replay.aside (hr : Replay e h₀ c₀ h c) (aside : x.action.isEngineless = true) :
    Replay e h₀ c₀ (x :: h) c :=
  hr.entry (.aside aside)

/-- Where a part of a tick fails there is no answer to a load either. -/
theorem Replay.after {r : Except SchedulerError Unit} (hr : Replay e h₀ c₀ h (s.console p))
    (idle : p.given? = none) (idle' : p'.given? = none) :
    Replay e h₀ c₀ h (s.console (.after r p')) := by
  have none : (Point.after r p').given? = none :=
    Point.after_elim (motive := (·.given? = none)) idle' fun _ => rfl
  have same : s.console (.after r p') = s.console p := by
    unfold Scheduler.console
    rw [idle, none]
  rw [same]
  exact hr

/-- What the engine is told is recorded, the sound first and the microphone after it. -/
theorem replay_tellMuted (hr : Replay e h₀ c₀ s.history (s.console p)) (told : Option Bool) :
    Replay e h₀ c₀ (s.tellMuted e told).history ((s.tellMuted e told).console p) := by
  cases told with
  | none => exact hr
  | some muted => exact (hr.entry (.order _)).entry (.order _)

/-- So a section of the audio lock is replayed. -/
theorem replay_withAudio (hr : Replay e h₀ c₀ s.history (s.console p))
    (change : Audio → Audio × Option Bool) :
    Replay e h₀ c₀ (s.withAudio e change).history ((s.withAudio e change).console p) :=
  replay_tellMuted (s := s.modify fun h => { h with audio := (change s.shared.audio).1 }) hr _

/-- The closing of a ROM is one order, or nothing. -/
theorem replay_closeRom (hr : Replay e h₀ c₀ s.history (s.console p)) :
    Replay e h₀ c₀ (s.closeRom e).history ((s.closeRom e).console p) := by
  obtain ⟨-, heq⟩ | ⟨-, heq⟩ := closeRom_cases e s
  · rw [heq]
    exact hr
  · rw [heq]
    exact hr.entry (.order _)

/-- **A step of the loop adds to the history what it does to the engine.** -/
theorem replay_loop (hr : Replay e h₀ c₀ s.history (s.console p)) (hl : Loop e p s p' s') :
    Replay e h₀ c₀ s'.history (s'.console p') := by
  -- a step that calls the engine records the call; the others record what the engine has no part in
  cases hl with
  | create hc =>
    obtain ⟨files, rfl⟩ := createTree_cases hc
    have published := hr.aside (x := ⟨.publish s.shared.phase .initializing, s.view⟩) rfl
    exact Replay.after (s := { s.publish .initializing with files }) published rfl rfl
  | purge hc =>
    -- the files are not on the console, for the engine was handed those of its call
    obtain ⟨files, rfl | ⟨removed, rfl⟩⟩ := purgeImages_cases hc
    · exact Replay.after (s := { s with files }) hr rfl rfl
    · have purged := hr.aside (x := ⟨.purge (WorkingTree.below s.workingDirectory).temp removed,
        s.view⟩) rfl
      exact Replay.after (s := { s with files }) purged rfl rfl
  | direct => exact hr.entry (.order _)
  | setUp => exact hr.entry (.setUp rfl)
  | setUpEnds | check | choose => exact hr.after rfl rfl
  | engage =>
    have engaged := replay_withAudio hr Audio.engage
    exact (engaged.aside rfl).aside rfl
  | close | empty => exact replay_closeRom hr
  | load => exact hr.entry (.load rfl _ _)
  | accept => exact (hr.entry (.accept rfl)).aside rfl
  | reject => exact ((hr.entry (.reject rfl)).aside rfl).aside rfl
  | apply ha =>
    obtain ⟨-, rfl, rfl⟩ | ⟨mode, -, ⟨rfl, rfl⟩ | ⟨rfl, rfl⟩⟩ := applyMode_cases ha
    · exact hr
    · exact hr.entry (.order _)
    · exact hr
  | unmute => exact replay_withAudio hr _
  | step => exact hr.entry (.step rfl)
  | @present _ n now =>
    obtain ⟨rate, window, heq⟩ := present_cases (s := s) n now
    rw [heq]
    exact hr.aside rfl
  | halt | first | begin | announce | configure | run | publish | stop | abort | vanish =>
    exact hr.aside rfl
  | skip | noLoad | takeLoad | configured | rest | lock | again | finish | giveUp | abandon | park
  | sleep | requestStop => exact hr

/-- So does a control. -/
theorem replay_control (hr : Replay e h₀ c₀ s.history (s.console p)) (a : Control) :
    Replay e h₀ c₀ (s.control e a).history ((s.control e a).console p) := by
  rw [control_eq]
  refine replay_tellMuted (s := (s.record (.control a)).modify (·.control a)) ?_ _
  have same : ((s.record (.control a)).modify (·.control a)).console p = s.console p := by
    -- what a control does to the frame lock it does to its count and its mark
    cases a with
    | pause paused => cases paused <;> rfl
    | peek =>
      change Console.mk s.engine s.shared.frame.peek.buffer p.given? = _
      rw [FrameLock.peek_eq]
      rfl
    | _ => rfl
  rw [same]
  exact hr.aside rfl

/-- **The history tells the engine**, in every run. -/
theorem replay_reached (hr : Reached e s₀ p s) :
    Replay e s₀.history (s₀.console .between) s.history (s.console p) := by
  induction hr with
  | start => exact .start
  | loop _ hl ih => exact replay_loop ih hl
  | control _ _ c ih => exact replay_control ih c
  | outside _ _ _ ih => exact ih

end Loop

/-! ### Controllers beside the loop -/

section Worlds

variable {ι : Type} [DecidableEq ι] {w₀ w w' : World ι σ}

/-- A part of a control calls the engine only to mute it. -/
theorem replay_runPart (hr : Replay e h₀ c₀ s.history (s.console p)) (x : ControlPart) :
    Replay e h₀ c₀ (s.runPart e x).history ((s.runPart e x).console p) := by
  cases x with
  | mute => exact replay_withAudio hr _
  | peek =>
    change Replay e h₀ c₀ s.history ⟨s.engine, s.shared.frame.peek.buffer, p.given?⟩
    rw [FrameLock.peek_eq]
    exact hr
  | _ => exact hr

theorem replay_runParts (hr : Replay e h₀ c₀ s.history (s.console p)) (xs : List ControlPart) :
    Replay e h₀ c₀ (s.runParts e xs).history ((s.runParts e xs).console p) := by
  induction xs generalizing s with
  | nil => exact hr
  | cons x xs ih => exact ih (replay_runPart hr x)

/-- **The history tells the engine** in every interleaving, also while controls are interrupted. -/
theorem replay_reachable (hr : World.Reachable e w₀ w) :
    Replay e w₀.scheduler.history (w₀.scheduler.console w₀.point)
      w.scheduler.history (w.scheduler.console w.point) := by
  induction hr with
  | start => exact .start
  | step _ hs ih =>
    cases hs with
    | loop _ hl => exact replay_loop ih hl
    | call _ a => exact replay_runParts (ih.aside (x := ⟨.control a, _⟩) rfl) _
    | act => exact replay_runPart ih _
    | outside => exact ih

end Worlds

/-! ### What replays say -/

section Said

variable {P : σ → Prop} {rom : Path} {accepted : Bool}

/-- **What every call keeps of an engine is kept.** -/
theorem Replay.kept (hr : Replay e h₀ c₀ h c) (obey : ∀ g o, P g → P (e.obey g o))
    (setUp : ∀ g, P g → P (e.setUp g).engine)
    (load : ∀ g files rom, P g → P (e.load g files rom).engine)
    (step : ∀ g buffer, P g → P (e.step g buffer).engine) (start : P c₀.engine) : P c.engine := by
  induction hr with
  | start => exact start
  | @entry _ _ _ x _ hn ih =>
    obtain ⟨a, v⟩ := x
    cases hn with
    | order => exact obey _ _ ih
    | setUp => exact setUp _ ih
    | load => exact load _ _ _ ih
    | step => exact step _ _ ih
    | accept | reject | aside => exact ih

/-- What is older was made over before. -/
theorem Replay.earlier (hr : Replay e [] c₀ h c) (hs : older <:+ h) :
    ∃ c', Replay e [] c₀ older c' := by
  induction hr with
  | start =>
    obtain rfl := List.suffix_nil.mp hs
    exact ⟨c₀, .start⟩
  | entry hr hn ih =>
    obtain rfl | hs := List.suffix_cons_iff.mp hs
    · exact ⟨_, hr.entry hn⟩
    · exact ih hs

/-- The ROM that an action says was accepted or refused. -/
def Action.answered? : Action → Option (Path × Bool)
  | .accept rom => some (rom, true)
  | .reject rom => some (rom, false)
  | _ => none

/-- Whether an action leaves an answer that was given without effect. -/
def Action.isBetween : Action → Bool
  | .call (.order _) => true
  | a => a.isEngineless

/-- In a history the newest entry but orders and other things is a load of that ROM, and the engine
that it came to gave this answer. -/
def AnswerGiven (e : Engine σ) (c₀ : Console σ) (rom : Path) (accepted : Bool)
    (h : List Entry) : Prop :=
  ∃ between v before c files, h = between ++ ⟨.call (.load rom), v⟩ :: before ∧
    (∀ x ∈ between, x.action.isBetween = true) ∧ Replay e [] c₀ before c ∧
      (e.load c.engine files rom).answer = accepted

theorem AnswerGiven.later {x : Entry} (hg : AnswerGiven e c₀ rom accepted h)
    (hx : x.action.isBetween = true) : AnswerGiven e c₀ rom accepted (x :: h) := by
  obtain ⟨between, v, before, c, files, rfl, hb, hr, answer⟩ := hg
  refine ⟨x :: between, v, before, c, files, rfl, fun y hy => ?_, hr, answer⟩
  obtain rfl | hy := List.mem_cons.mp hy
  · exact hx
  · exact hb y hy

/-- An answer that has had no effect was given to the newest load. -/
theorem Replay.given (hr : Replay e [] c₀ h c) (idle : c₀.given? = none)
    (given : c.given? = some (rom, accepted)) : AnswerGiven e c₀ rom accepted h := by
  -- an answer comes with the load, and stays until the loop has settled it
  induction hr with
  | start => exact absurd (idle.symm.trans given) nofun
  | @entry _ _ _ x hr hn ih =>
    obtain ⟨a, v⟩ := x
    cases hn with
    | order => exact (ih given).later rfl
    | setUp none | step none => exact absurd (none.symm.trans given) nofun
    | load none files rom =>
      cases given
      exact ⟨[], v, _, _, files, rfl, fun x hx => absurd hx List.not_mem_nil, hr, rfl⟩
    | accept | reject => cases given
    | aside aside =>
      refine (ih given).later ?_
      cases a with
      | call => exact absurd aside nofun
      | _ => exact aside

/-- **Every answer in a history is one that the engine gave**, to the load before it. -/
theorem answer_given (hr : Replay e [] c₀ h c) (idle : c₀.given? = none) {x : Entry}
    (hs : x :: older <:+ h) (answered : x.action.answered? = some (rom, accepted)) :
    AnswerGiven e c₀ rom accepted older := by
  -- the history up to the answer is replayed too, and at its end the answer waits
  obtain ⟨c', now⟩ := hr.earlier hs
  cases now with
  | entry before hn =>
    obtain ⟨action, v⟩ := x
    cases hn with
    | accept given | reject given =>
      cases answered
      exact before.given idle given
    | aside aside =>
      cases action with
      | accept | reject => exact absurd aside nofun
      | _ => exact absurd answered nofun
    | _ => exact absurd answered nofun

end Said

/-! ### The test pattern in a run -/

section Pattern

open TestPattern

/-- The steps since a ROM was last accepted, or else since the beginning. -/
def stepsShown : List Entry → Nat
  | [] => 0
  | x :: older =>
    match x.action with
    | .accept _ => 0
    | .call .step => stepsShown older + 1
    | _ => stepsShown older

/-- The engine that draws the test pattern runs as its replay does. While the loop is in a load that
the engine has accepted, the steps begin anew for the engine and not yet for the history. -/
theorem pattern_of_replay {c : Console TestPattern} {buffer : FrameBuffer}
    (hr : Replay engine [] ⟨{}, buffer, none⟩ h c) :
    ∃ events, PatternRun c.engine events ∧
      stepsSince events = if c.given?.any (·.2) then 0 else stepsShown h := by
  -- the events are the calls of the history; the frames begin anew when an acceptance is settled,
  -- which is after the pattern has it
  induction hr with
  | start => exact ⟨[], .made, rfl⟩
  | @entry h c _ x _ hn ih =>
    obtain ⟨events, run, steps⟩ := ih
    obtain ⟨a, v⟩ := x
    cases hn with
    | order o => exact ⟨_, run.order o, steps⟩
    | setUp => exact ⟨_, run.setUp, steps⟩
    | load none files rom =>
      refine ⟨_, run.load files rom, ?_⟩
      rw [none] at steps
      cases (engine.load _ files rom).answer with
      | true => rfl
      | false => exact steps
    | step none =>
      refine ⟨_, run.step c.buffer, ?_⟩
      rw [none] at steps ⊢
      exact congrArg (· + 1) steps
    | accept given =>
      rw [given] at steps
      exact ⟨events, run, steps⟩
    | reject given =>
      rw [given] at steps
      exact ⟨events, run, steps⟩
    | aside aside =>
      have same : stepsShown (⟨a, v⟩ :: h) = stepsShown h := by
        cases a with
        | call | accept => exact absurd aside nofun
        | _ => rfl
      rw [same]
      exact ⟨events, run, steps⟩

/-- **What the test pattern shows next** in a run is told by the history: it has moved by the steps
since a ROM was last accepted. -/
theorem drawn_in_run {workingDirectory : Path} {modes : Modes} {sink : Sink} {files : FileTree}
    {now : Nat} {s : Scheduler TestPattern}
    (hr : Run engine (.start engine {} workingDirectory modes sink files now) p s)
    (buffer : FrameBuffer) : drawn s.engine buffer = picture (stepsShown s.history) := by
  -- between two calls no answer waits, so the steps are those of the ROM that shows
  have idle : p.given? = none := by
    have resting := hr.resting
    cases p with
    | inLoad => exact resting.elim
    | _ => rfl
  obtain ⟨events, runs, steps⟩ := pattern_of_replay (replay_reached hr.reached)
  have same : stepsSince events = stepsShown s.history := by
    rw [steps]
    change (if p.given?.any (·.2) then 0 else stepsShown s.history) = _
    rw [idle]
    rfl
  exact (runs.drawn_eq buffer).trans (congrArg picture same)

end Pattern
end EmuScheduler
