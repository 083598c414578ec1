import EmuScheduler.Config.Basic
import EmuScheduler.Proofs.Directories
import EmuScheduler.Proofs.FailedStart
import EmuScheduler.Proofs.LoadEvents

/-!
# What is ready before the engine is called

The first tick creates the working tree and removes the images of an earlier run, and then turns to
the engine. `staged_before_engine` says two things about every run of a scheduler:

* once the engine was called, the history shows a moment right before its first call at which the
  files were staged (`Staged`): the directories are there, the one for images has no image in it,
  and of all that was there before only such images are gone;
* a tick that fails to create a directory or to remove an image ends with that cause, and nothing is
  touched by it but files. A creation fails where something stands in the way or the file system
  refuses it, and a removal where it is refused (`FileTree.refused`).

`Scheduler.stage` is the part of the first tick that comes before the engine and `Scheduler.engage`
the part that comes after (`setUpAll_eq`). How the first part ends is read off `stage_cases`; that
the files are staged when it ends well is a matter of working trees alone (`staged_of_purge`).
Until then nothing calls the engine: the only controls that tell it something are about the sound,
which is off so long (`Uncalled.control`), and a ROM that could be closed was never opened
(`Uncalled.release`).
-/

namespace EmuScheduler

namespace WorkingTree

open FileTree

variable {t t₁ t' : FileTree} {extension : String} {removed : List Path}

/-- What the preparation of a working tree has made of the files: its directories are there, the one
for images has no image of an earlier run in it, and of what was there before, nothing is gone but
such images. -/
structure Staged (w : WorkingTree) (extension : String) (t t' : FileTree) : Prop where
  directories : ∀ p ∈ w.directories, t'.isDirectory p = true
  noImage : ∀ d, t'.resolve w.temp = .ok (.existing d .directory) →
    ∀ n ∈ t'.names d, n.Bears extension → t'.isFile (w.temp.join ⟨n⟩) = false
  kept : ∀ l node, t.node? l = some node → t'.node? l = some node ∨
    ∃ d n, l = n :: d ∧ t'.resolve w.temp = .ok (.existing d .directory) ∧ n.Bears extension ∧
      (w.create t).2.isFile (w.temp.join ⟨n⟩) = true

/-- A creation and a purge that both succeed stage the files. -/
theorem staged_of_purge {w : WorkingTree} (written : ∀ p ∈ w.directories, p.isEmpty = false)
    (named : t.WellNamed) (created : w.create t = (.ok (), t₁))
    (purged : w.purge t₁ extension = (.ok removed, t')) : Staged w extension t t' := by
  have grown : Extends t t₁ := by
    have grown := extends_createEach t w.directories
    rw [show createEach t w.directories = _ from created] at grown
    exact grown
  have named₁ : t₁.WellNamed := by
    have named₁ := wellNamed_createEach named w.directories
    rw [show createEach t w.directories = _ from created] at named₁
    exact named₁
  have made := isDirectory_createEach written created
  obtain ⟨d, es, reaches, -, -, rfl⟩ := (purge_eq_ok_iff named₁).1 purged
  have resolved := resolve_eq_directory_iff.2
    ⟨es, reaches_taken extension reaches (named₁.proper (d := d)) reaches⟩
  have takes : TakesExactly t₁ _ w.temp extension d _ := takesExactly_taken reaches named₁
  refine ⟨fun p there => ?_, fun d' resolved' => ?_, fun l node there => ?_⟩
  · obtain ⟨m, found⟩ := isDirectory_iff.1 (made p there)
    obtain ⟨fs, reached⟩ := resolve_eq_directory_iff.1 found
    have still := reaches_taken extension reaches (named₁.proper (d := d)) reached
    exact isDirectory_iff.2 ⟨m, resolve_eq_directory_iff.2 ⟨fs, still⟩⟩
  · -- the path to the directory leads to the one that was purged
    cases resolved.symm.trans resolved'
    exact takes.noneLeft
  · rw [takes.elsewhere l]
    split_ifs with gone
    · obtain ⟨n, image, rfl⟩ := gone
      obtain ⟨-, bears, file⟩ := takes.image n image
      rw [created]
      exact .inr ⟨d, n, rfl, resolved, bears, file⟩
    · exact .inl (grown.node there)

end WorkingTree

namespace Scheduler

variable {σ : Type} {e : Engine σ} {s s' : Scheduler σ}

/-! ## The first part of the first tick -/

/-- What the first tick does before it turns to the engine: it creates what is missing of the
working tree and removes the images of an earlier run. -/
def stage (e : Engine σ) (s : Scheduler σ) : Except SchedulerError Unit × Scheduler σ :=
  followedBy ((s.publish .initializing).createTree (.below s.workingDirectory)) fun s₁ =>
    s₁.purgeImages e (.below s.workingDirectory)

/-- What the first tick does with the engine, once it has its directories. -/
def engage (e : Engine σ) (root : Path) (s : Scheduler σ) :
    Except SchedulerError Unit × Scheduler σ :=
  followedBy (s.setUpEngine e) fun s =>
  followedBy (s.requireReady e "initialize", s) fun s =>
    (.ok (), ((s.withAudio e Audio.engage).record (.prepared root)).publish .idle)

/-- Three parts in a row, each of which may fail. -/
theorem followedBy_assoc (r : Except SchedulerError Unit × Scheduler σ)
    (f g : Scheduler σ → Except SchedulerError Unit × Scheduler σ) :
    followedBy (followedBy r f) g = followedBy r fun s => followedBy (f s) g := by
  obtain ⟨r, s⟩ := r
  cases r <;> rfl

/-- The preparations are the stage of the files, and then the engine. -/
theorem setUpAll_eq (e : Engine σ) (s : Scheduler σ) :
    s.setUpAll e = followedBy (s.stage e) fun s₁ =>
      (s₁.order e (.setDirectories (WorkingTree.below s.workingDirectory).root
        (WorkingTree.below s.workingDirectory).temp)).engage e
          (WorkingTree.below s.workingDirectory).root := by
  rw [stage, followedBy_assoc]
  rfl

/-- From `s` to `s'` the preparations began, and nothing else was done but to files. -/
structure OnlyFiles (s s' : Scheduler σ) : Prop where
  engine : s'.engine = s.engine
  shared : s'.shared = { s.shared with phase := .initializing }
  romLoaded : s'.romLoaded = s.romLoaded
  workingDirectory : s'.workingDirectory = s.workingDirectory
  calls : calls s'.history = calls s.history
  emissions : emissions s'.history = emissions s.history

/-- How the first part ends: it fails with the creation or the purge, or both have succeeded. -/
theorem stage_cases {r : Except SchedulerError Unit} (h : s.stage e = (r, s')) :
    OnlyFiles s s' ∧
      ((∃ cause, (WorkingTree.below s.workingDirectory).create s.files = (.error cause, s'.files) ∧
          r = .error (.io cause)) ∨
        ∃ t₁, (WorkingTree.below s.workingDirectory).create s.files = (.ok (), t₁) ∧
          ((∃ cause, (WorkingTree.below s.workingDirectory).purge t₁ (e.imageExtension s.engine) =
              (.error cause, s'.files) ∧ r = .error (.io cause)) ∨
            ∃ removed, (WorkingTree.below s.workingDirectory).purge t₁ (e.imageExtension s.engine) =
              (.ok removed, s'.files) ∧ r = .ok ())) := by
  rcases created : (WorkingTree.below s.workingDirectory).create s.files with ⟨made, t₁⟩
  have created' : (WorkingTree.below s.workingDirectory).create (s.publish .initializing).files =
      (made, t₁) := created
  rw [stage, createTree, created'] at h
  -- neither part does more to the scheduler than to put the files into it
  have onlyFiles (files : FileTree) : OnlyFiles s { s.publish .initializing with files } :=
    ⟨rfl, rfl, rfl, rfl, rfl, rfl⟩
  cases made with
  | error cause =>
    cases h
    refine ⟨onlyFiles t₁, ?_⟩
    left
    exact ⟨cause, rfl, rfl⟩
  | ok u =>
    change Scheduler.purgeImages e { s.publish .initializing with files := t₁ } _ = _ at h
    rcases purged : (WorkingTree.below s.workingDirectory).purge t₁ (e.imageExtension s.engine)
      with ⟨answer, t'⟩
    have purged' : (WorkingTree.below s.workingDirectory).purge
        { s.publish .initializing with files := t₁ }.files
        (e.imageExtension { s.publish .initializing with files := t₁ }.engine) = (answer, t') :=
      purged
    rw [purgeImages, purged'] at h
    cases answer with
    | error cause =>
      cases h
      refine ⟨onlyFiles t', ?_⟩
      right
      refine ⟨t₁, rfl, ?_⟩
      left
      exact ⟨cause, purged, rfl⟩
    | ok removed =>
      cases h
      -- the purge is recorded, but that is no call and no event
      refine ⟨⟨rfl, rfl, rfl, rfl, rfl, rfl⟩, ?_⟩
      right
      refine ⟨t₁, rfl, ?_⟩
      right
      exact ⟨removed, purged, rfl⟩

/-- If a directory cannot be created or the images cannot be removed, that is how it ends. -/
theorem stage_of_cause {cause : Cause}
    (fails : ((WorkingTree.below s.workingDirectory).create s.files).1 = .error cause ∨
      ((WorkingTree.below s.workingDirectory).create s.files).1 = .ok () ∧
        ((WorkingTree.below s.workingDirectory).purge
          ((WorkingTree.below s.workingDirectory).create s.files).2
          (e.imageExtension s.engine)).1 = .error cause) :
    ∃ s', s.stage e = (.error (.io cause), s') ∧ OnlyFiles s s' := by
  rcases staged : s.stage e with ⟨r, s'⟩
  obtain ⟨only, ends⟩ := stage_cases staged
  refine ⟨s', ?_, only⟩
  obtain ⟨cause', created, rfl⟩ | ⟨t₁, created, ⟨cause', purged, rfl⟩ | ⟨removed, purged, rfl⟩⟩ :=
    ends
  -- what failed is the part that the premise says, for the other ones are known to have succeeded
  all_goals
    rw [created] at fails
    obtain failed | ⟨made, failed⟩ := fails
  · cases failed
    rfl
  · cases made
  · cases failed
  · rw [purged] at failed
    cases failed
    rfl
  · cases failed
  · rw [purged] at failed
    cases failed

/-! ## The first tick as a whole -/

variable {r : Except SchedulerError Unit × Scheduler σ} {error : SchedulerError} {root : Path}
  {next : Scheduler σ → Except SchedulerError Unit × Scheduler σ} {times : TickTimes} {limit : Nat}

/-- Two parts in a row only add to the history, if each does. -/
theorem suffix_followedBy (first : s.history <:+ r.2.history)
    (second : r.2.history <:+ (next r.2).2.history) :
    s.history <:+ (followedBy r next).2.history := by
  obtain ⟨r, s₁⟩ := r
  cases r with
  | ok u => exact first.trans second
  | error error => exact first

/-- To set the engine up only adds to it. -/
theorem suffix_engage : s.history <:+ (s.engage e root).2.history := by
  have begun : Preamble e .settingUp s .settingUp s := .start
  have setUp : s.history <:+ (s.setUpEngine e).2.history := suffix_preamble begun.setUpEngine
  refine suffix_followedBy setUp (suffix_followedBy (List.suffix_refl _) ?_)
  change _ <:+ _ :: _ :: (Scheduler.withAudio e _ Audio.engage).history
  rw [withAudio_history]
  exact (List.suffix_append _ _).trans ((List.suffix_cons _ _).trans (List.suffix_cons _ _))

/-- A tick begins with the preparations. -/
theorem suffix_prepare (going : s.shared.stopping = false) :
    ((s.record .tick).prepare e).2.history <:+ (s.tick e times limit).2.history := by
  rw [tick_of_going going]
  rcases prepared : (s.record .tick).prepare e with ⟨_ | _, s₁⟩
  · exact List.suffix_refl _
  have loading : Preamble e .loading s₁ .loading s₁ := .start
  -- the load, the modes and the rest of the tick add to what the preparations left
  have settled : s₁.history <:+ (s₁.settleLoad e times.loaded).history :=
    suffix_preamble (loading.settleLoad times.loaded)
  have applied := settled.trans (suffix_configure (e := e))
  dsimp only
  rcases configured : (s₁.settleLoad e times.loaded).configure e with ⟨_ | _, s₂⟩
  · rw [configured] at applied
    exact applied
  · rw [configured] at applied
    exact applied.trans suffix_runOrPark

/-- A first tick whose first part fails is over with it. -/
theorem tick_of_stage_error (fresh : s.shared.phase = .uninitialized)
    (going : s.shared.stopping = false) (h : (s.record .tick).stage e = (.error error, s')) :
    s.tick e times limit = (.failed error, s') := by
  have prepared : (s.record .tick).prepare e = (.error error, s') := by
    rw [prepare, if_pos (show (s.record .tick).shared.phase = .uninitialized from fresh),
      setUpAll_eq, h]
    rfl
  rw [tick_of_going going, prepared]

variable (times limit) in
/-- A first tick whose first part succeeds tells the engine its directories next. -/
theorem suffix_of_stage_ok {u : Unit} (fresh : s.shared.phase = .uninitialized)
    (going : s.shared.stopping = false) (h : (s.record .tick).stage e = (.ok u, s')) :
    ⟨.call (.order (.setDirectories (WorkingTree.below s.workingDirectory).root
      (WorkingTree.below s.workingDirectory).temp)), s'.view⟩ :: s'.history <:+
        (s.tick e times limit).2.history := by
  refine List.IsSuffix.trans ?_ (suffix_prepare going)
  rw [prepare, if_pos (show (s.record .tick).shared.phase = .uninitialized from fresh),
    setUpAll_eq, h]
  exact suffix_engage (s := s'.order e _)

end Scheduler

/-! ## Runs -/

section Runs

open Scheduler

variable {σ : Type} {e : Engine σ} {s₀ s b staged : Scheduler σ} {p : Point}

/-- The engine was not called, and is still the one of the start, with its working directory. -/
structure Uncalled (s₀ s : Scheduler σ) : Prop where
  calls : calls s.history = []
  engine : s.engine = s₀.engine
  workingDirectory : s.workingDirectory = s₀.workingDirectory

/-- The first call gave the engine its directories. It came right after the first part of a tick
that began in `b` and came so far as `staged`. -/
structure StagedFrom (e : Engine σ) (s₀ b staged : Scheduler σ) (h : List Entry) : Prop where
  run : Run e s₀ .between b
  uncalled : Uncalled s₀ b
  ready : (b.record .tick).stage e = (.ok (), staged)
  first : ⟨.call (.order (.setDirectories (WorkingTree.below s₀.workingDirectory).root
    (WorkingTree.below s₀.workingDirectory).temp)), staged.view⟩ :: staged.history <:+ h

/-- What was staged stays so as the history grows. -/
theorem StagedFrom.grown {h h' : List Entry} (first : StagedFrom e s₀ b staged h)
    (grown : h <:+ h') : StagedFrom e s₀ b staged h' :=
  { first with first := first.first.trans grown }

/-- Behind the stage the engine was called. -/
theorem StagedFrom.called {h : List Entry} (first : StagedFrom e s₀ b staged h) : calls h ≠ [] := by
  obtain ⟨new, rfl⟩ := first.first
  rw [calls_append]
  exact List.append_ne_nil_of_right_ne_nil _ (List.cons_ne_nil _ _)

/-- While the engine was not called sound is off, so a control tells it nothing. -/
theorem Uncalled.control (h : Uncalled s₀ s) (ho : Obeyed s) (c : Control) :
    Uncalled s₀ (s.control e c) := by
  have quiet : s.shared.toldBy c = none := Shared.toldBy_eq_none _ _ (ho.quiet h.calls)
  refine ⟨?_, ?_, ?_⟩
  · rw [control_history, quiet]
    exact h.calls
  · rw [control_eq, quiet]
    exact h.engine
  · rw [control_workingDirectory]
    exact h.workingDirectory

/-- Without a call no ROM was opened, so there is none to close. -/
theorem Uncalled.release (h : Uncalled s₀ s) (ho : Obeyed s) : Uncalled s₀ (s.release e) := by
  have unloaded : s.romLoaded = false := by
    refine (Bool.not_eq_true _).mp fun loaded => ?_
    rw [ho.loaded, Option.isSome_iff_ne_none] at loaded
    have count := ho.shown.of_ne_none loaded
    have opened : attempts s.history ≠ [] := fun none => by
      rw [accepted, none] at count
      simp at count
    exact calls_ne_nil_of_attempts opened h.calls
  have stays : ((s.publish .stopping).modify Shared.requestStop).romLoaded = false := unloaded
  rw [Scheduler.release, closeRom, if_neg (ne_true_of_eq_false stays)]
  exact ⟨h.calls, h.engine, h.workingDirectory⟩

/-- The release only adds to the history. -/
theorem suffix_release : s.history <:+ (s.release e).history := by
  rw [Scheduler.release]
  obtain ⟨-, same⟩ | ⟨-, closed⟩ :=
    closeRom_cases e ((s.publish .stopping).modify Shared.requestStop)
  · rw [same]
    exact (List.suffix_cons _ _).trans (List.suffix_cons _ _)
  · rw [closed]
    exact ((List.suffix_cons _ _).trans (List.suffix_cons _ _)).trans (List.suffix_cons _ _)

/-- So does a control. -/
theorem suffix_control (c : Control) : s.history <:+ (s.control e c).history := by
  rw [control_history]
  exact (List.suffix_cons _ _).trans (List.suffix_append _ _)

/-- So does a tick. -/
theorem suffix_round {times : TickTimes} {limit : Nat} :
    s.history <:+ (s.tick e times limit).2.history := by
  obtain ⟨-, -, stays⟩ | ⟨-, p, s₁, preamble, ends⟩ :=
    tick_cases (Prod.eta (s.tick e times limit)).symm
  · rw [stays]
    exact List.suffix_cons _ _
  -- the entry of the tick itself, and what its preamble adds
  have begun : s.history <:+ s₁.history :=
    (List.suffix_cons _ _).trans (suffix_preamble preamble)
  obtain ⟨error, -, -, failed⟩ | ⟨-, ends⟩ := ends
  · rw [failed]
    exact begun
  · have ended : s₁.history <:+ (s₁.runOrPark e times.presented limit).2.history :=
      suffix_runOrPark
    rw [ends] at ended
    exact begun.trans ended

/-- A tick of a run that has not called the engine stages the files before it does. -/
theorem Uncalled.tick (h : Uncalled s₀ s) (hr : Run e s₀ .between s) (hp : At s .between)
    (times : TickTimes) (limit : Nat) :
    Uncalled s₀ (s.tick e times limit).2 ∨
      ∃ b staged, StagedFrom e s₀ b staged (s.tick e times limit).2.history := by
  obtain ⟨fresh, -⟩ := hp.1.resolve_right fun begun => begun.2 h.calls
  cases going : s.shared.stopping with
  | true =>
    rw [tick_of_stopping going]
    exact .inl ⟨h.calls, h.engine, h.workingDirectory⟩
  | false =>
    -- if the stage fails the engine was not called; otherwise the call behind it is the first one
    rcases staged : (s.record .tick).stage e with ⟨error | u, s₁⟩
    · obtain ⟨only, -⟩ := stage_cases staged
      rw [tick_of_stage_error fresh going staged]
      exact .inl ⟨only.calls.trans h.calls, only.engine.trans h.engine,
        only.workingDirectory.trans h.workingDirectory⟩
    · have first := suffix_of_stage_ok times limit fresh going staged
      rw [h.workingDirectory] at first
      exact .inr ⟨s, s₁, hr, h, staged, first⟩

/-- **A run that has called the engine has staged the files before it did.** -/
theorem uncalled_or_staged (ho : Obeyed s₀) (hp : At s₀ .between) (silent : calls s₀.history = [])
    (hr : Run e s₀ p s) :
    Uncalled s₀ s ∨ ∃ b staged, StagedFrom e s₀ b staged s.history := by
  -- what has happened stays in the history, so only runs without a call need a look
  induction hr with
  | start => exact .inl ⟨silent, rfl, rfl⟩
  | control hr c ih =>
    obtain uncalled | ⟨b, staged, first⟩ := ih
    · exact .inl (uncalled.control (annotated_reached ho hp hr.reached).1 c)
    · exact .inr ⟨b, staged, first.grown (suffix_control c)⟩
  | outside _ files cheats ih =>
    exact ih.imp (fun h => ⟨h.calls, h.engine, h.workingDirectory⟩) id
  | @tick s s' r hr times limit ticked ih =>
    obtain rfl : (s.tick e times limit).2 = s' := congrArg Prod.snd ticked
    obtain uncalled | ⟨b, staged, first⟩ := ih
    · exact uncalled.tick hr (annotated_reached ho hp hr.reached).2 times limit
    · exact .inr ⟨b, staged, first.grown suffix_round⟩
  | stop hr _ ih | abort hr ih =>
    obtain uncalled | ⟨b, staged, first⟩ := ih
    · exact .inl (uncalled.release (annotated_reached ho hp hr.reached).1)
    · exact .inr ⟨b, staged, first.grown suffix_release⟩

end Runs

/-- A configuration always names a working directory. -/
theorem Config.effectiveWorkingDirectory_written (c : Config) (env : Environment) :
    (c.effectiveWorkingDirectory env).isEmpty = false := by
  rw [effectiveWorkingDirectory]
  split
  · exact Path.isEmpty_join _ (n := (Path.ofString "nds-emu").bytes) (by decide)
  · next written => exact (Bool.not_eq_true _).mp written

/-- **The files are staged before the engine is called.** If a run has called the engine, one of its
ticks had staged the files as they were when it began, and told the engine its directories next; no
call was made before. If a directory cannot be created or the images cannot be removed, the tick
that finds this out fails with the cause. The engine is as it was, and of what is shared only the
phase has changed: nothing that waited was taken, and no event was sent. -/
theorem staged_before_engine {σ : Type} {e : Engine σ} {engine : σ} {c : Config}
    {env : Environment} {modes : Modes} {sink : Sink} {files : FileTree} {now : Nat} {p : Point}
    {s : Scheduler σ}
    (hr : Run e (.start e engine (c.effectiveWorkingDirectory env) modes sink files now) p s) :
    let w := WorkingTree.below (c.effectiveWorkingDirectory env)
    (calls s.history ≠ [] → ∃ b staged : Scheduler σ,
        Run e (.start e engine (c.effectiveWorkingDirectory env) modes sink files now) .between b ∧
        (b.record .tick).stage e = (.ok (), staged) ∧ calls staged.history = [] ∧
        ⟨.call (.order (.setDirectories w.root w.temp)), staged.view⟩ :: staged.history
          <:+ s.history ∧
        (b.files.WellNamed → w.Staged (e.imageExtension engine) b.files staged.files)) ∧
      (p = .between → s.shared.phase = .uninitialized → s.shared.stopping = false →
        ∀ cause, (w.create s.files).1 = .error cause ∨
            (w.create s.files).1 = .ok () ∧
              (w.purge (w.create s.files).2 (e.imageExtension engine)).1 = .error cause →
          ∀ times limit, ∃ s', s.tick e times limit = (.failed (.io cause), s') ∧
            s'.engine = s.engine ∧ s'.shared = { s.shared with phase := .initializing } ∧
            calls s'.history = [] ∧ emissions s'.history = emissions s.history) := by
  intro w
  obtain ⟨ho, hp⟩ := annotated_start e engine (c.effectiveWorkingDirectory env) modes sink files now
  have course := uncalled_or_staged ho hp rfl hr
  constructor
  · -- the working directory and the engine of that tick are still those of the beginning
    intro called
    obtain ⟨b, staged, first⟩ := course.resolve_left fun uncalled => called uncalled.calls
    obtain ⟨only, ends⟩ := Scheduler.stage_cases first.ready
    refine ⟨b, staged, first.run, first.ready, only.calls.trans first.uncalled.calls, first.first,
      fun named => ?_⟩
    obtain ⟨cause, -, ⟨⟩⟩ | ⟨t₁, created, ⟨cause, -, ⟨⟩⟩ | ⟨removed, purged, -⟩⟩ := ends
    change (WorkingTree.below b.workingDirectory).create b.files = _ at created
    change (WorkingTree.below b.workingDirectory).purge t₁ (e.imageExtension b.engine) = _ at purged
    rw [first.uncalled.workingDirectory] at created purged
    rw [first.uncalled.engine] at purged
    have written := c.effectiveWorkingDirectory_written env
    exact WorkingTree.staged_of_purge (WorkingTree.written_directories written) named created purged
  · -- a run that has not prepared has not called the engine either
    rintro rfl fresh going cause fails times limit
    have silent : calls s.history = [] :=
      ((annotated_reached ho hp hr.reached).2.1.resolve_right fun begun => begun.1 fresh).2
    have uncalled := course.resolve_right fun ⟨b, staged, first⟩ => first.called silent
    obtain ⟨s', failed, only⟩ : ∃ s', (s.record .tick).stage e = (.error (.io cause), s') ∧
        Scheduler.OnlyFiles (s.record .tick) s' := by
      refine Scheduler.stage_of_cause ?_
      change ((WorkingTree.below s.workingDirectory).create s.files).1 = _ ∨
        ((WorkingTree.below s.workingDirectory).create s.files).1 = _ ∧
          ((WorkingTree.below s.workingDirectory).purge
            ((WorkingTree.below s.workingDirectory).create s.files).2
            (e.imageExtension s.engine)).1 = _
      rw [uncalled.workingDirectory, uncalled.engine]
      exact fails
    exact ⟨s', Scheduler.tick_of_stage_error fresh going failed, only.engine, only.shared,
      only.calls.trans silent, only.emissions⟩

/-- A working tree of which only the directory for images is there, with an image in it. -/
def leftover : FileTree where
  entries :=
    let work : Name := (Path.ofString "w").bytes
    let temp : Location := [(Path.ofString "Temp").bytes, work]
    [([work], .directory), (temp, .directory), ((Path.ofString "old.nds").bytes :: temp, .file [1])]
  workingDirectory := []
  distinct := by decide +kernel

/-- The same files, where one kind of access is refused everywhere. -/
def leftoverBarring (a : Access) : FileTree :=
  { leftover with refused := fun b _ => if b = a then some .permissionDenied else none }

/-- The first tick over such trees, with a load that waits. Where nothing is refused the engine is
called, and the image was removed before. Where no directory can be created, the first one that is
missing is the end of the tick, and where no image can be removed, the image is: the engine was not
called, the load still waits, and no event was sent. -/
theorem staged_before_engine_leftover :
    let c : Config := { workingDirectory := .ofString "/w" }
    let w := WorkingTree.below (c.effectiveWorkingDirectory {})
    let e := ScriptedEngine.engine
    let start (files : FileTree) : Scheduler ScriptedEngine :=
      .start e {} (c.effectiveWorkingDirectory {}) c.modes "main" files 0
    let asked (files : FileTree) := (start files).control e (.load (.ofString "/w/a.nds"))
    let s := ((asked leftover).tick e {} 1).2
    let noDirectory := leftoverBarring .create
    let noRemoval := leftoverBarring .remove
    (calls s.history ≠ [] ∧ leftover.isFile (.ofString "/w/Temp/old.nds") = true ∧
      ∃ b staged, Run e (start leftover) .between b ∧
        (b.record .tick).stage e = (.ok (), staged) ∧ calls staged.history = [] ∧
        ⟨.call (.order (.setDirectories w.root w.temp)), staged.view⟩ :: staged.history
          <:+ s.history ∧
        (b.files.WellNamed → w.Staged (e.imageExtension {}) b.files staged.files)) ∧
      ((w.create noDirectory).1 = .error .permissionDenied ∧
        ∃ s', (asked noDirectory).tick e {} 1 = (.failed (.io .permissionDenied), s') ∧
          s'.engine = (asked noDirectory).engine ∧
          s'.shared = { (asked noDirectory).shared with phase := .initializing } ∧
          calls s'.history = [] ∧
          emissions s'.history = emissions (asked noDirectory).history) ∧
      (w.create noRemoval).1 = .ok () ∧
        (w.purge (w.create noRemoval).2 "nds").1 = .error .permissionDenied ∧
        ∃ s', (asked noRemoval).tick e {} 1 = (.failed (.io .permissionDenied), s') ∧
          s'.engine = (asked noRemoval).engine ∧
          s'.shared = { (asked noRemoval).shared with phase := .initializing } ∧
          calls s'.history = [] ∧
          emissions s'.history = emissions (asked noRemoval).history := by
  intro c w e start asked s noDirectory noRemoval
  -- in each of the trees a load waits for the first tick
  have waiting (files : FileTree) : Run e (start files) .between (asked files) :=
    Run.start.control (.load (.ofString "/w/a.nds"))
  refine ⟨?_, ?_, ?_⟩
  · have called : calls s.history ≠ [] := by decide +kernel
    have hr : Run e (start leftover) (.ofResult ((asked leftover).tick e {} 1).1) s :=
      (waiting leftover).tick {} 1 (Prod.eta _).symm
    exact ⟨called, by decide +kernel, (staged_before_engine hr).1 called⟩
  · have fails : (w.create noDirectory).1 = .error .permissionDenied := by decide +kernel
    have ends := (staged_before_engine (waiting noDirectory)).2 rfl rfl rfl
    exact ⟨fails, ends .permissionDenied (.inl fails) {} 1⟩
  · have made : (w.create noRemoval).1 = .ok () := by decide +kernel
    have fails : (w.purge (w.create noRemoval).2 "nds").1 = .error .permissionDenied := by
      decide +kernel
    have ends := (staged_before_engine (waiting noRemoval)).2 rfl rfl rfl
    exact ⟨made, fails, ends .permissionDenied (.inr ⟨made, fails⟩) {} 1⟩

end EmuScheduler
