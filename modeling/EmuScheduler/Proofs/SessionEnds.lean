import EmuScheduler.Proofs.LateChanges
import EmuScheduler.Proofs.Lifecycle
import EmuScheduler.Proofs.LoadCourse

/-!
# When a session succeeds

The exit code of the application speaks for the ROM that it was given. `session_success` says how
far, for every order of the steps of the application and of the loop. If frames are wanted, a
session that ends well has had its ROM accepted and that many frames made. If the ROM is refused or
a tick fails, the end of the session is in reach and is an error. If no frames are wanted the exit
code says nothing about the ROM. The application finds the frames enough in its first look, and a
refusal that comes after it has read the events is never read (`refused_yet_successful`).

The proof keeps two accounts of a session.

* `Followed` is about the load. The application requests it once, so it has one course, and a
  refusal stays among the unread events until the application reads it and leaves its looks.
* `Grounded` is about why the application leaves its looks without a refusal. It has counted enough,
  or it has seen the end of the loop. To that nobody has told the loop then, so a tick has failed or
  did not come back (`World.Unstopped`, `World.Spoilt`). What it has counted was made: the counter
  may begin anew at zero, but not before there are 2^64 steps (`Attended.Made`).

That the end is in reach takes the other direction. A look that nobody disturbs finds what there is
to find, and a loop that was told to stop comes to its end by itself (`end_of_loop`).
-/

namespace EmuScheduler

open Scheduler World

section Worlds

variable {ι σ : Type} {e : Engine σ} {w w' : World ι σ}

/-- Whether the run is spoilt: a tick has failed, or did not come back. -/
def World.Spoilt (w : World ι σ) : Prop :=
  (∃ error, w.verdict? = some (some error)) ∨ w.point = .broken

/-- Whether the loop was not told to stop, and stops by itself if it does. -/
structure World.Unstopped (w : World ι σ) : Prop where
  flag : w.scheduler.shared.stopping = true → ∃ error, w.verdict? = some (some error)
  verdict : w.verdict? ≠ some none

/-- How a run ends is a matter of the point and the flag. -/
theorem verdict_congr (point : w'.point = w.point)
    (flag : w'.scheduler.shared.stopping = w.scheduler.shared.stopping) :
    w'.verdict? = w.verdict? := by
  unfold World.verdict?
  rw [point, flag]

/-- A run that ends while nobody has stopped it is spoilt. -/
theorem World.Unstopped.spoilt (h : w.Unstopped) {how : RunEnd}
    (finished : w.point.end? = some how) : w.Spoilt := by
  have here := Point.eq_of_end? finished
  cases how with
  | stopped =>
    -- a loop that stopped without a failure was told to
    refine absurd ?_ h.verdict
    unfold World.verdict?
    rw [here]
    rfl
  | failed error =>
    left
    refine ⟨error, ?_⟩
    unfold World.verdict?
    rw [here]
    rfl
  | panicked => exact .inr here

/-- A run that is spoilt ends with an error. -/
theorem World.Spoilt.ne_stopped (h : w.Spoilt) {how : RunEnd} (finished : w.point.end? = some how) :
    how ≠ .stopped := by
  rintro rfl
  have here : w.point = .released none := Point.eq_of_end? finished
  obtain ⟨error, failed⟩ | broken := h
  · unfold World.verdict? at failed
    rw [here] at failed
    exact absurd failed nofun
  · exact absurd (here.symm.trans broken) nofun

variable [DecidableEq ι]

/-- A run that is spoilt stays so. -/
theorem spoilt_step (h : w.Spoilt) (hs : World.Step e w w') : w'.Spoilt := by
  obtain ⟨error, failed⟩ | broken := h
  · exact .inl ⟨error, verdict_step failed hs⟩
  · obtain hl | ⟨here, -⟩ := step_cases hs
    · -- the loop has no step from there
      rw [broken] at hl
      cases hl
    · exact .inr (here.trans broken)

/-- So it is in everything that is reached from there. -/
theorem spoilt_reachable (h : w.Spoilt) (hr : World.Reachable e w w') : w'.Spoilt := by
  induction hr with
  | start => exact h
  | step _ hs ih => exact spoilt_step ih hs

/-- The loop stops by itself only after a failure, and then it sets the flag itself. -/
theorem unstopped_step (h : w.Unstopped) (hs : World.Step e w w')
    (flag : w'.scheduler.shared.stopping = w.scheduler.shared.stopping ∨
      ∃ error?, w.point = .stopping error?) : w'.Unstopped := by
  have spoilt (stops : w'.scheduler.shared.stopping = true) :
      ∃ error, w'.verdict? = some (some error) := by
    -- the step itself sets the flag only on the loop's way out, and that began with a failure
    have before : ∃ error, w.verdict? = some (some error) := by
      obtain same | ⟨error?, here⟩ := flag
      · exact h.flag (same ▸ stops)
      · have decided : w.verdict? = some error? := by
          unfold World.verdict?
          rw [here]
        cases error? with
        | none => exact absurd decided h.verdict
        | some error => exact ⟨error, decided⟩
    obtain ⟨error, failed⟩ := before
    exact ⟨error, verdict_step failed hs⟩
  refine ⟨spoilt, fun stopped => ?_⟩
  cases hv : w.verdict? with
  | none =>
    -- a good end is decided where a tick would begin, by the flag, and that stands for a failure
    obtain ⟨-, stops, -⟩ | ⟨error, -, clash⟩ := decides_of_step hv hs stopped
    · obtain ⟨error, failed⟩ := spoilt stops
      exact absurd (stopped.symm.trans failed) nofun
    · exact absurd clash nofun
  | some error? =>
    obtain rfl : error? = none := Option.some.inj ((verdict_step hv hs).symm.trans stopped)
    exact h.verdict hv

end Worlds

namespace Attended

variable {rom : Path} {st : LoadStage} {wanted : Nat} {a a' a₀ : Attended}

/-! ### The load, as the application follows it -/

/-- The load of a session at a stage, and what the application knows of it. -/
structure Followed (rom : Path) (st : LoadStage) (a : Attended) : Prop where
  course : Course rom st a.world.point a.world.scheduler.affairs
  /-- The load is requested once. -/
  asking : ∀ r, a.post = .asking r → r = rom ∧ st = .unrequested
  read : a.read ≤ a.world.scheduler.shared.notifier.received.length
  /-- A refusal is still to be read, or the application has left its looks. -/
  refusal : st = .answered false → failure? a.unread ≠ none ∨ a.post.left? ≠ none

/-- Whether the loop is told to stop makes no difference to the load. -/
theorem Followed.keep (h : Followed rom st a) (point : a'.world.point = a.world.point) {flag : Bool}
    (affairs : a'.world.scheduler.affairs = { a.world.scheduler.affairs with stopping := flag })
    (read : a'.read = a.read)
    (asking : ∀ r, a'.post = .asking r → a.post = .asking r)
    (left : a.post.left? ≠ none → a'.post.left? ≠ none) : Followed rom st a' := by
  -- what the session depends on of the scheduler is the same but for the flag
  have notifier : a'.world.scheduler.shared.notifier = a.world.scheduler.shared.notifier :=
    congrArg Affairs.notifier affairs
  refine ⟨?_, fun r here => h.asking r (asking r here), ?_, fun refused => ?_⟩
  · rw [point, affairs]
    exact ⟨h.course.place, h.course.waits, h.course.attempts, h.course.unearned, h.course.heard⟩
  · rw [read, notifier]
    exact h.read
  · unfold unread
    rw [read, notifier]
    exact (h.refusal refused).imp_right left

/-- A step of the loop is a step of the load. A refusal is announced with it. -/
theorem Followed.loop (h : Followed rom st a) {p : Point} {s : Scheduler TestPattern}
    (hl : Loop TestPattern.engine a.world.point a.world.scheduler p s) :
    ∃ st', Followed rom st' { a with world := { a.world with point := p, scheduler := s } } ∧
      ∀ accepted, st = .answered accepted → st' = .answered accepted := by
  obtain ⟨events, st', next, course, sent⟩ := course_of_moves h.course (moves_of_loop hl)
  change s.shared.notifier.received = a.world.scheduler.shared.notifier.received ++ events at sent
  refine ⟨st', ⟨course, fun r here => ?_, ?_, fun refused => ?_⟩, ?_⟩
  · -- a load that is not requested yet makes no step
    obtain ⟨same, rfl⟩ := h.asking r here
    cases next
    exact ⟨same, rfl⟩
  · refine h.read.trans ?_
    rw [sent, List.length_append]
    exact Nat.le_add_right _ _
  · -- all that was read had arrived before, so what is sent now is unread
    have later : s.shared.notifier.received.drop a.read = a.unread ++ events := by
      rw [sent, List.drop_append_of_le_length h.read]
      rfl
    change failure? (s.shared.notifier.received.drop a.read) ≠ none ∨ _
    rw [later, failure?_append]
    subst refused
    cases next with
    | stay =>
      refine (h.refusal rfl).imp_left fun unread => ?_
      obtain ⟨r, hf⟩ := Option.ne_none_iff_exists'.mp unread
      rw [hf]
      exact nofun
    | reject =>
      left
      cases failure? a.unread <;> exact nofun
  · rintro accepted rfl
    cases next
    rfl

/-- The first control of the application requests the load, and no other has to do with it. -/
theorem Followed.call (h : Followed rom st a) {c : Control} {post : Post}
    (next : a.post.control? a.world.scheduler.shared.frame.ready = some (c, post)) :
    ∃ st', Followed rom st' (a.begin c post) ∧
      ∀ accepted, st = .answered accepted → st' = .answered accepted := by
  obtain ⟨w, here, read⟩ := a
  cases here with
  | asking r =>
    -- nothing has come of the load before, so the course is that of a ROM that waits
    cases next
    obtain ⟨rfl, rfl⟩ := h.asking r rfl
    exact ⟨.waiting, ⟨⟨h.course.place, rfl, h.course.attempts, fun _ => h.course.unearned nofun,
      h.course.heard⟩, nofun, h.read, nofun⟩, nofun⟩
  | showing =>
    cases next
    dsimp only
    split <;> exact ⟨st, h.keep rfl rfl rfl (fun _ => nofun) (absurd rfl), fun _ => id⟩
  | peeking =>
    cases next
    exact ⟨st, h.keep rfl rfl rfl (fun _ => nofun) (absurd rfl), fun _ => id⟩
  | leaving =>
    cases next
    exact ⟨st, h.keep rfl rfl rfl (fun _ => nofun) fun _ => nofun, fun _ => id⟩
  | _ => exact absurd next nofun

/-- An application that reads a refusal leaves its looks. -/
theorem Followed.readEvent (h : Followed rom st a) {event : LoadEvent} {rest : List LoadEvent}
    (here : a.post = .reading) (arrived : a.unread = event :: rest) :
    Followed rom st
      { a with
        post := (failure? [event]).elim .reading (.leaving ∘ some)
        read := a.read + 1 } := by
  have later : (a.world.scheduler.shared.notifier.received.drop (a.read + 1)) = rest := by
    rw [← List.tail_drop]
    change a.unread.tail = rest
    rw [arrived]
    rfl
  refine ⟨h.course, fun r there => ?_, ?_, fun refused => ?_⟩
  · cases hf : failure? [event] <;> rw [hf] at there <;> exact absurd there nofun
  · by_contra all
    have none : a.unread = [] := List.drop_eq_nil_of_le (Nat.le_of_not_lt all)
    exact absurd (arrived.symm.trans none) (List.cons_ne_nil _ _)
  · -- the refusal is still to be read, so it is this event or comes after it
    have unread : failure? a.unread ≠ none := by
      refine (h.refusal refused).resolve_right fun left => ?_
      rw [here] at left
      exact left rfl
    change failure? (a.world.scheduler.shared.notifier.received.drop (a.read + 1)) ≠ none ∨ _
    rw [later]
    rw [arrived, ← List.singleton_append, failure?_append] at unread
    cases hf : failure? [event] with
    | some r => exact .inr nofun
    | none =>
      rw [hf] at unread
      exact .inl unread

/-- A glance of the application leaves the load where it is. -/
theorem Followed.glance (h : Followed rom st a) {post : Post} {read : Nat}
    (next : a.glance wanted = some (post, read)) : Followed rom st { a with post, read } := by
  obtain ⟨here, empty, rfl, rfl⟩ | ⟨event, rest, here, arrived, rfl, rfl⟩ | ⟨here, rfl, rfl⟩ |
    ⟨n, here, rfl, rfl⟩ | ⟨refused?, how, here, -, rfl, rfl⟩ := glance_cases next
  · refine ⟨h.course, nofun, h.read, fun refused => ?_⟩
    -- nothing is left unread, and the application has not left its looks
    obtain unread | left := h.refusal refused
    · rw [empty] at unread
      exact absurd rfl unread
    · rw [here] at left
      exact absurd rfl left
  · exact h.readEvent here arrived
  · exact h.keep rfl rfl rfl (fun _ => nofun) (by rw [here]; exact absurd rfl)
  · refine h.keep rfl rfl rfl (fun r there => ?_) (by rw [here]; exact absurd rfl)
    cases hv : Look.verdict ⟨[], n, a.world.point.end?.isSome⟩ wanted <;> rw [hv] at there <;>
      exact absurd there nofun
  · exact h.keep rfl rfl rfl (fun _ => nofun) fun _ => nofun

/-- **The application follows the load**: every step of the session is a step of the load or leaves
it alone. -/
theorem followed_step (left : Attentive a.world) (h : Followed rom st a) (hs : Step wanted a a') :
    ∃ st', Followed rom st' a' ∧
      ∀ accepted, st = .answered accepted → st' = .answered accepted := by
  cases hs with
  | loop _ hl => exact h.loop hl
  | outside => exact ⟨st, h.keep rfl rfl rfl (fun _ => id) id, fun _ => id⟩
  | call idle next => exact h.call next
  | act next =>
    obtain ⟨rfl | rfl, -⟩ := left.last next
    · exact ⟨st, h.keep rfl rfl rfl (fun _ => id) id, fun _ => id⟩
    · exact ⟨st, h.keep rfl (affairs_withAudio _) rfl (fun _ => id) id, fun _ => id⟩
  | glance idle next => exact ⟨st, h.glance next, fun _ => id⟩

/-! ### What the application has counted -/

/-- How many steps the engine was asked for. -/
def emulated (a : Attended) : Nat :=
  stepCount a.world.scheduler.history

/-- Whether there are at least `n` frames. They are among the steps, and unless those are so many
that the counter begins anew, it shows them. -/
def Made (n : Nat) (a : Attended) : Prop :=
  n ≤ a.emulated ∧ (a.emulated < 2 ^ 64 → n ≤ a.frames.toNat)

/-- What was made is read off two counts. -/
theorem Made.keep {n : Nat} (h : a.Made n) (frames : a'.frames = a.frames)
    (emulated : a'.emulated = a.emulated) : a'.Made n := by
  unfold Made
  rw [frames, emulated]
  exact h

/-! ### What the application has made up its mind about -/

/-- **What the application goes by** when it leaves its looks without a refusal: the frames are
enough, or the run is spoilt. -/
structure Grounded (wanted : Nat) (a : Attended) : Prop where
  unstopped : a.post.told = false → a.world.Unstopped
  told : a.post.told = true → a.world.scheduler.shared.stopping = true
  tallied : Tallied a.world.point a.frames a.emulated
  /-- What was counted does not shrink. -/
  counted : ∀ n, a.post = .checking n → a.Made n.toNat
  enough : a.post.left? = some none → a.Made wanted ∨ a.world.Spoilt
  finished : ∀ how refused?, a.post = .ended how refused? → a.world.point.end? = some how

/-- What does not concern the loop, the frames and the flag. -/
theorem Grounded.keep (h : Grounded wanted a) (point : a'.world.point = a.world.point)
    (flag : a'.world.scheduler.shared.stopping = a.world.scheduler.shared.stopping)
    (frames : a'.frames = a.frames) (emulated : a'.emulated = a.emulated)
    (told : a'.post.told = a.post.told)
    (counted : ∀ n, a'.post = .checking n → a.Made n.toNat)
    (enough : a'.post.left? = some none → a.Made wanted ∨ a.world.Spoilt)
    (finished : ∀ how refused?, a'.post = .ended how refused? → a.world.point.end? = some how) :
    Grounded wanted a' := by
  have verdict := verdict_congr point flag
  -- how the run ends is read off the point and the flag, and both are the same
  have spoilt : a'.world.Spoilt ↔ a.world.Spoilt := by
    unfold World.Spoilt
    rw [verdict, point]
  refine ⟨fun here => ?_, fun here => ?_, ?_, fun n here => ?_, fun here => ?_, ?_⟩
  · obtain ⟨stops, undecided⟩ := h.unstopped (told.symm.trans here)
    rw [← flag, ← verdict] at stops
    rw [← verdict] at undecided
    exact ⟨stops, undecided⟩
  · rw [flag]
    exact h.told (told.symm.trans here)
  · rw [point, frames, emulated]
    exact h.tallied
  · exact (counted n here).keep frames emulated
  · rw [spoilt]
    exact (enough here).imp_left (·.keep frames emulated)
  · rw [point]
    exact finished

/-- The application leaves its looks without a refusal when it has counted enough, or when it sees
that the loop has come to its end, to which nobody has told it. -/
theorem Grounded.glance (h : Grounded wanted a) {post : Post} {read : Nat}
    (next : a.glance wanted = some (post, read)) : Grounded wanted { a with post, read } := by
  obtain ⟨here, -, rfl, rfl⟩ | ⟨event, rest, here, -, rfl, rfl⟩ | ⟨here, rfl, rfl⟩ |
    ⟨n, here, rfl, rfl⟩ | ⟨refused?, how, here, finished, rfl, rfl⟩ := glance_cases next
  · exact h.keep rfl rfl rfl rfl (by rw [here]; rfl) nofun nofun nofun
  · cases failure? [event] with
    | none => exact h.keep rfl rfl rfl rfl (by rw [here]; rfl) nofun nofun nofun
    | some r => exact h.keep rfl rfl rfl rfl (by rw [here]; rfl) nofun nofun nofun
  · refine h.keep rfl rfl rfl rfl (by rw [here]; rfl) (fun n there => ?_) nofun nofun
    cases there
    exact ⟨h.tallied.frames_le, fun _ => Nat.le_refl _⟩
  · unfold Look.verdict
    dsimp only [failure?, List.findSome?_nil]
    split
    · next enough =>
      refine h.keep rfl rfl rfl rfl (by rw [here]; rfl) nofun (fun _ => ?_) nofun
      -- the frames that were counted are still there, and an end that is seen was not asked for
      obtain counted | finished := (Bool.or_eq_true _ _).mp enough
      · have seen : wanted ≤ n.toNat := of_decide_eq_true counted
        obtain ⟨emulated, shown⟩ := h.counted n here
        exact .inl ⟨seen.trans emulated, fun few => seen.trans (shown few)⟩
      · obtain ⟨how, finished⟩ := Option.isSome_iff_exists.mp finished
        exact .inr ((h.unstopped (by rw [here]; rfl)).spoilt finished)
    · exact h.keep rfl rfl rfl rfl (by rw [here]; rfl) nofun nofun nofun
  · refine h.keep rfl rfl rfl rfl (by rw [here]; rfl) nofun (fun there => h.enough ?_)
      fun how' r there => ?_
    · rw [here]
      exact there
    · cases there
      exact finished

/-- Every step of a session, of whichever thread, keeps its books. -/
theorem grounded_step (left : Attentive a.world) (h : Grounded wanted a) (hs : Step wanted a a') :
    Grounded wanted a' := by
  have same {b : Attended} (point : b.world.point = a.world.point)
      (flag : b.world.scheduler.shared.stopping = a.world.scheduler.shared.stopping)
      (frames : b.frames = a.frames) (emulated : b.emulated = a.emulated)
      (post : b.post = a.post) : Grounded wanted b :=
    h.keep point flag frames emulated (congrArg Post.told post) (post ▸ h.counted)
      (post ▸ h.enough) (post ▸ h.finished)
  cases hs with
  | @loop p s awake hl =>
    have moves := moves_of_loop hl
    have made {n : Nat} (before : a.Made n) :
        Made n { a with world := { a.world with point := p, scheduler := s } } := by
      have more : a.emulated ≤ stepCount s.history := steps_of_moves moves
      refine ⟨before.1.trans more, fun few => ?_⟩
      exact (before.2 (more.trans_lt few)).trans (frames_of_moves h.tallied moves few)
    have flag : s.shared.stopping = a.world.scheduler.shared.stopping ∨
        (∃ error?, a.world.point = .stopping error?) ∧ s.shared.stopping = true :=
      stopping_of_moves moves
    have moved : World.Step TestPattern.engine a.world
        { a.world with point := p, scheduler := s } := .loop awake hl
    refine ⟨fun here => unstopped_step (h.unstopped here) moved (flag.imp_right And.left),
      fun here => ?_, tallied_of_moves h.tallied moves, fun n here => made (h.counted n here),
      fun here => ?_, fun how refused? here => ?_⟩
    · obtain same | ⟨-, set⟩ := flag
      · exact same.trans (h.told here)
      · exact set
    · exact (h.enough here).imp made (spoilt_step · moved)
    · -- who has ended has waited for the loop's end, and from there it makes no step
      exact absurd ((end?_of_loop hl).symm.trans (h.finished how refused? here)) nofun
  | outside => exact same rfl rfl rfl rfl rfl
  | @call c post idle next =>
    have begun : World.Step TestPattern.engine a.world (a.begin c post).world := .call () c idle
    obtain ⟨w, here, read⟩ := a
    cases here with
    | asking | peeking =>
      cases next
      exact h.keep rfl rfl rfl rfl rfl nofun nofun nofun
    | showing =>
      cases next
      dsimp only
      split <;> exact h.keep rfl rfl rfl rfl rfl nofun nofun nofun
    | leaving =>
      -- from here on the flag is set, and what was seen before stays
      cases next
      refine ⟨nofun, fun _ => rfl, h.tallied, nofun, fun here => ?_, nofun⟩
      exact (h.enough here).imp_right (spoilt_step · begun)
    | _ => exact absurd next nofun
  | act next =>
    obtain ⟨rfl | rfl, -⟩ := left.last next
    · exact same rfl rfl rfl rfl rfl
    · have affairs : (a.world.scheduler.withAudio TestPattern.engine Audio.mute).affairs =
          a.world.scheduler.affairs := affairs_withAudio _
      exact same rfl (congrArg Affairs.stopping affairs) (congrArg Affairs.frames affairs)
        (congrArg Affairs.steps affairs) rfl
  | glance idle next => exact h.glance next

/-! ### Whole sessions -/

section Sessions

variable {workingDirectory : Path} {modes : Modes} {files : FileTree}

/-- Every control of a session comes to its end. -/
theorem attentive_session (hr : Reachable wanted (start workingDirectory modes files rom) a) :
    Attentive a.world :=
  attentive_reachable (attentive_start rfl) (world_reachable hr)

/-- The books of a session are right at all times. -/
theorem grounded_session (hr : Reachable wanted (start workingDirectory modes files rom) a) :
    Grounded wanted a := by
  induction hr with
  | start =>
    -- nothing is counted, and no frame is made
    exact ⟨fun _ => ⟨nofun, nofun⟩, nofun, ⟨0, 0, rfl, rfl, Nat.zero_le _⟩, nofun, nofun, nofun⟩
  | step hr hs ih => exact grounded_step (attentive_session hr) ih hs

/-- Before the first step nothing was requested. -/
theorem followed_start :
    Followed rom .unrequested (start workingDirectory modes files rom) where
  course := ⟨rfl, rfl, rfl, fun _ => ⟨rfl, rfl, rfl⟩, [], rfl⟩
  asking r here := by
    cases here
    exact ⟨rfl, rfl⟩
  read := Nat.zero_le _
  refusal := nofun

/-- What is answered stays answered. -/
theorem followed_session (hr : Reachable wanted (start workingDirectory modes files rom) a) :
    ∃ st, Followed rom st a ∧ ∀ a', Reachable wanted a a' → ∃ st', Followed rom st' a' ∧
      ∀ accepted, st = .answered accepted → st' = .answered accepted := by
  -- an answer, once given, is what every later stage has
  have later {b : Attended} {st : LoadStage} (followed : Followed rom st b)
      (hb : Reachable wanted (start workingDirectory modes files rom) b) {a' : Attended}
      (hr' : Reachable wanted b a') : ∃ st', Followed rom st' a' ∧
        ∀ accepted, st = .answered accepted → st' = .answered accepted := by
    induction hr' with
    | start => exact ⟨st, followed, fun _ => id⟩
    | step hr' hs ih =>
      obtain ⟨st₁, followed, kept⟩ := ih
      obtain ⟨st', followed, kept'⟩ := followed_step (attentive_session (hb.trans hr')) followed hs
      exact ⟨st', followed, fun accepted answered => kept' accepted (kept accepted answered)⟩
  obtain ⟨st, followed, -⟩ := later followed_start .start hr
  exact ⟨st, followed, fun a' hr' => later followed hr hr'⟩

end Sessions

/-- How a session ends: with the error of its run, or having given up on a ROM, or well. -/
theorem result_cases {result : Nat × String} (h : a.result? = some result) :
    ∃ how refused?, a.post = .ended how refused? ∧
      ((∃ error, how.error? = some error ∧ result = (1, Session.errorText error)) ∨
        how = .stopped ∧
          ((∃ r, refused? = some r ∧
              result = (1, "Error: failed to load " ++ r.display ++ "\n")) ∨
            refused? = none ∧ result = (0, ""))) := by
  unfold result? at h
  split at h
  · next how refused? here =>
    obtain rfl := Option.some.inj h
    refine ⟨how, refused?, here, ?_⟩
    -- a run that failed reports its error, whatever was read; one that stopped reports what was
    -- read
    cases how with
    | stopped =>
      cases refused? with
      | none => exact .inr ⟨rfl, .inr ⟨rfl, rfl⟩⟩
      | some r => exact .inr ⟨rfl, .inl ⟨r, rfl, rfl⟩⟩
    | failed error => exact .inl ⟨error, rfl, rfl⟩
    | panicked => exact .inl ⟨.threadPanicked, rfl, rfl⟩
  · exact absurd h nofun

/-- The exit code says whether there was an error. -/
theorem exitCode_of_result {result : Nat × String} (h : a.result? = some result) :
    result.1 = 0 ∨ result.1 = 1 := by
  obtain ⟨-, -, -, ⟨-, -, rfl⟩ | ⟨-, ⟨-, -, rfl⟩ | ⟨-, rfl⟩⟩⟩ := result_cases h
  · exact .inr rfl
  · exact .inr rfl
  · exact .inl rfl

/-- A session that ends well saw enough frames, of a run that nothing has spoilt. -/
theorem enough_of_success (hg : Grounded wanted a) {text : String}
    (h : a.result? = some (0, text)) :
    a.world.point = .released none ∧ a.Made wanted ∧ ¬a.world.Spoilt := by
  obtain ⟨how, refused?, here, ⟨error, -, clash⟩ | ⟨rfl, ⟨r, -, clash⟩ | ⟨rfl, -⟩⟩⟩ :=
    result_cases h
  · exact absurd (congrArg Prod.fst clash) nofun
  · exact absurd (congrArg Prod.fst clash) nofun
  · have finished := hg.finished _ _ here
    have sound : ¬a.world.Spoilt := fun spoilt => spoilt.ne_stopped finished rfl
    refine ⟨Point.eq_of_end? finished, (hg.enough ?_).resolve_right sound, sound⟩
    rw [here]
    rfl

/-- Frames are made of a ROM that was accepted. -/
theorem accepted_of_made (hf : Followed rom st a) {n : Nat} (made : a.Made n) (some : 0 < n) :
    st = .answered true := by
  by_contra unaccepted
  have none : a.emulated = 0 := (hf.course.unearned unaccepted).2.1
  exact absurd none (Nat.ne_of_gt (some.trans_le made.1))

/-! ### The end is in reach -/

variable (wanted) in
/-- A loop that was told to stop, or whose run has failed, comes to its end by itself. -/
theorem end_of_loop {w : World Unit TestPattern} (post : Post) (read : Nat)
    (awake : w.asleep = false)
    (decided : w.scheduler.shared.stopping = true ∨ w.verdict? ≠ none) :
    ∃ w', Reachable wanted ⟨w, post, read⟩ ⟨w', post, read⟩ ∧ w'.todo = w.todo ∧
      w'.point.end? ≠ none := by
  -- every turn brings the loop closer to its end
  generalize hn : w.point.rank = n
  induction n using Nat.strong_induction_on generalizing w with
  | _ n ih =>
    subst hn
    by_cases going : w.point.end? = none
    · obtain ⟨p, s, todo⟩ := w
      have turn := loop_turn (e := TestPattern.engine) (s := s) going
      have stops (here : p = .between) : s.shared.stopping = true := by
        subst here
        refine decided.elim id fun verdict => ?_
        obtain ⟨error?, hv⟩ := Option.ne_none_iff_exists'.mp verdict
        exact (flag_of_verdict hv).1
      have moved : World.Step TestPattern.engine ⟨p, s, todo⟩ ⟨_, _, todo⟩ := .loop awake turn
      generalize hp : (loopTurn TestPattern.engine p s).1 = p' at turn moved
      generalize hs : (loopTurn TestPattern.engine p s).2 = s' at turn moved
      have closer : p'.rank < p.rank := hp ▸ rank_turn (fun _ => rfl) going stops
      have still : s'.shared.stopping = true ∨ World.verdict? ⟨p', s', todo⟩ ≠ none := by
        refine decided.imp (fun set => ?_) fun verdict => ?_
        · obtain same | ⟨-, set'⟩ := stopping_of_moves (moves_of_loop turn)
          · exact same.trans set
          · exact set'
        · obtain ⟨error?, hv⟩ := Option.ne_none_iff_exists'.mp verdict
          rw [verdict_step hv moved]
          exact nofun
      have awake' : s'.shared.gate.asleep = false := by
        by_cases sleeps : p = .sleeping
        · -- a loop that was told to stop does not fall asleep
          subst sleeps
          have set : s.shared.stopping = true := decided.resolve_right fun verdict => verdict rfl
          rw [← hs]
          change (!s.shared.hasWork s.romLoaded) = false
          unfold Shared.hasWork
          rw [set]
          rfl
        · exact (congrArg Gate.asleep (gate_of_loop turn sleeps)).trans awake
      obtain ⟨w', later, same, finished⟩ := ih _ closer (w := ⟨p', s', todo⟩) awake' still rfl
      exact ⟨w', (Reachable.start.step (.loop awake turn)).trans later, same, finished⟩
    · exact ⟨w, .start, rfl, going⟩

variable (wanted) in
/-- A control that the application is in the middle of can be completed. -/
theorem idle_alone (left : Attentive a.world) :
    ∃ a', Alone wanted a a' ∧ a'.post = a.post ∧ a'.read = a.read := by
  cases next : a.world.todo () with
  | nil => exact ⟨a, .refl next, rfl, rfl⟩
  | cons x rest =>
    -- at most one part of a control is left, and it neither emits nor counts
    obtain ⟨last, rfl⟩ := left.last next
    have idle : Function.update a.world.todo () [] () = [] := Function.update_self ..
    refine ⟨a.act x [], ⟨.step .start (.act next), idle, rfl, ?_, ?_⟩, rfl, rfl⟩
    · obtain rfl | rfl := last
      · rfl
      · exact congrArg Affairs.notifier (affairs_withAudio _)
    · obtain rfl | rfl := last
      · rfl
      · exact congrArg Affairs.frames (affairs_withAudio _)

variable (wanted) in
/-- Before it has made up its mind the application can come to read events or to leave its
looks. -/
theorem reading_reachable (idle : a.world.todo () = []) :
    ∃ a', Alone wanted a a' ∧ a'.read = a.read ∧ (a'.post = .reading ∨ a'.post.left? ≠ none) := by
  -- whatever was looked at leads back to reading, or out of the loop
  have verdict {b : Attended} {n : UInt64} {finished : Bool}
      (here : b.post = .ofVerdict (Look.verdict ⟨[], n, finished⟩ wanted)) :
      b.post = .reading ∨ b.post.left? ≠ none := by
    rw [here]
    unfold Look.verdict
    dsimp only [failure?, List.findSome?_nil]
    split
    · exact .inr nofun
    · exact .inl rfl
  obtain ⟨w, post, read⟩ := a
  cases post with
  | asking r => exact ⟨_, .control idle rfl, rfl, .inl rfl⟩
  | reading => exact ⟨_, .refl idle, rfl, .inl rfl⟩
  | showing =>
    obtain ⟨a', alone, same, there⟩ := showing_alone wanted idle (.inl rfl)
    exact ⟨a', alone, same, verdict there⟩
  | peeking =>
    obtain ⟨a', alone, same, there⟩ := showing_alone wanted idle (.inr (.inl rfl))
    exact ⟨a', alone, same, verdict there⟩
  | counting =>
    obtain ⟨a', alone, same, there⟩ := showing_alone wanted idle (.inr (.inr rfl))
    exact ⟨a', alone, same, verdict there⟩
  | checking n => exact ⟨_, .glance idle rfl, rfl, verdict rfl⟩
  | leaving | joining | ended => exact ⟨_, .refl idle, rfl, .inr nofun⟩

/-- If a refusal is to be read, or the loop is at its end, the application can leave its looks. -/
theorem leaving_reachable (left : Attentive a.world)
    (reason : failure? a.unread ≠ none ∨ a.world.point.end? ≠ none) :
    ∃ a', Reachable wanted a a' ∧ a'.post.left? ≠ none := by
  obtain ⟨b, completed, -, same⟩ := idle_alone wanted left
  obtain ⟨c, back, same', there⟩ := reading_reachable wanted completed.idle
  have alone := completed.trans back
  obtain here | gone := there
  · obtain ⟨d, looked, verdict⟩ := look_undisturbed wanted alone.idle here
    refine ⟨d, (alone.trans looked).reachable, ?_⟩
    have unread : c.unread = a.unread := by
      unfold unread
      rw [alone.notifier, same', same]
    -- the look finds the reason, a failure or the end of the thread
    rw [verdict, verdict_eq]
    unfold look
    rw [unread, alone.point]
    dsimp only
    cases hf : failure? a.unread with
    | some r => exact nofun
    | none =>
      have finished : a.world.point.end?.isSome = true :=
        Option.isSome_iff_ne_none.mpr (reason.resolve_left fun unread => unread hf)
      unfold Look.verdict
      rw [finished, Bool.or_true]
      exact nofun
  · exact ⟨c, alone.reachable, gone⟩

section Sessions

variable {workingDirectory : Path} {modes : Modes} {files : FileTree}

/-- An application that waits for the loop comes to its end. -/
theorem end_of_joining (hr : Reachable wanted (start workingDirectory modes files rom) a)
    {refused? : Option Path} (here : a.post = .joining refused?) :
    ∃ a', Reachable wanted a a' ∧ a'.result? ≠ none := by
  obtain ⟨b, completed, there, -⟩ := idle_alone wanted (attentive_session hr)
  have later := hr.trans completed.reachable
  have here := there.trans here
  have stops : b.world.scheduler.shared.stopping = true :=
    (grounded_session later).told (by rw [here]; rfl)
  have awake : b.world.asleep = false := by
    rw [← Bool.not_eq_true]
    intro asleep
    -- no notification is owed, so the loop would sleep over the flag
    have work := (attentive_session later).idle asleep fun _ => by
      rw [completed.idle]
      exact nofun
    unfold Scheduler.hasWork Shared.hasWork at work
    rw [stops] at work
    exact absurd work nofun
  obtain ⟨w, winds, same, finished⟩ := end_of_loop wanted b.post b.read awake (.inl stops)
  obtain ⟨how, finished⟩ := Option.ne_none_iff_exists'.mp finished
  have seen : glance wanted ⟨w, b.post, b.read⟩ = some (.ended how refused?, b.read) := by
    unfold glance
    dsimp only
    rw [here]
    exact congrArg (Option.map _) finished
  have idle : w.todo () = [] := (congrFun same ()).trans completed.idle
  exact ⟨_, (completed.reachable.trans winds).step (.glance idle seen), nofun⟩

/-- An application that has left its looks comes to its end. -/
theorem end_in_reach (hr : Reachable wanted (start workingDirectory modes files rom) a)
    (gone : a.post.left? ≠ none) : ∃ a', Reachable wanted a a' ∧ a'.result? ≠ none := by
  obtain ⟨b, completed, there, -⟩ := idle_alone wanted (attentive_session hr)
  obtain ⟨w, post, read⟩ := b
  obtain rfl : post = a.post := there
  -- who leaves tells the thread to stop, and who joins waits for its end
  cases here : a.post with
  | leaving refused? =>
    rw [here] at completed
    have told := completed.trans (.control completed.idle rfl)
    obtain ⟨a', later, ended⟩ := end_of_joining (hr.trans told.reachable) rfl
    exact ⟨a', told.reachable.trans later, ended⟩
  | joining refused? => exact end_of_joining hr here
  | ended how refused? =>
    refine ⟨a, .start, ?_⟩
    unfold result?
    rw [here]
    exact nofun
  | _ =>
    rw [here] at gone
    exact absurd rfl gone

/-- The end of a session whose run is spoilt is in reach. -/
theorem end_of_spoilt (hr : Reachable wanted (start workingDirectory modes files rom) a)
    (spoilt : a.world.Spoilt) : ∃ a', Reachable wanted a a' ∧ a'.result? ≠ none := by
  obtain ⟨b, winds, finished⟩ :
      ∃ b, Reachable wanted a b ∧ b.world.point.end? ≠ none := by
    obtain ⟨error, failed⟩ | broken := spoilt
    · have awake : a.world.asleep = false := by
        rw [← Bool.not_eq_true]
        intro asleep
        -- a loop that sleeps is between two ticks, and none has failed there
        have here := between_of_asleep (world_reachable hr) rfl asleep
        obtain ⟨w, post, read⟩ := a
        obtain ⟨p, s, todo⟩ := w
        obtain rfl : p = .between := here
        exact absurd (flag_of_verdict failed).2 nofun
      obtain ⟨w, winds, -, finished⟩ := end_of_loop wanted a.post a.read awake
        (.inr (by rw [failed]; exact nofun))
      exact ⟨_, winds, finished⟩
    · exact ⟨a, .start, by rw [broken]; exact nofun⟩
  have later := hr.trans winds
  obtain ⟨c, left, gone⟩ := leaving_reachable (attentive_session later) (.inr finished)
  obtain ⟨d, ends, ended⟩ := end_in_reach (later.trans left) gone
  exact ⟨d, (winds.trans left).trans ends, ended⟩

/-- With no frame wanted the application is content before the loop has made its first step. -/
theorem success_unasked (workingDirectory : Path) (modes : Modes) (files : FileTree) (rom : Path) :
    ∃ a, Reachable 0 (start workingDirectory modes files rom) a ∧ a.result? = some (0, "") ∧
      attempts a.world.scheduler.history = [] := by
  have asked : Alone 0 (start workingDirectory modes files rom) _ := .control rfl rfl
  have looked := (asked.trans (.glance rfl rfl)).trans (.control rfl rfl)
  have counted := (looked.trans (.glance rfl rfl)).trans (.glance rfl rfl)
  have told := (counted.trans (.control rfl rfl)).reachable
  -- the first tick that begins sees the flag
  have stopping := told.step (.loop rfl (.stop rfl))
  have emptying := stopping.step (.loop rfl .requestStop)
  have vanishing := emptying.step (.loop rfl .empty)
  have released := vanishing.step (.loop rfl .vanish)
  exact ⟨_, released.step (.glance rfl rfl), rfl, rfl⟩

/-- **What the end of a session says.** However the steps of the application and of the loop come:

* A session that ends well had as many frames made as were wanted, by a run that was told to stop,
  and the counter shows them unless it has begun anew. If any were wanted, the engine was asked for
  the ROM, once, and accepted it.
* Once a tick has failed, be it that of the preparations, or the engine has refused the ROM and
  frames are wanted, the end of the session is in reach, and every end has an error.
* If no frames are wanted that is all that can be said: whatever the ROM is, the session can end
  well before the engine is asked for it. -/
theorem session_success
    (hr : Reachable wanted (start workingDirectory modes files rom) a) :
    (∀ text, a.result? = some (0, text) →
      a.world.point = .released none ∧ a.Made wanted ∧
        (0 < wanted → attempts a.world.scheduler.history = [(rom, some true)])) ∧
    (a.world.Spoilt ∨
        0 < wanted ∧ (∃ r, (r, some false) ∈ attempts a.world.scheduler.history) →
      (∀ a', Reachable wanted a a' → ∀ result, a'.result? = some result → result.1 = 1) ∧
        ∃ a', Reachable wanted a a' ∧ a'.result? ≠ none) ∧
    (wanted = 0 →
      ∃ a', Reachable wanted (start workingDirectory modes files rom) a' ∧
        a'.result? = some (0, "") ∧ attempts a'.world.scheduler.history = []) := by
  obtain ⟨st, followed, kept⟩ := followed_session hr
  have failing {b : Attended} (unsuccessful : ∀ text, b.result? ≠ some (0, text)) (result)
      (h : b.result? = some result) : result.1 = 1 := by
    obtain ⟨code, text⟩ := result
    refine (exitCode_of_result h).resolve_left ?_
    rintro rfl
    exact unsuccessful text h
  refine ⟨fun text h => ?_, ?_, ?_⟩
  · obtain ⟨stopped, enough, -⟩ := enough_of_success (grounded_session hr) h
    refine ⟨stopped, enough, fun some => ?_⟩
    -- there is a frame, and it was made of a ROM that was accepted
    obtain rfl := accepted_of_made followed enough some
    exact followed.course.attempts
  · rintro (spoilt | ⟨some, r, refused⟩)
    · -- a run that is spoilt stays so, and success needs one that is not
      refine ⟨fun a' later => failing fun text h => ?_, end_of_spoilt hr spoilt⟩
      obtain ⟨-, -, sound⟩ := enough_of_success (grounded_session (hr.trans later)) h
      exact sound (spoilt_reachable spoilt (world_reachable later))
    · -- the answer stays, so there will never be a frame
      have answered : st = .answered false := by
        change (r, _) ∈ a.world.scheduler.affairs.attempts at refused
        rw [followed.course.attempts] at refused
        exact st.eq_answered refused
      refine ⟨fun a' later => failing fun text h => ?_, ?_⟩
      · obtain ⟨st', followed', kept'⟩ := kept a' later
        obtain ⟨-, enough, -⟩ := enough_of_success (grounded_session (hr.trans later)) h
        have accepted := accepted_of_made followed' enough some
        exact absurd (accepted.symm.trans (kept' false answered)) nofun
      · obtain ⟨b, left, gone⟩ : ∃ b, Reachable wanted a b ∧ b.post.left? ≠ none := by
          obtain unread | gone := followed.refusal answered
          · exact leaving_reachable (attentive_session hr) (.inl unread)
          · exact ⟨a, .start, gone⟩
        obtain ⟨c, ends, ended⟩ := end_in_reach (hr.trans left) gone
        exact ⟨c, left.trans ends, ended⟩
  · rintro rfl
    exact success_unasked ..

end Sessions

/-- A session with one ROM, `/a`. -/
def sampleSession (rom : Path) : Attended :=
  start (.ofString "/w") {} sample.files rom

/-- One frame of a ROM that is there, and one of a ROM that is not. -/
theorem session_success_frame :
    (∃ a, Reachable 1 (sampleSession sampleRom) a ∧ a.result? = some (0, "") ∧
      1 ≤ a.emulated ∧ a.frames = .ofNat a.emulated ∧
      attempts a.world.scheduler.history = [(sampleRom, some true)]) ∧
    ∃ a, Reachable 1 (sampleSession (.ofString "/b")) a ∧
      attempts a.world.scheduler.history = [(.ofString "/b", some false)] ∧
      ∃ a', Reachable 1 a a' ∧ ∃ text, a'.result? = some (1, text) := by
  -- enough turns of each thread for a frame of the first ROM, and for the refusal of the second one
  let turns : List Turn :=
    List.replicate 2 .application ++ List.replicate 40 .loop ++ List.replicate 20 .application ++
      List.replicate 40 .loop ++ List.replicate 5 .application
  let asked : List Turn := List.replicate 2 .application ++ List.replicate 22 .loop
  constructor
  · have hr := reachable_turns 1 (sampleSession sampleRom) turns
    have ends : (turns.foldl (turn 1) (sampleSession sampleRom)).result? = some (0, "") := by
      decide +kernel
    have shown : (turns.foldl (turn 1) (sampleSession sampleRom)).frames =
        .ofNat (turns.foldl (turn 1) (sampleSession sampleRom)).emulated := by
      decide +kernel
    obtain ⟨-, ⟨enough, -⟩, accepted⟩ := (session_success hr).1 "" ends
    exact ⟨_, hr, ends, enough, shown, accepted Nat.one_pos⟩
  · have hr := reachable_turns 1 (sampleSession (.ofString "/b")) asked
    have refused : attempts (asked.foldl (turn 1)
        (sampleSession (.ofString "/b"))).world.scheduler.history =
        [(.ofString "/b", some false)] := by
      decide +kernel
    obtain ⟨fails, a', later, ended⟩ := (session_success hr).2.1
      (.inr ⟨Nat.one_pos, _, refused ▸ List.mem_singleton_self _⟩)
    obtain ⟨⟨code, text⟩, result⟩ := Option.ne_none_iff_exists'.mp ended
    obtain rfl : code = 1 := fails a' later _ result
    exact ⟨_, hr, refused, a', later, text, result⟩

/-- **A session can end well although its ROM was refused.** No frame was wanted, and the
application left its looks before the refusal came. If the two take turns it is content at once. -/
theorem refused_yet_successful :
    (∃ a, Reachable 0 (sampleSession (.ofString "/b")) a ∧ a.result? = some (0, "") ∧
      attempts a.world.scheduler.history = [(.ofString "/b", some false)] ∧
      a.unread = [.started (.ofString "/b"), .ended (.ofString "/b"), .failed (.ofString "/b")]) ∧
    (Session.run { scheduler := sample } (some (.ofString "/b")) 0).1 = (0, "") := by
  let turns : List Turn :=
    List.replicate 5 .application ++ List.replicate 40 .loop ++ List.replicate 10 .application ++
      List.replicate 40 .loop ++ List.replicate 5 .application
  refine ⟨⟨_, reachable_turns 0 _ turns, ?_, ?_, ?_⟩, ?_⟩ <;> decide +kernel

end Attended
end EmuScheduler
