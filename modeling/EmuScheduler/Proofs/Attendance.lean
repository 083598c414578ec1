import EmuScheduler.CommandLine.Session
import EmuScheduler.Proofs.Interleaving
import EmuScheduler.Proofs.LoopTurns

/-!
# The application beside the loop

`Session.run` lets the application and the loop take turns. In a session they run side by side: the
application asks for its ROM and then looks at the scheduler again and again, while the loop goes
on. A look is no single moment. The events are read one after the other until none is left, then a
finished frame is fetched, then the frames are counted, and last the application sees whether the
loop has come to its end; between any two of these the loop can do whatever it likes.

An `Attended` is a world whose only controller is the application, with the place where that is
(`Post`) and how many events it has read. `Attended.Step` is a step of either of them, or a change
that others make to the files and the cheats. What the loop and the controls of the application do
are steps of the world (`Attended.world_reachable`), so all that is known of worlds holds here.

A look that nobody disturbs has the verdict of `Look.verdict` (`look_undisturbed`). What a session
comes to by given turns of the two can be computed (`Attended.turn`).
-/

namespace EmuScheduler

open Scheduler World

/-- Where the application is, between one step and the next. -/
inductive Post where
  /-- The ROM is to be requested. -/
  | asking (rom : Path)
  | reading
  /-- The events are read. A finished frame is to be fetched, if one waits. -/
  | showing
  | peeking
  | counting
  /-- So many frames were counted; whether the loop has come to its end is to be seen. -/
  | checking (frames : UInt64)
  /-- The loop is to be told to stop, because a ROM was refused or because it is enough. -/
  | leaving (refused? : Option Path)
  /-- The end of the loop is awaited. -/
  | joining (refused? : Option Path)
  | ended (how : RunEnd) (refused? : Option Path)

namespace Post

/-- Where the application goes after a look. -/
def ofVerdict : Verdict → Post
  | .giveUp rom => .leaving (some rom)
  | .leave => .leaving none
  | .wait => .reading

/-- The control that the application uses here, and where it goes. -/
def control? (ready : Bool) : Post → Option (Control × Post)
  | .asking rom => some (.load rom, .reading)
  | .showing => some (.takeReady, if ready then .peeking else .counting)
  | .peeking => some (.peek, .counting)
  | .leaving refused? => some (.shutdown, .joining refused?)
  | _ => none

/-- What the application has made up its mind about, if it has: to give up on a ROM, or that it is
enough. -/
def left? : Post → Option (Option Path)
  | .leaving refused? | .joining refused? | .ended _ refused? => some refused?
  | _ => none

/-- Whether the application has told the loop to stop. -/
def told : Post → Bool
  | .joining _ | .ended _ _ => true
  | _ => false

end Post

/-- The events that have arrived. -/
def Notifier.received (n : Notifier) : List LoadEvent :=
  n.inboxes.flatMap (·.2)

/-- An application that takes turns with the loop reads what has arrived. -/
theorem look_eq (r : Session.Running) :
    r.look.1 = ⟨r.scheduler.shared.notifier.received, r.scheduler.shared.counter.frames,
      r.finished⟩ := by
  -- who has received nothing has nothing to be read
  have events (inboxes : List (Sink × List LoadEvent)) :
      (inboxes.filter fun i => !i.2.isEmpty).flatMap (·.2) = inboxes.flatMap (·.2) := by
    induction inboxes with
    | nil => rfl
    | cons i inboxes ih =>
      obtain ⟨sink, events⟩ := i
      cases events with
      | nil => exact ih
      | cons event rest => exact congrArg (event :: rest ++ ·) ih
  exact congrArg (Look.mk · _ _) (events r.scheduler.shared.notifier.inboxes)

/-- A scheduler at work, and the application that attends to it. -/
structure Attended where
  world : World Unit TestPattern
  post : Post
  /-- How many events the application has read. -/
  read : Nat := 0

namespace Attended

/-- The events that the application has not read yet. -/
def unread (a : Attended) : List LoadEvent :=
  a.world.scheduler.shared.notifier.received.drop a.read

/-- The frames that have been counted so far, modulo 2^64. -/
def frames (a : Attended) : UInt64 :=
  a.world.scheduler.shared.counter.frames

/-- What the application would see if it saw everything at once. -/
def look (a : Attended) : Look :=
  ⟨a.unread, a.frames, a.world.point.end?.isSome⟩

/-- Where the application goes by looking, and how many events it has read then. -/
def glance (wanted : Nat) (a : Attended) : Option (Post × Nat) :=
  match a.post with
  | .reading =>
    match a.unread with
    | [] => some (.showing, a.read)
    | event :: _ => some ((failure? [event]).elim .reading (.leaving ∘ some), a.read + 1)
  | .counting => some (.checking a.frames, a.read)
  | .checking n =>
    some (.ofVerdict (Look.verdict ⟨[], n, a.world.point.end?.isSome⟩ wanted), a.read)
  | .joining refused? => a.world.point.end?.map fun how => (.ended how refused?, a.read)
  | _ => none

/-- The first part of a control of the application. -/
def begin (a : Attended) (c : Control) (post : Post) : Attended :=
  { a with
    world :=
      { a.world with
        scheduler :=
          (a.world.scheduler.record (.control c)).runParts TestPattern.engine (c.parts.take 1)
        todo := Function.update a.world.todo () (c.parts.drop 1) }
    post }

/-- A later part of a control of the application. -/
def act (a : Attended) (x : ControlPart) (rest : List ControlPart) : Attended :=
  { a with
    world :=
      { a.world with
        scheduler := a.world.scheduler.runPart TestPattern.engine x
        todo := Function.update a.world.todo () rest } }

/-- **The steps of a session** in which so many frames are wanted. -/
inductive Step (wanted : Nat) (a : Attended) : Attended → Prop
  | loop {p : Point} {s : Scheduler TestPattern} (awake : a.world.asleep = false)
      (h : Loop TestPattern.engine a.world.point a.world.scheduler p s) :
      Step wanted a { a with world := { a.world with point := p, scheduler := s } }
  | outside (files : FileTree) (cheats : CheatStore) :
      Step wanted a
        { a with world := { a.world with scheduler := a.world.scheduler.outside files cheats } }
  | call {c : Control} {post : Post} (idle : a.world.todo () = [])
      (next : a.post.control? a.world.scheduler.shared.frame.ready = some (c, post)) :
      Step wanted a (a.begin c post)
  | act {x : ControlPart} {rest : List ControlPart} (next : a.world.todo () = x :: rest) :
      Step wanted a (a.act x rest)
  | glance {post : Post} {read : Nat} (idle : a.world.todo () = [])
      (next : a.glance wanted = some (post, read)) : Step wanted a { a with post, read }

/-- **What a session can come to**, in any order of steps. -/
inductive Reachable (wanted : Nat) (a₀ : Attended) : Attended → Prop
  | start : Reachable wanted a₀ a₀
  | step {a a' : Attended} (hr : Reachable wanted a₀ a) (hs : Step wanted a a') :
      Reachable wanted a₀ a'

/-- A session that is about to ask for its ROM. -/
def start (workingDirectory : Path) (modes : Modes) (files : FileTree) (rom : Path) : Attended where
  world := .start (.start TestPattern.engine {} workingDirectory modes "main" files 0)
  post := .asking rom

/-- How a session has ended, if it has: the exit code, and what is printed on the error channel. -/
def result? (a : Attended) : Option (Nat × String) :=
  match a.post with
  | .ended how refused? =>
    some (Session.close { scheduler := a.world.scheduler, progress := .ended how }
      (refused?.elim (0, "") fun rom => (1, "Error: failed to load " ++ rom.display ++ "\n")))
  | _ => none

variable {wanted : Nat} {a a' a'' a₀ : Attended} {post : Post}

/-- What a glance comes to, place by place. -/
theorem glance_cases {read : Nat} (h : a.glance wanted = some (post, read)) :
    (a.post = .reading ∧ a.unread = [] ∧ post = .showing ∧ read = a.read) ∨
      (∃ event rest, a.post = .reading ∧ a.unread = event :: rest ∧
        post = (failure? [event]).elim .reading (.leaving ∘ some) ∧ read = a.read + 1) ∨
      (a.post = .counting ∧ post = .checking a.frames ∧ read = a.read) ∨
      (∃ n, a.post = .checking n ∧
        post = .ofVerdict (Look.verdict ⟨[], n, a.world.point.end?.isSome⟩ wanted) ∧
        read = a.read) ∨
      ∃ refused? how, a.post = .joining refused? ∧ a.world.point.end? = some how ∧
        post = .ended how refused? ∧ read = a.read := by
  unfold glance at h
  split at h
  · next here =>
    split at h
    · next none =>
      cases h
      left
      exact ⟨here, none, rfl, rfl⟩
    · next event rest some =>
      cases h
      right; left
      exact ⟨event, rest, here, some, rfl, rfl⟩
  · next here =>
    cases h
    right; right; left
    exact ⟨here, rfl, rfl⟩
  · next n here =>
    cases h
    right; right; right; left
    exact ⟨n, here, rfl, rfl⟩
  · next refused? here =>
    -- the application waits for the loop, so it goes on only if that has ended
    obtain ⟨how, finished, heq⟩ := Option.map_eq_some_iff.mp h
    cases heq
    right; right; right; right
    exact ⟨refused?, how, here, finished, rfl, rfl⟩
  · exact absurd h nofun

theorem Reachable.trans (hr : Reachable wanted a₀ a) (hr' : Reachable wanted a a') :
    Reachable wanted a₀ a' := by
  induction hr' with
  | start => exact hr
  | step _ hs ih => exact ih.step hs

/-- A step of a session is one of its world, or leaves that alone. -/
theorem world_step (hs : Step wanted a a') :
    a'.world = a.world ∨ World.Step TestPattern.engine a.world a'.world := by
  cases hs with
  | loop awake h => exact .inr (.loop awake h)
  | outside files cheats => exact .inr (.outside files cheats)
  | call idle next => exact .inr (.call () _ idle)
  | act next => exact .inr (.act next)
  | glance => exact .inl rfl

/-- What a session comes to its world can come to. -/
theorem world_reachable (hr : Reachable wanted a₀ a) :
    World.Reachable TestPattern.engine a₀.world a.world := by
  induction hr with
  | start => exact .start
  | step _ hs ih =>
    obtain same | moved := world_step hs
    · rw [same]
      exact ih
    · exact ih.step moved

/-! ### The application by itself -/

/-- From `a` the application can come to `a'` by itself, and it is not in the middle of a control
there. -/
structure Alone (wanted : Nat) (a a' : Attended) : Prop where
  reachable : Reachable wanted a a'
  idle : a'.world.todo () = []
  point : a'.world.point = a.world.point
  notifier : a'.world.scheduler.shared.notifier = a.world.scheduler.shared.notifier
  frames : a'.frames = a.frames

theorem Alone.refl (idle : a.world.todo () = []) : Alone wanted a a :=
  ⟨.start, idle, rfl, rfl, rfl⟩

theorem Alone.trans (h : Alone wanted a a') (h' : Alone wanted a' a'') : Alone wanted a a'' where
  reachable := h.reachable.trans h'.reachable
  idle := h'.idle
  point := h'.point.trans h.point
  notifier := h'.notifier.trans h.notifier
  frames := h'.frames.trans h.frames

/-- A glance is a step of the application by itself. -/
theorem Alone.glance {read : Nat} (idle : a.world.todo () = [])
    (next : a.glance wanted = some (post, read)) : Alone wanted a { a with post, read } :=
  ⟨.step .start (.glance idle next), idle, rfl, rfl, rfl⟩

/-- The parts of a control that are left can follow each other. -/
theorem acts_reachable {p : Point} {s : Scheduler TestPattern} {todo : Unit → List ControlPart}
    {read : Nat} {xs : List ControlPart}
    (hr : Reachable wanted a₀ ⟨⟨p, s, Function.update todo () xs⟩, post, read⟩) :
    Reachable wanted a₀
      ⟨⟨p, s.runParts TestPattern.engine xs, Function.update todo () []⟩, post, read⟩ := by
  induction xs generalizing s with
  | nil => exact hr
  | cons x xs ih =>
    have next : Function.update todo () (x :: xs) () = x :: xs := Function.update_self ..
    have acted := hr.step (.act next)
    unfold Attended.act at acted
    rw [Function.update_idem] at acted
    exact ih acted

/-- The application uses a control, and the loop does not come between its parts. -/
theorem Alone.control {c : Control} (idle : a.world.todo () = [])
    (next : a.post.control? a.world.scheduler.shared.frame.ready = some (c, post)) :
    Alone wanted a
      { a with
        world :=
          { a.world with scheduler := a.world.scheduler.control TestPattern.engine c }
        post } := by
  obtain ⟨⟨p, s, todo⟩, here, read⟩ := a
  -- the call makes the first part, and the others follow one by one
  have begun : Reachable wanted ⟨⟨p, s, todo⟩, here, read⟩ (Attended.begin _ c post) :=
    .step .start (.call idle next)
  have done := acts_reachable begun
  change todo () = [] at idle
  rw [control_eq_drop_take, ← idle, Function.update_eq_self] at done
  refine ⟨done, idle, rfl, ?_, ?_⟩
  -- none of the controls that an application uses sends events or counts frames
  all_goals
    cases here with
    | asking | showing | peeking | leaving =>
      cases next
      rfl
    | _ => exact absurd next nofun

/-- The first failure counts, so those in earlier events come first. -/
theorem failure?_append (xs ys : List LoadEvent) :
    failure? (xs ++ ys) = (failure? xs).or (failure? ys) :=
  List.findSome?_append

/-- A failure that has arrived is what a look is about; otherwise it is about the frames and the
end of the loop. -/
theorem verdict_eq (l : Look) (wanted : Nat) :
    l.verdict wanted =
      (failure? l.events).elim (Look.verdict ⟨[], l.frames, l.finished⟩ wanted) .giveUp := by
  unfold Look.verdict
  cases failure? l.events <;> rfl

variable (wanted) in
/-- The events are read up to the first failure. -/
theorem reading_alone (idle : a.world.todo () = []) (here : a.post = .reading) :
    ∃ a', Alone wanted a a' ∧ a'.post = (failure? a.unread).elim .showing (.leaving ∘ some) := by
  obtain ⟨w, post, read⟩ := a
  obtain rfl : post = .reading := here
  -- each glance reads one event, until one of them is a failure or none is left
  generalize hu : unread ⟨w, .reading, read⟩ = events
  induction events generalizing read with
  | nil =>
    have next : glance wanted ⟨w, .reading, read⟩ = some (.showing, read) := by
      unfold glance
      dsimp only
      rw [hu]
    exact ⟨_, .glance idle next, rfl⟩
  | cons event rest ih =>
    have next : glance wanted ⟨w, .reading, read⟩ =
        some ((failure? [event]).elim .reading (.leaving ∘ some), read + 1) := by
      unfold glance
      dsimp only
      rw [hu]
    have first := Alone.glance idle next
    rw [← List.singleton_append, failure?_append]
    cases hf : failure? [event] with
    | some rom =>
      rw [hf] at first
      exact ⟨_, first, rfl⟩
    | none =>
      rw [hf] at first
      -- the event that was read is gone from those that are left
      have later : unread ⟨w, .reading, read + 1⟩ = rest := by
        unfold unread at hu ⊢
        rw [← List.tail_drop, hu]
        rfl
      obtain ⟨a', others, there⟩ := ih (read + 1) idle later
      exact ⟨a', first.trans others, there⟩

variable (wanted) in
/-- Once the events are read the rest of the look follows. -/
theorem showing_alone (idle : a.world.todo () = [])
    (here : a.post = .showing ∨ a.post = .peeking ∨ a.post = .counting) :
    ∃ a', Alone wanted a a' ∧ a'.read = a.read ∧
      a'.post = .ofVerdict (Look.verdict ⟨[], a.frames, a.world.point.end?.isSome⟩ wanted) := by
  obtain ⟨w, post, read⟩ := a
  have counting {s : Scheduler TestPattern} :
      ∃ a', Alone wanted ⟨{ w with scheduler := s }, .counting, read⟩ a' ∧ a'.read = read ∧
        a'.post = .ofVerdict
          (Look.verdict ⟨[], s.shared.counter.frames, w.point.end?.isSome⟩ wanted) := by
    have counted : Alone wanted ⟨{ w with scheduler := s }, .counting, read⟩ _ := .glance idle rfl
    exact ⟨_, counted.trans (.glance idle rfl), rfl, rfl⟩
  have peeking {s : Scheduler TestPattern} :
      ∃ a', Alone wanted ⟨{ w with scheduler := s }, .peeking, read⟩ a' ∧ a'.read = read ∧
        a'.post = .ofVerdict
          (Look.verdict ⟨[], s.shared.counter.frames, w.point.end?.isSome⟩ wanted) := by
    have peeked : Alone wanted ⟨{ w with scheduler := s }, .peeking, read⟩ _ := .control idle rfl
    obtain ⟨a', counted, same, there⟩ := counting
    exact ⟨a', peeked.trans counted, same, there⟩
  -- a frame that waits makes the look longer by a peek
  obtain rfl | rfl | rfl := here
  · have fetched : Alone wanted ⟨w, .showing, read⟩ _ := .control idle rfl
    cases ready : w.scheduler.shared.frame.ready with
    | true =>
      rw [ready] at fetched
      obtain ⟨a', looked, same, there⟩ := peeking
      exact ⟨a', fetched.trans looked, same, there⟩
    | false =>
      rw [ready] at fetched
      obtain ⟨a', looked, same, there⟩ := counting
      exact ⟨a', fetched.trans looked, same, there⟩
  · exact peeking
  · exact counting

variable (wanted) in
/-- **A look that nobody disturbs** has the verdict of what there was to be seen. -/
theorem look_undisturbed (idle : a.world.todo () = []) (here : a.post = .reading) :
    ∃ a', Alone wanted a a' ∧ a'.post = .ofVerdict (a.look.verdict wanted) := by
  obtain ⟨a', events, there⟩ := reading_alone wanted idle here
  rw [verdict_eq]
  change ∃ a', Alone wanted a a' ∧ a'.post = .ofVerdict ((failure? a.unread).elim _ .giveUp)
  cases hf : failure? a.unread with
  | some rom =>
    rw [hf] at there
    exact ⟨a', events, there⟩
  -- no failure was read, so the rest of the look decides, on what was there at its beginning
  | none =>
    rw [hf] at there
    obtain ⟨a'', rest, -, verdict⟩ := showing_alone wanted events.idle (.inl there)
    rw [events.frames, events.point] at verdict
    exact ⟨a'', events.trans rest, verdict⟩

/-! ### By turns -/

/-- Whose turn it is. -/
inductive Turn where
  | loop
  | application

/-- What comes of a turn: nothing, if it is the turn of one who sleeps, waits or is at the end. -/
def turn (wanted : Nat) (a : Attended) : Turn → Attended
  | .loop =>
    if a.world.asleep || a.world.point.end?.isSome then a
    else
      let next := loopTurn TestPattern.engine a.world.point a.world.scheduler
      { a with world := { a.world with point := next.1, scheduler := next.2 } }
  | .application =>
    -- a control that was begun is completed first
    match a.world.todo () with
    | x :: rest => a.act x rest
    | [] =>
      match a.post.control? a.world.scheduler.shared.frame.ready with
      | some (c, post) => a.begin c post
      | none =>
        match a.glance wanted with
        | some (post, read) => { a with post, read }
        | none => a

/-- A turn is a step, or none. -/
theorem reachable_turn (wanted : Nat) (a : Attended) (t : Turn) :
    Reachable wanted a (a.turn wanted t) := by
  cases t with
  | loop =>
    rw [turn]
    split
    · exact .start
    · next goes =>
      rw [Bool.or_eq_true, not_or, Bool.not_eq_true, Bool.not_eq_true,
        Option.isSome_eq_false_iff, Option.isNone_iff_eq_none] at goes
      exact .step .start (.loop goes.1 (loop_turn goes.2))
  | application =>
    rw [turn]
    split
    · -- in the middle of a control
      next next => exact .step .start (.act next)
    · next idle =>
      split
      · next next => exact .step .start (.call idle next)
      · split
        · next next => exact .step .start (.glance idle next)
        · exact .start

/-- **What comes of some turns can be reached.** -/
theorem reachable_turns (wanted : Nat) (a : Attended) (ts : List Turn) :
    Reachable wanted a (ts.foldl (turn wanted) a) := by
  induction ts generalizing a with
  | nil => exact .start
  | cons t ts ih => exact (reachable_turn wanted a t).trans (ih _)

end Attended
end EmuScheduler
