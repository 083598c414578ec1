import EmuScheduler.Proofs.Attendance
import EmuScheduler.Proofs.FrameAccounting

/-!
# The course of the one load of a session

A session loads one ROM, and whether it succeeds depends on little of what the scheduler does: the
request that waits, the answers of the engine, the steps and the frames, the events and the flag
that tells the loop to stop. These are the `Affairs` of a scheduler. `Moves` is the loop seen from
there, with all that a step can do to them, and `moves_of_loop` says that every step of the loop is
one of these.

The frames that controllers read may begin anew at zero, but there are never more of them than the
engine was asked for steps (`Tallied.frames_le`), and those are never fewer. Until there are 2^64
steps the frames are never fewer either (`frames_of_moves`).

While nobody else asks for a load, the one of the session is in one place at a time. It waits, the
loop has it in hand, the engine was asked for it, or it is answered (`LoadStage`). `Course` says
what the affairs are at each stage; until the ROM is accepted none is open, so no frame is made.
`course_of_moves` takes the steps of the loop to the steps of the load (`LoadStage.Next`), each of
which sends its own events.
-/

namespace EmuScheduler

open Scheduler

variable {σ : Type} {e : Engine σ} {s s' : Scheduler σ} {p p' : Point}

/-! ### What a session depends on -/

/-- What a session depends on of a scheduler. -/
structure Affairs where
  /-- The ROM that waits to be loaded. -/
  waits? : Option Path
  attempts : List (Path × Option Bool)
  loaded : Bool
  /-- How many steps the engine was asked for. -/
  steps : Nat
  /-- The frames that controllers read. -/
  frames : UInt64
  notifier : Notifier
  stopping : Bool

/-- The affairs of a scheduler. -/
def Scheduler.affairs (s : Scheduler σ) : Affairs where
  waits? := s.shared.requests.rom.value?
  attempts := EmuScheduler.attempts s.history
  loaded := s.romLoaded
  steps := stepCount s.history
  frames := s.shared.counter.frames
  notifier := s.shared.notifier
  stopping := s.shared.stopping

/-- Nobody steps in a section of the audio lock. -/
theorem stepCount_withAudio (change : Audio → Audio × Option Bool) :
    stepCount (s.withAudio e change).history = stepCount s.history := by
  obtain ⟨new, told⟩ := still_withAudio e s change
  rw [told.history, stepCount_append, told.unstepped, Nat.zero_add]

/-- The sound is not among the affairs of a session. -/
theorem affairs_withAudio (change : Audio → Audio × Option Bool) :
    (s.withAudio e change).affairs = s.affairs := by
  unfold Scheduler.affairs
  rw [stepCount_withAudio, withAudio_shared, withAudio_history, attempts_told,
    withAudio_romLoaded]

/-- To close the ROM leaves none open. -/
theorem affairs_closeRom : (s.closeRom e).affairs = { s.affairs with loaded := false } := by
  obtain ⟨empty, heq⟩ | ⟨-, heq⟩ := closeRom_cases e s
  · rw [heq]
    unfold Scheduler.affairs
    rw [empty]
  · rw [heq]
    rfl

namespace Point

/-- The ROM of the load that the loop has in hand, and whether the engine was asked for it. -/
def inHand? : Point → Option (Path × Bool)
  | .starting rom | .closing rom | .asking rom => some (rom, false)
  | .inLoad rom _ => some (rom, true)
  | _ => none

/-- Whether the loop makes a frame. -/
def makes : Point → Bool
  | .running | .unmuting | .locking | .stepping _ | .inStep _ _ | .presenting _ => true
  | _ => false

/-- The steps of the frame that the loop makes. -/
def underway : Point → UInt64
  | .stepping steps | .inStep steps _ | .presenting steps => steps
  | _ => 0

end Point

/-- **The loop, as far as a session depends on it.** -/
inductive Moves : Point → Affairs → Point → Affairs → Prop
  /-- A frame is begun only with a ROM, and without a step. -/
  | pass {p p' : Point} {f : Affairs} (free : p.inHand? = none) (free' : p'.inHand? = none)
      (begun : p'.makes = true → p.makes = true ∨ f.loaded = true)
      (steps : p'.underway = 0 ∨ p'.underway = p.underway) : Moves p f p' f
  | take {f : Affairs} {rom : Path} (waits : f.waits? = some rom) :
      Moves .loading f (.starting rom) { f with waits? := none }
  | announce {f : Affairs} {rom : Path} :
      Moves (.starting rom) f (.closing rom)
        { f with notifier := f.notifier.emit (.started rom) }
  | close {f : Affairs} {rom : Path} :
      Moves (.closing rom) f (.asking rom) { f with loaded := false }
  | ask {f : Affairs} {rom : Path} (accepted : Bool) :
      Moves (.asking rom) f (.inLoad rom accepted)
        { f with attempts := (rom, none) :: f.attempts }
  | accept {f : Affairs} {rom : Path} :
      Moves (.inLoad rom true) f .configuring
        { f with
          attempts := answer true f.attempts
          loaded := true
          notifier := f.notifier.emit (.ended rom) }
  | reject {f : Affairs} {rom : Path} :
      Moves (.inLoad rom false) f .configuring
        { f with
          attempts := answer false f.attempts
          notifier := (f.notifier.emit (.ended rom)).emit (.failed rom) }
  | step {f : Affairs} (steps : UInt64) (panics : Bool) :
      Moves (.stepping steps) f (.inStep (steps + 1) panics) { f with steps := f.steps + 1 }
  | present {f : Affairs} (steps : UInt64) :
      Moves (.presenting steps) f .between { f with frames := f.frames + steps }
  | stop {f : Affairs} {error? : Option SchedulerError} :
      Moves (.stopping error?) f (.emptying error?) { f with stopping := true }
  | empty {f : Affairs} {error? : Option SchedulerError} :
      Moves (.emptying error?) f (.vanishing error?) { f with loaded := false }

/-- What the loop does elsewhere is not the session's concern. -/
theorem Moves.same (free : p.inHand? = none) (free' : p'.inHand? = none)
    (begun : p'.makes = true → p.makes = true ∨ s.romLoaded = true)
    (steps : p'.underway = 0 ∨ p'.underway = p.underway)
    (same : s'.affairs = s.affairs) : Moves p s.affairs p' s'.affairs := by
  rw [same]
  exact .pass free free' begun steps

/-- The same for a part that may fail. -/
theorem Moves.after {r : Except SchedulerError Unit} (free : p.inHand? = none)
    (free' : p'.inHand? = none) (begun : p'.makes = true → p.makes = true ∨ s.romLoaded = true)
    (steps : p'.underway = 0 ∨ p'.underway = p.underway)
    (same : s'.affairs = s.affairs) : Moves p s.affairs (.after r p') s'.affairs :=
  Point.after_elim (motive := (Moves p s.affairs · s'.affairs)) (.same free free' begun steps same)
    fun _ => .same free rfl nofun (.inl rfl) same

/-- Every step of the loop is one of these moves. -/
theorem moves_of_loop (hl : Loop e p s p' s') : Moves p s.affairs p' s'.affairs := by
  cases hl with
  | create hc =>
    obtain ⟨files, rfl⟩ := createTree_cases hc
    exact .after rfl rfl nofun (.inl rfl) rfl
  | purge hc =>
    obtain ⟨files, rfl | ⟨removed, rfl⟩⟩ := purgeImages_cases hc
    all_goals exact .after rfl rfl nofun (.inl rfl) rfl
  | setUpEnds | check => exact .after rfl rfl nofun (.inl rfl) rfl
  | engage =>
    have engaged : (s.withAudio e Audio.engage).affairs = s.affairs := affairs_withAudio _
    exact .same rfl rfl nofun (.inl rfl) engaged
  | takeLoad waits => exact .take waits
  | announce => exact .announce
  | close =>
    rw [affairs_closeRom]
    exact .close
  | load => exact .ask _
  | accept => exact .accept
  | reject => exact .reject
  | @apply _ _ k _ _ ha =>
    -- of the mailboxes it is that of a mode that is emptied
    have others : { s.affairs with waits? := (s.shared.requests.takeMode k).2.rom.value? } =
        s.affairs :=
      congrArg (fun m : Mailbox Path => { s.affairs with waits? := m.value? })
        (Requests.rom_takeMode ..)
    obtain ⟨-, rfl, rfl⟩ | ⟨mode, -, ⟨rfl, rfl⟩ | ⟨rfl, rfl⟩⟩ := applyMode_cases ha
    · exact .pass rfl rfl nofun (.inl rfl)
    · exact .same rfl rfl nofun (.inl rfl) others
    · exact .same rfl rfl nofun (.inl rfl) others
  | choose runs =>
    -- the only way to the making of a frame, and it asks for a ROM
    rw [Bool.and_eq_true] at runs
    exact .after rfl rfl (fun _ => .inr runs.1) (.inl rfl) rfl
  | unmute => exact .same rfl rfl (fun _ => .inl rfl) (.inl rfl) (affairs_withAudio _)
  | @step _ n =>
    have asked : stepCount (⟨.call .step, s.view⟩ :: s.history) = stepCount s.history + 1 := by
      rw [← List.singleton_append, stepCount_append, Nat.add_comm]
      rfl
    have moved := Moves.step (f := s.affairs) n
      (e.step s.engine s.shared.frame.buffer).answer.panics
    rw [show s.affairs.steps + 1 = _ from asked.symm] at moved
    exact moved
  | @present _ n now =>
    obtain ⟨rate, window, heq⟩ := present_cases (s := s) n now
    rw [heq]
    exact .present n
  | requestStop => exact .stop
  | empty =>
    rw [affairs_closeRom]
    exact .empty
  | run | lock => exact .pass rfl rfl (fun _ => .inl rfl) (.inl rfl)
  | again | finish => exact .pass rfl rfl (fun _ => .inl rfl) (.inr rfl)
  | _ => exact .pass rfl rfl nofun (.inl rfl)

/-- The steps are never fewer. -/
theorem steps_of_moves {f f' : Affairs} (hm : Moves p f p' f') : f.steps ≤ f'.steps := by
  -- a step adds one, and nothing else touches the count
  cases hm with
  | step => exact Nat.le_succ _
  | _ => exact Nat.le_refl _

/-- What was counted as frames, and the steps of the frame that is made now, are among the steps
that the engine was asked for. -/
def Tallied (p : Point) (frames : UInt64) (steps : Nat) : Prop :=
  ∃ counted made : Nat, frames = .ofNat counted ∧ p.underway = .ofNat made ∧
    counted + made ≤ steps

/-- Controllers never read more frames than there were steps. -/
theorem Tallied.frames_le {frames : UInt64} {steps : Nat} (h : Tallied p frames steps) :
    frames.toNat ≤ steps := by
  obtain ⟨counted, made, rfl, -, within⟩ := h
  rw [UInt64.toNat_ofNat']
  exact Nat.le_trans (Nat.mod_le _ _) (Nat.le_of_add_right_le within)

/-- Every step is counted once, when it is asked for, and becomes a frame when its burst ends. -/
theorem tallied_of_moves {f f' : Affairs} (h : Tallied p f.frames f.steps)
    (hm : Moves p f p' f') : Tallied p' f'.frames f'.steps := by
  obtain ⟨counted, made, frames, underway, within⟩ := h
  -- where no frame is made, none of the steps is left over
  have idle {p' : Point} (none : p'.underway = 0) : Tallied p' f.frames f.steps :=
    ⟨counted, 0, frames, none, Nat.le_of_add_right_le within⟩
  cases hm with
  | pass free free' begun steps =>
    obtain none | same := steps
    · exact idle none
    · exact ⟨counted, made, frames, same.trans underway, within⟩
  | step steps panics =>
    obtain rfl : steps = .ofNat made := underway
    exact ⟨counted, made + 1, frames, (UInt64.ofNat_add made 1).symm, Nat.succ_le_succ within⟩
  | present steps =>
    obtain rfl : steps = .ofNat made := underway
    refine ⟨counted + made, 0, ?_, rfl, within⟩
    rw [UInt64.ofNat_add, ← frames]
  | _ => exact idle rfl

/-- As long as there are fewer than 2^64 steps the counter does not begin anew. -/
theorem frames_of_moves {f f' : Affairs} (h : Tallied p f.frames f.steps) (hm : Moves p f p' f')
    (few : f'.steps < 2 ^ 64) : f.frames.toNat ≤ f'.frames.toNat := by
  obtain ⟨counted, made, frames, underway, within⟩ := h
  cases hm with
  | present steps =>
    obtain rfl : steps = .ofNat made := underway
    -- the frame that is made known was stepped, so the sum is among the few steps
    have later : counted + made < 2 ^ 64 := Nat.lt_of_le_of_lt within few
    change f.frames.toNat ≤ (f.frames + .ofNat made).toNat
    rw [frames, ← UInt64.ofNat_add, UInt64.toNat_ofNat_of_lt' later,
      UInt64.toNat_ofNat_of_lt' (Nat.lt_of_add_right_lt later)]
    exact Nat.le_add_right _ _
  | _ => exact Nat.le_refl _

/-- The flag is never taken back, and the loop sets it only at its end. -/
theorem stopping_of_moves {f f' : Affairs} (hm : Moves p f p' f') :
    f'.stopping = f.stopping ∨ (∃ error?, p = .stopping error?) ∧ f'.stopping = true := by
  cases hm with
  | stop => exact .inr ⟨⟨_, rfl⟩, rfl⟩
  | _ => exact .inl rfl

/-! ### The course of a load -/

/-- How far the load of a session has come. -/
inductive LoadStage where
  | unrequested
  | waiting
  /-- The loop has it in hand. -/
  | taken
  | asked
  | answered (accepted : Bool)
  deriving DecidableEq

namespace LoadStage

variable (rom : Path)

/-- What waits in the mailbox. -/
def waits? : LoadStage → Option Path
  | .waiting => some rom
  | _ => none

/-- What the engine was asked for. -/
def attempts : LoadStage → List (Path × Option Bool)
  | .asked => [(rom, none)]
  | .answered accepted => [(rom, some accepted)]
  | _ => []

/-- What the loop has in hand, and whether the engine was asked for it. -/
def inHand? : LoadStage → Option (Path × Bool)
  | .taken => some (rom, false)
  | .asked => some (rom, true)
  | _ => none

/-- The steps of a load, with the events that are sent. -/
inductive Next : LoadStage → List LoadEvent → LoadStage → Prop
  | stay {st : LoadStage} : Next st [] st
  | take : Next .waiting [] .taken
  | announce : Next .taken [.started rom] .taken
  | ask : Next .taken [] .asked
  | accept : Next .asked [.ended rom] (.answered true)
  | reject : Next .asked [.ended rom, .failed rom] (.answered false)

variable {rom} {r : Path} {st : LoadStage}

/-- What waits is the ROM of the session. -/
theorem eq_waiting (h : st.waits? rom = some r) : st = .waiting ∧ r = rom := by
  cases st with
  | waiting => exact ⟨rfl, (Option.some.inj h).symm⟩
  | _ => exact absurd h nofun

/-- The loop has only the ROM of the session in hand. -/
theorem eq_taken (h : some (r, false) = st.inHand? rom) : st = .taken ∧ r = rom := by
  cases st with
  | taken => exact ⟨rfl, congrArg Prod.fst (Option.some.inj h)⟩
  | _ => exact absurd h nofun

theorem eq_asked (h : some (r, true) = st.inHand? rom) : st = .asked ∧ r = rom := by
  cases st with
  | asked => exact ⟨rfl, congrArg Prod.fst (Option.some.inj h)⟩
  | _ => exact absurd h nofun

/-- An answer among the attempts is the answer of this stage. -/
theorem eq_answered {accepted : Bool} (st : LoadStage)
    (h : (r, some accepted) ∈ st.attempts rom) : st = .answered accepted := by
  cases st with
  | asked => exact absurd (congrArg Prod.snd (List.mem_singleton.mp h)) nofun
  | answered given =>
    obtain rfl := Option.some.inj (congrArg Prod.snd (List.mem_singleton.mp h))
    rfl
  | _ => exact absurd h List.not_mem_nil

end LoadStage

/-- Whether there is one receiver, and events go to it. -/
def Notifier.Single (n : Notifier) : Prop :=
  ∃ events, n.inboxes = [(n.bound, events)]

/-- Where one listener is told, it receives the event. -/
theorem Notifier.Single.emit {n : Notifier} (h : n.Single) (event : LoadEvent) :
    (n.emit event).Single ∧ (n.emit event).received = n.received ++ [event] := by
  obtain ⟨events, heq⟩ := h
  have sent : (n.emit event).inboxes = [(n.bound, events ++ [event])] := by
    unfold Notifier.emit
    rw [heq]
    simp
  refine ⟨⟨_, sent⟩, ?_⟩
  unfold received
  rw [sent, heq]
  simp

/-- **The course of the load of a session**: its stage, with the loop at a point. -/
structure Course (rom : Path) (st : LoadStage) (p : Point) (f : Affairs) : Prop where
  place : p.inHand? = st.inHand? rom
  waits : f.waits? = st.waits? rom
  attempts : f.attempts = st.attempts rom
  /-- As long as no ROM is accepted there is nothing to make frames of. -/
  unearned : st ≠ .answered true → f.loaded = false ∧ f.steps = 0 ∧ p.makes = false
  heard : f.notifier.Single

/-- **A step of the loop is a step of the load.** -/
theorem course_of_moves {rom : Path} {st : LoadStage} {f f' : Affairs} (hc : Course rom st p f)
    (hm : Moves p f p' f') :
    ∃ events st', st.Next rom events st' ∧ Course rom st' p' f' ∧
      f'.notifier.received = f.notifier.received ++ events := by
  obtain ⟨place, waits, attempts, unearned, heard⟩ := hc
  have unsent := (List.append_nil f.notifier.received).symm
  cases hm with
  | pass free free' begun _ =>
    -- the load is in no hand before and after, and without a ROM no frame is begun
    refine ⟨[], st, .stay, ⟨?_, waits, attempts, fun unaccepted => ?_, heard⟩, unsent⟩
    · rw [free', ← place, free]
    · obtain ⟨empty, none, idle⟩ := unearned unaccepted
      refine ⟨empty, none, (Bool.not_eq_true _).mp fun makes => ?_⟩
      obtain makes | loaded := begun makes
      · exact absurd (idle.symm.trans makes) Bool.false_ne_true
      · exact absurd (empty.symm.trans loaded) Bool.false_ne_true
  | take waiting =>
    -- from here on each point of the loop names the one stage that the load can be at
    obtain ⟨rfl, rfl⟩ := LoadStage.eq_waiting (waits.symm.trans waiting)
    obtain ⟨empty, none, -⟩ := unearned nofun
    exact ⟨[], .taken, .take,
      ⟨rfl, rfl, attempts, fun _ => ⟨empty, none, rfl⟩, heard⟩, unsent⟩
  | announce =>
    obtain ⟨rfl, rfl⟩ := LoadStage.eq_taken place
    obtain ⟨empty, none, -⟩ := unearned nofun
    obtain ⟨heard, sent⟩ := heard.emit (.started _)
    exact ⟨_, .taken, .announce,
      ⟨rfl, waits, attempts, fun _ => ⟨empty, none, rfl⟩, heard⟩, sent⟩
  | close =>
    obtain ⟨rfl, rfl⟩ := LoadStage.eq_taken place
    obtain ⟨-, none, -⟩ := unearned nofun
    exact ⟨[], .taken, .stay,
      ⟨rfl, waits, attempts, fun _ => ⟨rfl, none, rfl⟩, heard⟩, unsent⟩
  | ask =>
    obtain ⟨rfl, rfl⟩ := LoadStage.eq_taken place
    obtain ⟨empty, none, -⟩ := unearned nofun
    exact ⟨[], .asked, .ask,
      ⟨rfl, waits, congrArg (_ :: ·) attempts, fun _ => ⟨empty, none, rfl⟩, heard⟩,
      unsent⟩
  | accept =>
    obtain ⟨rfl, rfl⟩ := LoadStage.eq_asked place
    obtain ⟨heard, sent⟩ := heard.emit (.ended _)
    exact ⟨_, .answered true, .accept,
      ⟨rfl, waits, congrArg (answer true) attempts, fun unaccepted => absurd rfl unaccepted, heard⟩,
      sent⟩
  | reject =>
    obtain ⟨rfl, rfl⟩ := LoadStage.eq_asked place
    obtain ⟨empty, none, -⟩ := unearned nofun
    obtain ⟨heard, ended⟩ := heard.emit (.ended _)
    obtain ⟨heard, failed⟩ := heard.emit (.failed _)
    refine ⟨_, .answered false, .reject,
      ⟨rfl, waits, congrArg (answer false) attempts, fun _ => ⟨empty, none, rfl⟩, heard⟩, ?_⟩
    rw [failed, ended, List.append_assoc]
    rfl
  | step | present =>
    -- a frame is made of a ROM
    have accepted : st = .answered true := by
      by_contra unaccepted
      exact absurd (unearned unaccepted).2.2 nofun
    exact ⟨[], st, .stay,
      ⟨place, waits, attempts, fun unaccepted => absurd accepted unaccepted, heard⟩,
      unsent⟩
  | stop => exact ⟨[], st, .stay, ⟨place, waits, attempts, unearned, heard⟩, unsent⟩
  | empty =>
    exact ⟨[], st, .stay,
      ⟨place, waits, attempts, fun unaccepted => ⟨rfl, (unearned unaccepted).2⟩, heard⟩,
      unsent⟩

end EmuScheduler
