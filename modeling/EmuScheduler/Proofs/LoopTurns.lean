import EmuScheduler.Proofs.Run

/-!
# The loop's next step

`Loop` says what steps the loop can make. It has little choice: the times that it reads are given
from outside, and a burst can be cut off. `loopTurn` is the step that it makes where the clock
stands still and nothing is cut off. It is a step of `Loop` wherever the loop is not at its end
(`loop_turn`), so a loop that is awake is never stuck, and what it comes to by itself can be
computed.

A tick is a finite path. Where bursts are single steps, every turn brings the loop closer to the
beginning of the next tick, and once it was told to stop, closer to its end (`rank_turn`).
-/

namespace EmuScheduler

open Scheduler

variable {σ : Type} {e : Engine σ} {s : Scheduler σ} {p : Point}

/-- The outcome of a loop that makes no further step. -/
def Point.end? : Point → Option RunEnd
  | .released none => some .stopped
  | .released (some error) => some (.failed error)
  | .broken => some .panicked
  | _ => none

/-- It is where a run ends that has this outcome. -/
theorem Point.eq_of_end? {how : RunEnd} (h : p.end? = some how) :
    p = (Progress.ended how).point := by
  unfold end? at h
  split at h
  · cases h
    rfl
  · cases h
    rfl
  · cases h
    rfl
  · exact absurd h nofun

/-- There the loop has no step. -/
theorem end?_of_loop {p' : Point} {s' : Scheduler σ} (hl : Loop e p s p' s') : p.end? = none := by
  cases hl <;> rfl

variable (e) in
/-- **The next step of the loop**, which stays where it is at its end. -/
def loopTurn : Point → Scheduler σ → Point × Scheduler σ
  | .between, s =>
    if s.shared.stopping then (.stopping none, s.publish .stopping)
    else (.entry s.shared.phase, s.record .tick)
  | .preparing, s =>
    let r := (s.publish .initializing).createTree (.below s.workingDirectory)
    (.after r.1 .purging, r.2)
  | .purging, s =>
    let r := s.purgeImages e (.below s.workingDirectory)
    (.after r.1 .directing, r.2)
  | .directing, s =>
    let w := WorkingTree.below s.workingDirectory
    (.settingUp, s.order e (.setDirectories w.root w.temp))
  | .settingUp, s =>
    if e.isReady s.engine then (.checking, s)
    else
      let visit := e.setUp s.engine
      (.inSetUp visit.answer, { s.record (.call .setUp) with engine := visit.engine })
  | .inSetUp answer, s => (.after (answer.mapError .engine) .checking, s)
  | .checking, s => (.after (s.requireReady e "initialize") .engaging, s)
  | .engaging, s =>
    (.loading, ((s.withAudio e Audio.engage).record
      (.prepared (WorkingTree.below s.workingDirectory).root)).publish .idle)
  | .loading, s =>
    match s.shared.requests.rom.take.1 with
    | none => (.configuring, s)
    | some rom =>
      (.starting rom, s.modify fun h =>
        { h with requests := { h.requests with rom := s.shared.requests.rom.take.2 } })
  | .starting rom, s => (.closing rom, s.emit (.started rom))
  | .closing rom, s => (.asking rom, s.closeRom e)
  | .asking rom, s =>
    let visit := e.load s.engine s.files rom
    (.inLoad rom visit.answer, { s.record (.call (.load rom)) with engine := visit.engine })
  | .inLoad rom true, s => (.configuring, s.acceptRom e rom 0)
  | .inLoad rom false, s => (.configuring, s.rejectRom rom)
  | .configuring, s => (.applying ModeKind.all, s.record .configure)
  | .applying (k :: ks), s =>
    let r := s.applyMode e k
    (.after r.1 (.applying ks), r.2)
  | .applying [], s => (.choosing, s)
  | .choosing, s =>
    if s.romLoaded && !s.shared.paused then (.after (s.requireReady e "step") .running, s)
    else (.parking, s)
  | .running, s => (.unmuting, s.publish .running)
  | .unmuting, s => (.locking, s.withAudio e (Audio.unmute · s.shared.paused))
  | .locking, s => (.stepping 0, s.modify fun h => { h with frame := h.frame.acquire })
  | .stepping n, s =>
    let visit := e.step s.engine s.shared.frame.buffer
    (.inStep (n + 1) visit.answer.panics,
      ({ s.record (.call .step) with engine := visit.engine }.modify fun h =>
        { h with frame := { h.frame with buffer := visit.answer.buffer } }))
  | .inStep n panics, s =>
    let left := s.modify fun h => { h with frame := h.frame.release }
    if panics then (.broken, left)
    else if e.fastForwards s.engine then (.stepping n, s)
    else (.presenting n, left)
  | .presenting n, s => (.between, s.present n 0)
  | .parking, s => (.publishing (parkedPhase s.shared.paused), s)
  | .publishing phase, s => (.sleeping, s.publish phase)
  | .sleeping, s => (.between, s.modify (·.sleepUnlessWork s.romLoaded))
  | .failed error, s => (.stopping (some error), s.publish .stopping)
  | .stopping error?, s => (.emptying error?, s.modify Shared.requestStop)
  | .emptying error?, s => (.vanishing error?, s.closeRom e)
  | .vanishing error?, s => (.released error?, s.publish .stopped)
  | .broken, s => (.broken, s)
  | .released error?, s => (.released error?, s)

/-- **Before its end the loop always has a next step.** -/
theorem loop_turn (going : p.end? = none) :
    Loop e p s (loopTurn e p s).1 (loopTurn e p s).2 := by
  -- where the loop chooses, the turn decides as the loop would
  cases p with
  | between =>
    rw [loopTurn]
    split
    · next stops => exact .stop stops
    · next goes =>
      rw [Bool.not_eq_true] at goes
      unfold Point.entry
      split
      · next fresh => exact .first goes fresh
      · next known => exact .begin goes known
  | preparing => exact .create rfl
  | purging => exact .purge rfl
  | directing => exact .direct
  | settingUp =>
    rw [loopTurn]
    split
    · next ready => exact .skip ready
    · next unready => exact .setUp (by simpa using unready)
  | inSetUp => exact .setUpEnds
  | checking => exact .check
  | engaging => exact .engage
  | loading =>
    rw [loopTurn]
    split
    · next none => exact .noLoad none
    · next waits => exact .takeLoad waits
  | starting => exact .announce
  | closing => exact .close
  | asking => exact .load
  | inLoad rom accepted =>
    cases accepted with
    | true => exact .accept 0
    | false => exact .reject
  | configuring => exact .configure
  | applying ks =>
    cases ks with
    | nil => exact .configured
    | cons k ks => exact .apply rfl
  | choosing =>
    rw [loopTurn]
    split
    · next runs => exact .choose runs
    · next rests => exact .rest (by simpa using rests)
  | running => exact .run
  | unmuting => exact .unmute
  | locking => exact .lock
  | stepping => exact .step
  | inStep n panics =>
    cases panics with
    | true => exact .giveUp
    | false =>
      rw [loopTurn]
      rw [if_neg Bool.false_ne_true]
      split
      · next again => exact .again again
      · next done => exact .finish (by simpa using done)
  | presenting => exact .present 0
  | parking => exact .park
  | publishing => exact .publish
  | sleeping => exact .sleep
  | failed => exact .abort
  | stopping => exact .requestStop
  | emptying => exact .empty
  | vanishing => exact .vanish
  | broken => exact absurd going nofun
  | released error? => cases error? <;> exact absurd going nofun

/-- How many turns lie at most between a point and the end of a loop that was told to stop. -/
def Point.rank : Point → Nat
  | .released _ | .broken => 0
  | .vanishing _ => 1
  | .emptying _ => 2
  | .stopping _ => 3
  | .between | .failed _ => 4
  | .presenting _ | .sleeping => 5
  | .inStep _ _ | .publishing _ => 6
  | .stepping _ | .parking => 7
  | .locking => 8
  | .unmuting => 9
  | .running => 10
  | .choosing => 11
  | .applying ks => 12 + ks.length
  | .configuring => 17
  | .inLoad _ _ => 18
  | .asking _ => 19
  | .closing _ => 20
  | .starting _ => 21
  | .loading => 22
  | .engaging => 23
  | .checking => 24
  | .inSetUp _ => 25
  | .settingUp => 26
  | .directing => 27
  | .purging => 28
  | .preparing => 29

/-- To fail is to come closer to the end than to go on. -/
theorem Point.rank_after {r : Except SchedulerError Unit} {p q : Point} (hp : p.rank < q.rank)
    (hq : 4 < q.rank) : (after r p).rank < q.rank :=
  after_elim (motive := (·.rank < q.rank)) hp fun _ => hq

/-- **Every turn of a loop that was told to stop brings it closer to its end**, if it makes its
frames of one step each. -/
theorem rank_turn (single : ∀ g, e.fastForwards g = false) (going : p.end? = none)
    (stops : p = .between → s.shared.stopping = true) : (loopTurn e p s).1.rank < p.rank := by
  -- at most points the next one has a lower rank as it stands; the others branch
  cases p with
  | between =>
    rw [loopTurn, if_pos (stops rfl)]
    simp [Point.rank]
  | preparing | purging | checking => exact Point.rank_after (by decide) (by decide)
  | inSetUp answer => exact Point.rank_after (Nat.lt_succ_self _) (by simp [Point.rank])
  | settingUp | loading =>
    rw [loopTurn]
    split <;> simp [Point.rank]
  | inLoad rom accepted => cases accepted <;> exact Nat.lt_succ_self _
  | applying ks =>
    cases ks with
    | nil => exact Nat.lt_succ_self _
    | cons k ks => exact Point.rank_after (Nat.lt_succ_self _) (by simp [Point.rank]; omega)
  | choosing =>
    rw [loopTurn]
    split
    · exact Point.rank_after (by decide) (by decide)
    · simp [Point.rank]
  | inStep n panics =>
    rw [loopTurn, single, if_neg Bool.false_ne_true]
    cases panics <;> simp [Point.rank]
  | broken => exact absurd going nofun
  | released error? => cases error? <;> exact absurd going nofun
  | _ => exact Nat.lt_succ_self _

end EmuScheduler
