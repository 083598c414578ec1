import EmuScheduler.Frame.Buffer

/-!
# The frame lock

The frame buffer behind a lock that counts how often it was taken, and a flag that says whether a
finished frame waits for someone to show it. The lock cannot be taken twice.
-/

namespace EmuScheduler

/-- The frame buffer and its lock. -/
structure FrameLock where
  buffer : FrameBuffer := .blank
  held : Bool := false
  /-- How often the lock was taken, modulo 2^64. -/
  acquisitions : UInt64 := 0
  /-- Whether a finished frame was not fetched yet. -/
  ready : Bool := false
  deriving DecidableEq, Repr, Inhabited

namespace FrameLock

/-- Takes the lock, which nobody holds. -/
def acquire (l : FrameLock) : FrameLock :=
  { l with held := true, acquisitions := l.acquisitions + 1 }

/-- Takes the lock, unless it is held. -/
def acquire? (l : FrameLock) : Option FrameLock :=
  if l.held then none else some l.acquire

/-- Gives the lock back. -/
def release (l : FrameLock) : FrameLock :=
  { l with held := false }

/-- Takes the lock and gives it back, unless it is held. -/
def peek (l : FrameLock) : FrameLock :=
  match l.acquire? with
  | some taken => taken.release
  | none => l

/-- Says that the buffer holds a finished frame. -/
def markReady (l : FrameLock) : FrameLock :=
  { l with ready := true }

/-- Whether a finished frame waited, and the lock without that mark. -/
def takeReady (l : FrameLock) : Bool × FrameLock :=
  (l.ready, { l with ready := false })

/-- A look counts if nobody holds the lock, and is over when it is known to have succeeded. -/
theorem peek_eq (l : FrameLock) :
    l.peek = { l with acquisitions := l.acquisitions + if l.held then 0 else 1 } := by
  obtain ⟨buffer, held, acquisitions, ready⟩ := l
  cases held <;> simp [peek, acquire?, acquire, release]

end FrameLock
end EmuScheduler
