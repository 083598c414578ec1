/-!
# Counting frames

`FrameCounter` is the number of frames emulated so far, modulo 2^64, with the last measured rate. A
`RateWindow` measures that rate: it starts at a moment and a number of frames, and once it spans a
second, it gives the frames per second since its start and begins anew. Moments are counted in
nanoseconds; a moment before the start of the window counts as its start.
-/

namespace EmuScheduler

/-- The frames emulated so far, modulo 2^64, and the last measured rate. -/
structure FrameCounter where
  frames : UInt64 := 0
  rate : UInt32 := 0
  deriving DecidableEq, Repr, Inhabited

/-- Counts more frames. -/
def FrameCounter.advance (c : FrameCounter) (count : UInt64) : FrameCounter :=
  { c with frames := c.frames + count }

/-- The shortest span of a complete window, in nanoseconds. -/
def windowSpan : Nat := 1000000000

/-- A span of nanoseconds in seconds, as a double: the whole seconds plus the rest. -/
def seconds (nanoseconds : Nat) : Float :=
  (UInt64.ofNat (nanoseconds / 1000000000)).toFloat
    + (UInt64.ofNat (nanoseconds % 1000000000)).toFloat / 1000000000

/-- Frames per second, computed in doubles, a half rounded away from zero, at most 2^32 - 1. -/
def framesPerSecond (frames nanoseconds : Nat) : UInt32 :=
  ((UInt64.ofNat frames).toFloat / seconds nanoseconds).round.toUInt32

/-- Where the measurement of the rate started. -/
structure RateWindow where
  started : Nat
  framesAtStart : Nat
  deriving DecidableEq, Repr, Inhabited

namespace RateWindow

/-- The time that the window spans. -/
def elapsed (w : RateWindow) (now : Nat) : Nat :=
  now - w.started

/-- The frames since the start of the window. -/
def measured (w : RateWindow) (total : Nat) : Nat :=
  total - w.framesAtStart

/-- The rate, if the window is complete, and the window to go on with. -/
def sample (w : RateWindow) (now total : Nat) : Option UInt32 × RateWindow :=
  if w.elapsed now < windowSpan then (none, w)
  else (some (framesPerSecond (w.measured total) (w.elapsed now)), ⟨now, total⟩)

end RateWindow
end EmuScheduler
