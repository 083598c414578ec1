/-!
# Frame memory

The picture of both screens, one pixel after the other, the rows of the top screen before those of
the bottom screen.
-/

namespace EmuScheduler

/-- The width of a screen in pixels. -/
def screenWidth : Nat := 256

/-- The height of a screen in pixels. -/
def screenHeight : Nat := 192

/-- The number of pixels of one screen. -/
def screenSize : Nat := screenWidth * screenHeight

/-- The number of pixels of both screens. -/
def frameSize : Nat := 2 * screenSize

/-- The pixels of both screens, eight bits each of alpha, red, green and blue. -/
structure FrameBuffer where
  pixels : Vector UInt32 frameSize
  deriving DecidableEq, Repr

namespace FrameBuffer

/-- A buffer whose pixels are all `color`. -/
def filled (color : UInt32) : FrameBuffer :=
  ⟨Vector.replicate frameSize color⟩

/-- A buffer that nothing was drawn into. -/
def blank : FrameBuffer :=
  filled 0

instance : Inhabited FrameBuffer := ⟨blank⟩

/-- The pixel at a position. -/
def get? (f : FrameBuffer) (i : Nat) : Option UInt32 :=
  f.pixels[i]?

/-- The buffer with another pixel at a position, if there is such a position. -/
def write? (f : FrameBuffer) (i : Nat) (color : UInt32) : Option FrameBuffer :=
  if h : i < frameSize then some ⟨f.pixels.set i color⟩ else none

/-- The pixels of the top screen. -/
def topScreen (f : FrameBuffer) : List UInt32 :=
  f.pixels.toList.take screenSize

/-- The pixels of the bottom screen. -/
def bottomScreen (f : FrameBuffer) : List UInt32 :=
  f.pixels.toList.drop screenSize

/-- A number that tells buffers apart: each pixel in turn is mixed in by exclusive or and a
multiplication modulo 2^64. -/
def digest (f : FrameBuffer) : UInt64 :=
  f.pixels.foldl (fun h pixel => (h ^^^ pixel.toUInt64) * 0x100000001B3) 0xCBF29CE484222325

end FrameBuffer
end EmuScheduler
