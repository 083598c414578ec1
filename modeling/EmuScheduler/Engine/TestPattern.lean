import EmuScheduler.Engine.Basic
import EmuScheduler.Files.Walk

/-!
# The test pattern

An engine with no machine behind it: it accepts every file as a ROM and draws a picture that moves
to the left by one column with each step.
-/

namespace EmuScheduler

/-- The state of the engine that draws the test pattern. -/
structure TestPattern where
  ready : Bool := false
  rom? : Option Path := none
  /-- The steps since the last ROM was accepted, modulo 2^64. -/
  frames : UInt64 := 0
  audioMuted : Bool := false
  micMuted : Bool := false
  deriving DecidableEq, Repr, Inhabited

namespace TestPattern

/-- The pixel at a position after `shift` steps: red grows along the row and green from row to
row. -/
def pixel (shift i : Nat) : UInt32 :=
  let column := (i % screenWidth + shift % screenWidth) % screenWidth
  let row := i / screenWidth
  (0xFF000000 : UInt32) ||| (UInt32.ofNat column <<< 16) ||| (UInt32.ofNat (row % 256) <<< 8)

/-- The picture after `shift` steps. -/
def picture (shift : Nat) : FrameBuffer :=
  ⟨Vector.ofFn fun i => pixel shift i⟩

/-- Carries out an order. The modes make no difference to the picture. -/
def obey (s : TestPattern) : Order → TestPattern
  | .setDirectories _ _ | .setMode _ => s
  | .closeRom => { s with rom? := none }
  | .muteAudio muted => { s with audioMuted := muted }
  | .muteMic muted => { s with micMuted := muted }

/-- Loads a ROM if it is a file; the picture starts anew. -/
def load (s : TestPattern) (files : FileTree) (rom : Path) : Bool × TestPattern :=
  if files.isFile rom then (true, { s with rom? := some rom, frames := 0 }) else (false, s)

/-- Draws the next picture. -/
def step (s : TestPattern) : FrameBuffer × TestPattern :=
  (picture s.frames.toNat, { s with frames := s.frames + 1 })

/-- The engine that draws the test pattern. -/
def engine : Engine TestPattern where
  isReady := ready
  imageExtension _ := "nds"
  fastForwards _ := false
  obey := obey
  setUp s := { engine := { s with ready := true }, answer := .ok () }
  load s files rom := { engine := (s.load files rom).2, answer := (s.load files rom).1 }
  step s _ := { engine := s.step.2, answer := { buffer := s.step.1 } }

end TestPattern
end EmuScheduler
