import EmuScheduler.Engine.Basic

/-!
# Scripted engines

An engine whose behaviour is laid down in a `Script`: what it answers, how long it fast-forwards,
when it gives up, and what it does to the scheduler in the middle of its calls. The script may be
revised at any time, also by its own hooks. Each step fills the frame with the number of the step.
-/

namespace EmuScheduler

/-- A call in the middle of which a hook runs. -/
inductive HookMoment where
  | setUp
  | load
  | step
  deriving DecidableEq, Repr

mutual

/-- What is done in the middle of the call of that number, counted from one. -/
inductive Hook where
  | on (moment : HookMoment) (count : Nat) (deeds : List Deed)

/-- One thing that a hook does. -/
inductive Deed where
  | control (c : Control)
  | revise (revisions : List Revision)

/-- A change of a script. -/
inductive Revision where
  | accept (value : Bool)
  | reject (roms : List Path)
  | setUpSucceeds (value : Bool)
  | setUpError (text : Option String)
  | ready (value : Bool)
  | burst (length : Nat)
  | panicAtStep (count : Option Nat)
  | hooks (value : List Hook)

end

/-- What a scripted engine does. -/
structure Script where
  /-- Whether ROMs are accepted, those in `rejected` apart. -/
  accept : Bool := true
  rejected : List Path := []
  /-- Whether setting up leaves the engine ready. -/
  setUpSucceeds : Bool := true
  setUpError? : Option String := none
  /-- The steps of the next burst of fast-forwarding. -/
  burst : Nat := 0
  /-- The step in which the engine gives up. -/
  panicAtStep? : Option Nat := none
  hooks : List Hook := []

/-- The state of a scripted engine. -/
structure ScriptedEngine where
  script : Script := {}
  extension : String := "nds"
  ready : Bool := false
  setUps : Nat := 0
  loads : Nat := 0
  steps : Nat := 0
  /-- The steps left in the current burst. -/
  left : Nat := 0

namespace ScriptedEngine

/-- Applies one change. -/
def revise (s : ScriptedEngine) : Revision → ScriptedEngine
  | .accept value => { s with script := { s.script with accept := value } }
  | .reject roms => { s with script := { s.script with rejected := roms } }
  | .setUpSucceeds value => { s with script := { s.script with setUpSucceeds := value } }
  | .setUpError text => { s with script := { s.script with setUpError? := text } }
  | .ready value => { s with ready := value }
  | .burst length => { s with script := { s.script with burst := length } }
  | .panicAtStep count => { s with script := { s.script with panicAtStep? := count } }
  | .hooks value => { s with script := { s.script with hooks := value } }

/-- What the hooks of a call do. -/
def deeds (s : ScriptedEngine) (moment : HookMoment) (count : Nat) : List Deed :=
  s.script.hooks.flatMap fun
    | .on m n ds => if m = moment ∧ n = count then ds else []

/-- The controls among the deeds. -/
def controls (ds : List Deed) : List Control :=
  ds.filterMap fun
    | .control c => some c
    | .revise _ => none

/-- The engine after the revisions among the deeds. -/
def revised (s : ScriptedEngine) (ds : List Deed) : ScriptedEngine :=
  ds.foldl (fun s d =>
    match d with
    | .control _ => s
    | .revise rs => rs.foldl revise s) s

/-- Sets up. The script as its hooks leave it decides the outcome. -/
def setUp (s : ScriptedEngine) : Visit ScriptedEngine (Except EngineError Unit) :=
  let ds := s.deeds .setUp (s.setUps + 1)
  let s := { s with setUps := s.setUps + 1 }.revised ds
  match s.script.setUpError? with
  | some text => ⟨s, controls ds, .error (.setupFailed text)⟩
  | none => ⟨{ s with ready := s.script.setUpSucceeds }, controls ds, .ok ()⟩

/-- Loads a ROM. The script as its hooks leave it decides the answer. -/
def load (s : ScriptedEngine) (rom : Path) : Visit ScriptedEngine Bool :=
  let ds := s.deeds .load (s.loads + 1)
  let s := { s with loads := s.loads + 1 }.revised ds
  ⟨s, controls ds, s.script.accept && !s.script.rejected.contains rom⟩

/-- Begins the next burst if none is left, and takes one step off it. -/
def countDown (s : ScriptedEngine) : ScriptedEngine :=
  if s.left = 0 then
    { s with left := s.script.burst - 1, script := { s.script with burst := 0 } }
  else { s with left := s.left - 1 }

/-- Makes a step. Whether it is the one to give up in is settled before the hooks run. -/
def step (s : ScriptedEngine) : Visit ScriptedEngine Step :=
  let count := s.steps + 1
  let ds := s.deeds .step count
  ⟨{ s.countDown with steps := count }.revised ds, controls ds,
    { buffer := .filled (UInt32.ofNat count), panics := s.script.panicAtStep? = some count }⟩

/-- The behaviour of scripted engines. Orders make no difference to them. -/
def engine : Engine ScriptedEngine where
  isReady := ready
  imageExtension := extension
  fastForwards s := s.left > 0
  obey s _ := s
  setUp := setUp
  load s _ rom := s.load rom
  step s _ := s.step

end ScriptedEngine
end EmuScheduler
