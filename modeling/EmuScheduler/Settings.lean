/-!
# Settings

The emulation modes, the logging level and their names. Each of these types has finitely many
values with fixed names, in a fixed order (`Named`); the order is the one in which a message lists
them.
-/

namespace EmuScheduler

/-- A type whose values have names. -/
class Named (α : Type) where
  /-- Every value, in the order of listing. -/
  values : List α
  name : α → String

/-- The value of that name, in exactly this spelling. -/
def Named.ofName? {α : Type} [Named α] (s : String) : Option α :=
  (Named.values (α := α)).find? fun a => Named.name a == s

/-- How 3D graphics are drawn. -/
inductive Renderer where
  | null
  | softRasterizer
  | openGl
  deriving DecidableEq, Repr, Inhabited

instance : Named Renderer where
  values := [.null, .softRasterizer, .openGl]
  name
    | .null => "Null"
    | .softRasterizer => "SoftRasterizer"
    | .openGl => "OpenGl"

/-- What plays sound. -/
inductive SoundCore where
  | null
  | native
  deriving DecidableEq, Repr, Inhabited

instance : Named SoundCore where
  values := [.null, .native]
  name
    | .null => "Null"
    | .native => "Native"

/-- How the processors are emulated. -/
inductive CpuMode where
  | interpreter
  | jit
  deriving DecidableEq, Repr, Inhabited

instance : Named CpuMode where
  values := [.interpreter, .jit]
  name
    | .interpreter => "Interpreter"
    | .jit => "Jit"

/-- How sound keeps step with emulation. -/
inductive SoundSync where
  | dualSynchAsynch
  | synchronous
  deriving DecidableEq, Repr, Inhabited

instance : Named SoundSync where
  values := [.dualSynchAsynch, .synchronous]
  name
    | .dualSynchAsynch => "DualSynchAsynch"
    | .synchronous => "Synchronous"

/-- How much is logged; every level includes those before it. -/
inductive LogLevel where
  | off
  | error
  | warn
  | info
  | debug
  | trace
  deriving DecidableEq, Repr, Inhabited

instance : Named LogLevel where
  values := [.off, .error, .warn, .info, .debug, .trace]
  name
    | .off => "Off"
    | .error => "Error"
    | .warn => "Warn"
    | .info => "Info"
    | .debug => "Debug"
    | .trace => "Trace"

/-- How many levels a level includes. -/
def LogLevel.rank : LogLevel → Nat
  | .off => 0
  | .error => 1
  | .warn => 2
  | .info => 3
  | .debug => 4
  | .trace => 5

/-- The level in the spelling of a log filter. -/
def LogLevel.filterText : LogLevel → String
  | .off => "off"
  | .error => "error"
  | .warn => "warn"
  | .info => "info"
  | .debug => "debug"
  | .trace => "trace"

/-- The four emulation modes. -/
structure Modes where
  renderer : Renderer := .softRasterizer
  soundCore : SoundCore := .native
  cpu : CpuMode := .jit
  soundSync : SoundSync := .dualSynchAsynch
  deriving DecidableEq, Repr, Inhabited

/-- Which of the modes. -/
inductive ModeKind where
  | renderer
  | soundCore
  | cpu
  | soundSync
  deriving DecidableEq, Repr

/-- The modes in the order in which changes are applied. -/
def ModeKind.all : List ModeKind :=
  [.renderer, .soundCore, .cpu, .soundSync]

/-- A new value for one of the modes. -/
inductive ModeChange where
  | renderer (value : Renderer)
  | soundCore (value : SoundCore)
  | cpu (value : CpuMode)
  | soundSync (value : SoundSync)
  deriving DecidableEq, Repr

namespace ModeChange

/-- The mode that a change is about. -/
def kind : ModeChange → ModeKind
  | .renderer _ => .renderer
  | .soundCore _ => .soundCore
  | .cpu _ => .cpu
  | .soundSync _ => .soundSync

/-- The name of the new value. -/
def valueName : ModeChange → String
  | .renderer v => Named.name v
  | .soundCore v => Named.name v
  | .cpu v => Named.name v
  | .soundSync v => Named.name v

end ModeChange

/-- The new value that makes a mode what it is in `m`. -/
def Modes.get (m : Modes) : ModeKind → ModeChange
  | .renderer => .renderer m.renderer
  | .soundCore => .soundCore m.soundCore
  | .cpu => .cpu m.cpu
  | .soundSync => .soundSync m.soundSync

/-- The modes with one of them changed. -/
def Modes.set (m : Modes) : ModeChange → Modes
  | .renderer v => { m with renderer := v }
  | .soundCore v => { m with soundCore := v }
  | .cpu v => { m with cpu := v }
  | .soundSync v => { m with soundSync := v }

/-- The mode of a kind is of that kind. -/
@[simp] theorem kind_get (m : Modes) (k : ModeKind) : (m.get k).kind = k := by
  cases k <;> rfl

/-- A change replaces the mode of its kind and no other. -/
theorem get_set (m : Modes) (c : ModeChange) (k : ModeKind) :
    (m.set c).get k = if k = c.kind then c else m.get k := by
  cases c <;> cases k <;> rfl

end EmuScheduler
