import EmuScheduler.Locations
import EmuScheduler.Settings

/-!
# Configurations

The settings that outlive a run: the working directory, the emulation modes and the logging level.
-/

namespace EmuScheduler

/-- The settings of the application. -/
structure Config where
  workingDirectory : Path
  modes : Modes := {}
  logLevel : LogLevel := .info
  deriving DecidableEq, Repr, Inhabited

namespace Config

/-- The settings of someone who has chosen none. -/
def default (e : Environment) : Config where
  workingDirectory := e.defaultWorkingDirectory

/-- The working directory to use: an empty one stands for the default. -/
def effectiveWorkingDirectory (c : Config) (e : Environment) : Path :=
  if c.workingDirectory.isEmpty then e.defaultWorkingDirectory else c.workingDirectory

/-- The configuration with another value for one of the modes. -/
def change (c : Config) (m : ModeChange) : Config :=
  { c with modes := c.modes.set m }

end Config
end EmuScheduler
