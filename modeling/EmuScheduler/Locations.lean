import EmuScheduler.Path

/-!
# Locations

Where the configuration file and the default working directory are, by the environment of the
process. A directory that the environment names counts only if it is absolute; otherwise the usual
place below the home directory takes its part, and without a home directory the current one.
-/

namespace EmuScheduler

/-- What the environment says about directories. -/
structure Environment where
  home : Option Path := none
  configHome : Option Path := none
  dataHome : Option Path := none
  /-- The home directory that the user's account names. -/
  accountHome : Option Path := none
  deriving DecidableEq, Repr, Inhabited

namespace Environment

/-- The name of the application's directories. -/
def applicationName : Path := .ofString "nds-emu"

/-- The home directory. -/
def homeDirectory? (e : Environment) : Option Path :=
  (e.home.filter fun p => !p.isEmpty).or e.accountHome

/-- A directory that the environment names, or else one below the home directory. -/
def directory? (e : Environment) (named : Option Path) (belowHome : String) : Option Path :=
  (named.filter Path.isAbsolute).or (e.homeDirectory?.map (·.join (.ofString belowHome)))

/-- The application's directory in a directory, or in the current one. -/
def application (directory : Option Path) : Path :=
  (directory.getD (.ofString ".")).join applicationName

/-- The working directory of a configuration that names none. -/
def defaultWorkingDirectory (e : Environment) : Path :=
  application (e.directory? e.dataHome ".local/share")

/-- The configuration file. -/
def configFile (e : Environment) : Path :=
  (application (e.directory? e.configHome ".config")).join (.ofString "config.toml")

end Environment
end EmuScheduler
