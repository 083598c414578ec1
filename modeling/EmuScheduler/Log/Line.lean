import EmuScheduler.Settings
import EmuScheduler.Text.Terminal

/-!
# Log lines

What a line of the log holds, and the text it is shown with.
-/

namespace EmuScheduler

/-- One line of the log. -/
structure LogLine where
  level : LogLevel
  /-- The part of the application that the line comes from. -/
  target : String
  text : String
  deriving DecidableEq, Repr

/-- The level as a log line shows it. -/
def LogLevel.label (l : LogLevel) : String :=
  l.filterText.toUpper

/-- The text of the line as it is shown, without characters that would steer a terminal. -/
def LogLine.visibleText (l : LogLine) : String :=
  Terminal.visible l.text

end EmuScheduler
