import EmuScheduler.Text.Invisible

/-!
# Text in messages

A message that repeats a text puts it between quotation marks, with an escape for each character
that would not be seen or would end the quotation.
-/

namespace EmuScheduler
namespace Escaped

/-- A number in base sixteen. -/
def hex (n : Nat) : List Char :=
  Nat.toDigits 16 n

/-- A character as a message shows it. -/
def escape (c : Char) : List Char :=
  if c = '\x00' then ['\\', '0']
  else if c = '\t' then ['\\', 't']
  else if c = '\n' then ['\\', 'n']
  else if c = '\r' then ['\\', 'r']
  else if c = '"' then ['\\', '"']
  else if c = '\\' then ['\\', '\\']
  else if isInvisible c then ['\\', 'u', '\x7b'] ++ hex c.toNat ++ ['\x7d']
  else [c]

/-- A text between quotation marks. -/
def quote (s : String) : String :=
  String.ofList ('"' :: s.toList.flatMap escape ++ ['"'])

end Escaped
end EmuScheduler
