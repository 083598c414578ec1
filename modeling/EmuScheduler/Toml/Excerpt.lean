import EmuScheduler.Text.Utf8
import EmuScheduler.Toml.Fault

/-!
# Excerpts

The lines of a message that show a place in a text: the number of its line and column, the line
itself, and a mark under the place.
-/

namespace EmuScheduler
namespace Toml

/-- A piece of a text, with what stands before and after it. -/
structure Excerpt where
  before : List Char
  piece : List Char
  after : List Char
  deriving DecidableEq, Repr

namespace Excerpt

/-- The piece of a text at a place. -/
def ofSpan (text : List Char) (place : Span) : Excerpt :=
  let rest := text.drop (text.length - place.start)
  let size := place.start - place.stop
  ⟨text.take (text.length - place.start), rest.take size, rest.drop size⟩

/-- The length of characters in bytes. -/
def byteLength (cs : List Char) : Nat :=
  (Utf8.encode cs).length

/-- What stands before the last character that is at the place or before it. At the end of the text
that is its last character. -/
def anchor (e : Excerpt) : List Char :=
  match e.piece ++ e.after with
  | [] => e.before.dropLast
  | _ => e.before

/-- The number of the line, counted from one. -/
def line (e : Excerpt) : Nat :=
  e.anchor.count '\n' + 1

/-- The characters before the line. -/
def lineStart (e : Excerpt) : Nat :=
  e.anchor.length - (e.anchor.reverse.takeWhile (· ≠ '\n')).length

/-- The characters of the line before the piece. At the end of the text a line break belongs to the
line that it ends. -/
def indent (e : Excerpt) : List Char :=
  e.before.drop e.lineStart

/-- The line that the piece begins in. -/
def content (e : Excerpt) : List Char :=
  ((e.before ++ e.piece ++ e.after).drop e.lineStart).takeWhile (· ≠ '\n')

/-- The column, counted from zero: in characters, or in bytes if the piece does not begin in
ASCII. -/
def column (e : Excerpt) : Nat :=
  match e.piece ++ e.after with
  | [] => e.indent.length
  | c :: _ => if c.toNat < 0x80 then e.indent.length else byteLength e.indent

/-- The length of the mark: that of the piece in bytes, but no more than the line has after the
column. -/
def width (e : Excerpt) : Nat :=
  max 1 (min (byteLength e.piece) (byteLength e.content - e.column))

/-- So many spaces. -/
def spaces (n : Nat) : String :=
  String.ofList (List.replicate n ' ')

/-- The lines of a message about the piece. -/
def render (e : Excerpt) (message : String) : String :=
  let number := toString e.line
  let gutter := spaces (number.length + 1) ++ "|"
  "TOML parse error at line " ++ number ++ ", column " ++ toString (e.column + 1) ++ "\n"
    ++ gutter ++ "\n"
    ++ number ++ " | " ++ String.ofList e.content ++ "\n"
    ++ gutter ++ spaces (e.column + 1) ++ String.ofList (List.replicate e.width '^') ++ "\n"
    ++ message ++ "\n"

end Excerpt
end Toml
end EmuScheduler
