import EmuScheduler.Text.Utf8

/-!
# Paths

A path is a sequence of bytes; `/` separates its pieces. Joining, the directories above a path
(`levels`, `parent`) and the extension of a file name are questions about the text of the path.
What a path leads to is a question about a file tree, which reads it as a list of `Component`s.
-/

namespace EmuScheduler

/-- A name in a directory: bytes without `/` and without NUL. -/
abbrev Name := List UInt8

/-- A path as it is written. -/
structure Path where
  bytes : List UInt8
  deriving DecidableEq, Repr, Inhabited

/-- One step of the walk along a path. -/
inductive Component where
  /-- Stay in the directory reached so far. -/
  | here
  /-- The separator that ends a path: what was reached must be a directory. -/
  | finalSlash
  /-- Go to the directory above. -/
  | up
  /-- Go to the entry of that name. -/
  | name (n : Name)
  deriving DecidableEq, Repr

namespace Path

/-- The separator. -/
def slash : UInt8 := 0x2F

/-- The full stop: alone a piece that stays in place, in a name the mark of the extension. -/
def dot : UInt8 := 0x2E

/-- The path that a text spells. -/
def ofString (s : String) : Path :=
  ⟨Utf8.encode s.toList⟩

/-- The text of a path whose bytes are UTF-8. -/
def text? (p : Path) : Option String :=
  (Utf8.decode p.bytes).map String.ofList

/-- The text shown to a reader: malformed bytes appear as U+FFFD. -/
def display (p : Path) : String :=
  String.ofList (Utf8.decodeLossy p.bytes)

/-- A path without a byte. -/
def isEmpty (p : Path) : Bool :=
  p.bytes.isEmpty

/-- A path that starts at the root of the tree. -/
def isAbsolute (p : Path) : Bool :=
  p.bytes.head? == some slash

/-- A path that ends in the separator. -/
def endsInSlash (p : Path) : Bool :=
  p.bytes.getLast? == some slash

/-- `q` below `p`: an absolute `q` stands for itself, and no second separator is put after one. -/
def join (p q : Path) : Path :=
  if q.isAbsolute then q
  else if p.isEmpty || p.endsInSlash then ⟨p.bytes ++ q.bytes⟩
  else ⟨p.bytes ++ slash :: q.bytes⟩

/-- The pieces between the separators, empty ones included. -/
def pieces (bs : List UInt8) : List (List UInt8) :=
  bs.foldr (fun b ps => if b = slash then [] :: ps else (b :: ps.headD []) :: ps.tail) [[]]

/-- The path written with these pieces. -/
def ofPieces (ps : List (List UInt8)) : Path :=
  ⟨[slash].intercalate ps⟩

/-- The step that a piece asks for; an empty piece asks for none. -/
def component? (piece : List UInt8) : Option Component :=
  if piece = [] then none
  else if piece = [dot] then some .here
  else if piece = [dot, dot] then some .up
  else some (.name piece)

/-- The steps along a path without regard to separators at its end. -/
def steps (p : Path) : List Component :=
  (pieces p.bytes).filterMap component?

/-- The steps along a path, with a last one for separators at its end. -/
def components (p : Path) : List Component :=
  if p.endsInSlash then p.steps ++ [.finalSlash] else p.steps

/-- The path that ends at each piece in turn, the pieces given from last to first; the last level
is `top`. Empty pieces and `.` beyond the first piece add no level. -/
def levelsFrom (top : Path) : List (List UInt8) → List Path
  | [] => [top]
  | piece :: before =>
    if piece = [] ∨ (piece = [dot] ∧ before ≠ []) then levelsFrom top before
    else ofPieces (piece :: before).reverse :: levelsFrom top before

/-- A path without what its end adds nothing to, and every path above it, nearest first. The
topmost is the root for an absolute path and the empty path for a relative one. -/
def levels (p : Path) : List Path :=
  levelsFrom (if p.isAbsolute then ⟨[slash]⟩ else ⟨[]⟩) (pieces p.bytes).reverse

/-- The paths above `p`, nearest first. -/
def above (p : Path) : List Path :=
  p.levels.tail

/-- The path above `p`, if there is one. -/
def parent? (p : Path) : Option Path :=
  p.above.head?

end Path

/-- What stands after the last full stop of a name, if something stands before it. -/
def Name.extension? (n : Name) : Option (List UInt8) :=
  let after := (n.reverse.takeWhile (· != Path.dot)).reverse
  if after.length + 1 < n.length then some after else none

/-- An ASCII capital as its small letter; every other byte as it is. -/
def lowerAscii (b : UInt8) : UInt8 :=
  if 0x41 ≤ b ∧ b ≤ 0x5A then b + 0x20 else b

/-- Whether a name has the given extension, without regard to the case of ASCII letters. -/
def Name.hasExtension (n : Name) (extension : String) : Bool :=
  match n.extension? with
  | some e => e.map lowerAscii == (Utf8.encode extension.toList).map lowerAscii
  | none => false

end EmuScheduler
