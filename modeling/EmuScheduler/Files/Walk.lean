import EmuScheduler.Files.Tree

/-!
# Walking a path

`FileTree.resolve` follows a path through a tree to what it names. A path that names nothing yet,
in a directory that exists, leads to a `Target.vacant`: the place where it could be created.
Symbolic links are followed wherever they stand, at most `linkLimit` of them in one walk.

A separator at the end demands a directory. Where a file is to be written (`Purpose.write`), a name
with a separator after it is therefore refused, whatever stands there, be it the end of the path or
of a link that the path leads to.
-/

namespace EmuScheduler

/-- Where a path leads. -/
inductive Target where
  /-- To a directory or a regular file that exists. -/
  | existing (location : Location) (node : Node)
  /-- To nothing yet, under this name in a directory that exists. -/
  | vacant (directory : Location) (name : Name)
  deriving DecidableEq, Repr

/-- What a path is followed for. -/
inductive Purpose where
  /-- To see what is there. -/
  | look
  /-- To write a file there. -/
  | write
  deriving DecidableEq, Repr

namespace FileTree

/-- How many symbolic links one walk may follow. -/
def linkLimit : Nat := 40

/-- The longest name of an entry, in bytes. -/
def nameLimit : Nat := 255

/-- The longest path, in bytes. -/
def pathLimit : Nat := 4095

/-- The location that a path starts from, when it is read in the directory at `l`. -/
def origin (l : Location) (p : Path) : Location :=
  if p.isAbsolute then [] else l

/-- The walk from the directory at a location; `follow` goes on after a symbolic link. -/
def walkWith (t : FileTree) (purpose : Purpose)
    (follow : Location → List Component → Except Cause Target) :
    Location → List Component → Except Cause Target
  | l, [] => .ok (.existing l .directory)
  | l, .here :: rest | l, .finalSlash :: rest => walkWith t purpose follow l rest
  | l, .up :: rest => walkWith t purpose follow l.tail rest
  | l, .name n :: rest =>
    if purpose = .write ∧ rest = [.finalSlash] then .error .isADirectory
    else if n.length > nameLimit then .error .nameTooLong
    else
      match t.node? (n :: l) with
      | none => if rest.isEmpty then .ok (.vacant l n) else .error .notFound
      | some .directory => walkWith t purpose follow (n :: l) rest
      | some (.file data) =>
        if rest.isEmpty then .ok (.existing (n :: l) (.file data)) else .error .notADirectory
      | some (.link target) => follow (origin l target) (target.components ++ rest)

/-- The walk that may follow so many links. -/
def walk (t : FileTree) (purpose : Purpose) :
    Nat → Location → List Component → Except Cause Target
  | 0 => walkWith t purpose fun _ _ => .error .filesystemLoop
  | links + 1 => walkWith t purpose (walk t purpose links)

/-- What no walk can begin with: a NUL, no byte at all, or too many. -/
def refusal? (p : Path) : Option Cause :=
  if p.bytes.contains 0 then some .nulInPath
  else if p.isEmpty then some .notFound
  else if p.bytes.length > pathLimit then some .nameTooLong
  else none

/-- Where a path leads that is followed for a purpose, links followed to the end. -/
def resolveFor (t : FileTree) (purpose : Purpose) (p : Path) : Except Cause Target :=
  match refusal? p with
  | some c => .error c
  | none => t.walk purpose linkLimit (origin t.workingDirectory p) p.components

/-- Where a path leads, links followed to the end. -/
def resolve (t : FileTree) (p : Path) : Except Cause Target :=
  t.resolveFor .look p

/-- The directory that the last step of a path is taken in, and that step; `none` for the root. -/
def resolveParent (t : FileTree) (p : Path) : Except Cause (Option (Location × Component)) :=
  match refusal? p with
  | some c => .error c
  | none =>
    match p.steps.reverse with
    | [] => .ok none
    | last :: before =>
      match t.walk .look linkLimit (origin t.workingDirectory p) before.reverse with
      | .ok (.existing l .directory) => .ok (some (l, last))
      | .ok (.existing _ _) => .error .notADirectory
      | .ok (.vacant _ _) => .error .notFound
      | .error c => .error c

/-- Whether a path leads to a regular file. -/
def isFile (t : FileTree) (p : Path) : Bool :=
  match t.resolve p with
  | .ok (.existing _ (.file _)) => true
  | _ => false

/-- Whether a path leads to a directory. -/
def isDirectory (t : FileTree) (p : Path) : Bool :=
  match t.resolve p with
  | .ok (.existing _ .directory) => true
  | _ => false

/-- Whether a path leads to something that exists. -/
def pathExists (t : FileTree) (p : Path) : Bool :=
  match t.resolve p with
  | .ok (.existing _ _) => true
  | _ => false

end FileTree
end EmuScheduler
