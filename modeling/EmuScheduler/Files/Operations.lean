import EmuScheduler.Files.Walk

/-!
# Operations on file trees

Reading, listing, creating and removing. An operation that changes the tree gives back the changed
tree, or the cause of its failure and no tree; `createDirectories`, which takes several steps,
gives back the tree as the steps that succeeded left it, whether or not it succeeds as a whole.
What the entries forbid comes before what the file system refuses: only an access that the entries
would allow is refused.
-/

namespace EmuScheduler
namespace FileTree

/-- The bytes of the file that a path leads to. -/
def readBytes (t : FileTree) (p : Path) : Except Cause (List UInt8) :=
  match t.resolve p with
  | .ok (.existing _ (.file data)) => .ok data
  | .ok (.existing _ _) => .error .isADirectory
  | .ok (.vacant _ _) => .error .notFound
  | .error c => .error c

/-- The text of the file that a path leads to. -/
def readText (t : FileTree) (p : Path) : Except Cause (List Char) :=
  match t.readBytes p with
  | .ok data =>
    match Utf8.decode data with
    | some cs => .ok cs
    | none => .error .invalidText
  | .error c => .error c

/-- The listing of the directory that a path leads to. -/
def list (t : FileTree) (p : Path) : Except Cause (List (Except Cause Name)) :=
  match t.resolve p with
  | .ok (.existing l .directory) => t.permit .list l (t.listing l)
  | .ok (.existing _ _) => .error .notADirectory
  | .ok (.vacant _ _) => .error .notFound
  | .error c => .error c

/-- Replaces or creates the file that a path leads to. -/
def writeFile (t : FileTree) (p : Path) (data : List UInt8) : Except Cause FileTree :=
  match t.resolveFor .write p with
  | .ok (.existing l (.file _)) => .ok (t.put l (.file data))
  | .ok (.existing _ _) => .error .isADirectory
  | .ok (.vacant l n) => t.permit .create (n :: l) (t.put (n :: l) (.file data))
  | .error c => .error c

/-- Puts a new node where nothing stands. A link in that place counts as something, wherever it
leads. -/
def createNode (t : FileTree) (p : Path) (node : Node) : Except Cause FileTree :=
  match t.resolveParent p with
  | .ok (some (l, .name n)) =>
    if n.length > nameLimit then .error .nameTooLong
    else if (t.node? (n :: l)).isSome then .error .alreadyExists
    else t.permit .create (n :: l) (t.put (n :: l) node)
  | .ok _ => .error .alreadyExists
  | .error c => .error c

/-- Creates one directory. -/
def createDirectory (t : FileTree) (p : Path) : Except Cause FileTree :=
  t.createNode p .directory

/-- Creates the first of the paths, after those behind it where they are missing. A step that fails
is forgiven if its path leads to a directory all the same. -/
def createFrom (t : FileTree) : List Path → Except Cause Unit × FileTree
  | [] => (.ok (), t)
  | p :: above =>
    if p.isEmpty then (.ok (), t)
    else
      match t.createDirectory p with
      | .ok t' => (.ok (), t')
      | .error .notFound =>
        match createFrom t above with
        | (.error c, t') => (.error c, t')
        | (.ok _, t') =>
          match t'.createDirectory p with
          | .ok t'' => (.ok (), t'')
          | .error c => (if t'.isDirectory p then .ok () else .error c, t')
      | .error c => (if t.isDirectory p then .ok () else .error c, t)

/-- Creates a directory and those above it that are missing. -/
def createDirectories (t : FileTree) (p : Path) : Except Cause Unit × FileTree :=
  t.createFrom (p :: p.above)

/-- Removes the regular file or the link at a path; a link is not followed. -/
def removeFile (t : FileTree) (p : Path) : Except Cause FileTree :=
  match t.resolveParent p with
  | .ok (some (l, .name n)) =>
    if n.length > nameLimit then .error .nameTooLong
    else
      match t.node? (n :: l) with
      | none => .error .notFound
      | some .directory => .error .isADirectory
      | some _ =>
        if p.endsInSlash then .error .notADirectory
        else t.permit .remove (n :: l) (t.erase (n :: l))
  | .ok _ => .error .isADirectory
  | .error c => .error c

end FileTree
end EmuScheduler
