import EmuScheduler.Files.Operations

/-!
# The working tree

The directories in which a scheduler keeps its files: below a root, one directory for extracted ROM
images, which are purged when the scheduler starts, and one each for save states, battery saves and
cheat lists.
-/

namespace EmuScheduler

/-- The root and the directories below it. -/
structure WorkingTree where
  root : Path
  temp : Path
  states : Path
  battery : Path
  cheats : Path
  deriving DecidableEq, Repr

namespace WorkingTree

/-- The working tree below a root. -/
def below (root : Path) : WorkingTree where
  root := root
  temp := root.join (.ofString "Temp")
  states := root.join (.ofString "States")
  battery := root.join (.ofString "Battery")
  cheats := root.join (.ofString "Cheats")

/-- The directories in the order of their creation. -/
def directories (w : WorkingTree) : List Path :=
  [w.root, w.temp, w.states, w.battery, w.cheats]

/-- Creates directories one after the other, up to the first failure. -/
def createEach (t : FileTree) : List Path → Except Cause Unit × FileTree
  | [] => (.ok (), t)
  | p :: rest =>
    match t.createDirectories p with
    | (.ok _, t') => createEach t' rest
    | (.error c, t') => (.error c, t')

/-- Creates what is missing of the working tree. -/
def create (w : WorkingTree) (t : FileTree) : Except Cause Unit × FileTree :=
  createEach t w.directories

/-- Whether an entry of a directory is a ROM image to purge: its name has the extension, and it is
a regular file or a link that leads to one. -/
def isStale (t : FileTree) (directory : Path) (extension : String) (n : Name) : Bool :=
  t.isFile (directory.join ⟨n⟩) && n.hasExtension extension

/-- Removes those of the listed entries of a directory that are ROM images to purge, one after the
other, and gives their paths. Each entry is judged in the tree that the removals before it left, so
a link to an image that is already gone stays. The first failure, of the listing or of a removal, is
the end; what was removed before stays removed. -/
def purgeListing (t : FileTree) (directory : Path) (extension : String) :
    List (Except Cause Name) → Except Cause (List Path) × FileTree
  | [] => (.ok [], t)
  | .error c :: _ => (.error c, t)
  | .ok n :: rest =>
    let p := directory.join ⟨n⟩
    if isStale t directory extension n then
      match t.removeFile p with
      | .error c => (.error c, t)
      | .ok t' =>
        match purgeListing t' directory extension rest with
        | (.ok removed, t'') => (.ok (p :: removed), t'')
        | (.error c, t'') => (.error c, t'')
    else purgeListing t directory extension rest

/-- Removes the ROM images that an earlier run left behind, and gives their paths. -/
def purge (w : WorkingTree) (t : FileTree) (extension : String) :
    Except Cause (List Path) × FileTree :=
  match t.list w.temp with
  | .ok entries => purgeListing t w.temp extension entries
  | .error c => (.error c, t)

end WorkingTree
end EmuScheduler
