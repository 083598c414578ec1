import EmuScheduler.Proofs.Directories

/-!
# What the creation of a working tree leaves

The creation of a working tree only adds directories, on every tree and also where it fails midway
(`AddsDirectories`): a file or a link that stands where a directory is wanted is left as it is. The
one step that changes anything, the creation of a single directory, puts it where nothing stood.

Where a directory can be reached already there is nothing to create. Its path is walked up to the
last step to a directory (`Route.cut`), so the last step meets something, and the failure that this
is (`createDirectory_of_isDirectory`) is forgiven. So a creation that succeeded can be repeated, and
changes nothing (`create_adds_directories`).
-/

namespace EmuScheduler

namespace FileTree

variable {t t' t₁ t₂ t₃ : FileTree} {p : Path}

/-- The second tree is the first one, as it is and listed as it was, and directories besides. -/
structure AddsDirectories (t t' : FileTree) : Prop extends Extends t t' where
  added {l : Location} {node : Node} :
    t.node? l = none → t'.node? l = some node → node = .directory
  listed : t.entries <+: t'.entries

theorem AddsDirectories.refl (t : FileTree) : AddsDirectories t t :=
  ⟨.refl t, fun free there => absurd (free.symm.trans there) nofun, List.prefix_rfl⟩

/-- What is new in the last tree was new in the middle one, or is new since then. -/
theorem AddsDirectories.trans (h : AddsDirectories t₁ t₂) (h' : AddsDirectories t₂ t₃) :
    AddsDirectories t₁ t₃ where
  toExtends := h.toExtends.trans h'.toExtends
  added {l node} free there := by
    -- at a location that is free in the first tree, the middle one decides who has added it
    cases found : t₂.node? l with
    | none => exact h'.added found there
    | some node' =>
      obtain rfl : node' = node := Option.some.inj ((h'.node found).symm.trans there)
      exact h.added free found
  listed := h.listed.trans h'.listed

/-- Where nothing is found nothing has to be left out. -/
theorem without_of_find?_none {l : Location} {es : List (Location × Node)}
    (free : find? l es = none) : without l es = es := by
  induction es with
  | nil => rfl
  | cons e es ih =>
    rw [find?] at free
    split at free
    · cases free
    · next other => rw [without_cons, if_neg other, ih free]

/-- What is put where nothing stood is listed last, and all else as before. -/
theorem entries_put_of_free {l : Location} (free : find? l t.entries = none) (node : Node) :
    (t.put l node).entries = t.entries ++ [(l, node)] :=
  congrArg (· ++ [(l, node)]) (without_of_find?_none free)

/-- The creation of one directory puts it where nothing stood. -/
theorem addsDirectories_of_createDirectory (created : t.createDirectory p = .ok t') :
    AddsDirectories t t' := by
  have grown : Extends t t' := extends_of_createNode created
  obtain ⟨l, n, -, -, free, rfl⟩ := createDirectory_eq_ok created
  have notRoot : n :: l ≠ [] := List.cons_ne_nil n l
  -- the only new entry is the one that was put, and it is listed last
  refine ⟨grown, fun {k node} none there => ?_, ?_⟩
  · rw [node?_put t notRoot] at there
    split at there
    · exact (Option.some.inj there).symm
    · exact absurd (none.symm.trans there) nofun
  · rw [node?_eq_find? notRoot] at free
    rw [entries_put_of_free free]
    exact List.prefix_append _ _

/-! ## Where the directory is there already -/

/-- To create a directory where one can be reached fails as something is there. -/
theorem createDirectory_of_isDirectory (found : t.isDirectory p = true) :
    t.createDirectory p = .error .alreadyExists := by
  obtain ⟨d, resolved⟩ := isDirectory_iff.1 found
  obtain ⟨es, accepted, way, few⟩ := resolve_eq_directory_iff.1 resolved
  -- the path of a directory names one, so it is not refused for its form
  rw [createDirectory, createNode, resolveParent, accepted]
  dsimp only
  cases steps : p.steps.reverse with
  | nil => rfl
  | cons last before =>
    -- the way up to the last step is walked with the links that are on it
    rw [List.reverse_eq_cons_iff.1 steps] at way
    obtain ⟨m, fs, gs, rfl, toParent, onward⟩ := way.cut (List.cons_ne_nil last [])
    rw [linksOn, List.countP_append] at few
    dsimp only
    rw [toParent.walk (Nat.le_of_add_right_le few)]
    cases last with
    | here | finalSlash | up => rfl
    | name n =>
      -- and what the last step is taken to stands there
      obtain ⟨short, -, -, ⟨there, -⟩ | ⟨_, there, -⟩ | ⟨_, there, -⟩⟩ := route_name onward <;>
        simp [Nat.not_lt.2 short, there]

/-- A directory that is there already is created without a change, because the failure is forgiven.
-/
theorem createDirectories_of_isDirectory (found : t.isDirectory p = true) :
    t.createDirectories p = (.ok (), t) := by
  rw [createDirectories, createFrom, createDirectory_of_isDirectory found]
  simp [found]

end FileTree

namespace WorkingTree

open FileTree

variable {t : FileTree} {ps : List Path}

/-- Several creations only add directories, whether they succeed or not. -/
theorem addsDirectories_createEach (t : FileTree) (ps : List Path) :
    AddsDirectories t (createEach t ps).2 :=
  createEach_keeps (fun created h => h.trans (addsDirectories_of_createDirectory created))
    (.refl t) ps

/-- Where all the directories are there already nothing happens. -/
theorem createEach_of_isDirectory (found : ∀ p ∈ ps, t.isDirectory p = true) :
    createEach t ps = (.ok (), t) := by
  induction ps with
  | nil => rfl
  | cons p ps ih =>
    obtain ⟨found, foundBelow⟩ := List.forall_mem_cons.1 found
    rw [createEach, createDirectories_of_isDirectory found]
    exact ih foundBelow

/-- **The creation of a working tree only adds directories.** Whatever tree it meets and however it
ends, everything that was there is there as it was, and what is new is a directory. If it succeeds,
the root and the four directories below it lead to directories, and to create them once more
succeeds and leaves the tree as it is. -/
theorem create_adds_directories {root : Path} (written : root.isEmpty = false) {t t' : FileTree}
    {result : Except Cause Unit} (created : (below root).create t = (result, t')) :
    AddsDirectories t t' ∧
      (result = .ok () → (∀ p ∈ (below root).directories, t'.isDirectory p = true) ∧
        (below root).create t' = (.ok (), t')) := by
  have adds := addsDirectories_createEach t (below root).directories
  rw [← create, created] at adds
  refine ⟨adds, ?_⟩
  -- the second creation meets what the first has made
  rintro rfl
  have found := isDirectory_createEach (written_directories written) created
  exact ⟨found, createEach_of_isDirectory found⟩

/-- A root that is a link to a directory, in which the directory for images is there with an image,
that for save states is a link to a directory elsewhere, and a file stands where the one for cheat
lists is wanted. -/
def patchwork : FileTree where
  entries :=
    let name (s : String) : Name := (Path.ofString s).bytes
    [([name "work"], .link (.ofString "data/")), ([name "data"], .directory),
      ([name "Temp", name "data"], .directory),
      ([name "old.nds", name "Temp", name "data"], .file [1]),
      ([name "States", name "data"], .link (.ofString "../saves")), ([name "saves"], .directory),
      ([name "Cheats", name "data"], .file [2])]
  workingDirectory := []
  distinct := by decide +kernel

/-- The file makes the creation fail, after the directory for battery saves was added, and stays.
Once it is gone the creation succeeds. -/
theorem create_adds_directories_patchwork :
    let w := below (.ofString "work")
    let cleared := patchwork.erase [(Path.ofString "Cheats").bytes, (Path.ofString "data").bytes]
    (w.create patchwork).1 = .error .alreadyExists ∧
      (w.create patchwork).2.isDirectory w.battery = true ∧
      (w.create patchwork).2.isFile w.cheats = true ∧
      AddsDirectories patchwork (w.create patchwork).2 ∧
      (w.create cleared).1 = .ok () ∧ AddsDirectories cleared (w.create cleared).2 ∧
      (∀ p ∈ w.directories, (w.create cleared).2.isDirectory p = true) ∧
      w.create (w.create cleared).2 = (.ok (), (w.create cleared).2) := by
  intro w cleared
  have fails : (w.create patchwork).1 = .error .alreadyExists := by decide +kernel
  have succeeds : (w.create cleared).1 = .ok () := by decide +kernel
  have written : (Path.ofString "work").isEmpty = false := by decide
  -- the two creations, of which the first fails, are compared with the tree that each of them met
  obtain ⟨adds, complete⟩ := create_adds_directories written (Prod.eta (w.create cleared)).symm
  exact ⟨fails, by decide +kernel, by decide +kernel,
    (create_adds_directories written (Prod.eta _).symm).1, succeeds, adds, complete succeeds⟩

end WorkingTree
end EmuScheduler
