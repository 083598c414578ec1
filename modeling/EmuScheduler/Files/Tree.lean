import EmuScheduler.Path

/-!
# File trees

A `FileTree` holds what a process can see of a file system: directories, regular files and symbolic
links, each at a `Location`, and the directory that relative paths start from. The root is always
there and is a directory. The order of the entries is the order in which directories are listed.

A file system may also refuse what the entries would allow: a directory that is not to be written
to, an entry that cannot be read from the disk. `FileTree.refused` says which accesses these are,
and `FileTree.permit` is the only place where it is looked at.

`node?` is the view through which every operation is described: `node?_put` and `node?_erase` say
what the two changes do to it.
-/

namespace EmuScheduler

/-- Where something stands: the names from the entry itself up to the root. -/
abbrev Location := List Name

/-- What stands at a location. -/
inductive Node where
  | directory
  | file (data : List UInt8)
  | link (target : Path)
  deriving DecidableEq, Repr, Inhabited

/-- Why a file operation fails. -/
inductive Cause where
  | notFound
  | alreadyExists
  | notADirectory
  | isADirectory
  | filesystemLoop
  | nameTooLong
  | nulInPath
  | invalidText
  | permissionDenied
  /-- A failure that is known by its text alone. -/
  | other (text : String)
  deriving DecidableEq, Repr

/-- The text of a failed file operation. -/
def Cause.message : Cause → String
  | .notFound => "No such file or directory (os error 2)"
  | .alreadyExists => "File exists (os error 17)"
  | .notADirectory => "Not a directory (os error 20)"
  | .isADirectory => "Is a directory (os error 21)"
  | .filesystemLoop => "Too many levels of symbolic links (os error 40)"
  | .nameTooLong => "File name too long (os error 36)"
  | .nulInPath => "file name contained an unexpected NUL byte"
  | .invalidText => "stream did not contain valid UTF-8"
  | .permissionDenied => "Permission denied (os error 13)"
  | .other text => text

/-- What a process wants of a file system at a location. -/
inductive Access where
  /-- To open the directory there for listing. -/
  | list
  /-- To be told of the entry there when its directory is listed. -/
  | tell
  /-- To put a new entry there. -/
  | create
  /-- To remove the entry there. -/
  | remove
  deriving DecidableEq, Repr

/-- The entries of a file system, no two at one location, and the working directory. -/
structure FileTree where
  entries : List (Location × Node)
  workingDirectory : Location
  /-- Why an access is refused that the entries would allow. -/
  refused : Access → Location → Option Cause := fun _ _ => none
  distinct : (entries.map Prod.fst).Nodup

namespace FileTree

/-- A tree without entries. -/
def empty : FileTree where
  entries := []
  workingDirectory := []
  distinct := List.nodup_nil

instance : Inhabited FileTree := ⟨empty⟩

/-- The node in a list of entries. -/
def find? (l : Location) : List (Location × Node) → Option Node
  | [] => none
  | (k, n) :: rest => if k = l then some n else find? l rest

/-- What stands at a location. -/
def node? (t : FileTree) : Location → Option Node
  | [] => some .directory
  | l => find? l t.entries

/-- The names in the directory at `l`, in the order of listing. -/
def names (t : FileTree) (l : Location) : List Name :=
  t.entries.filterMap fun e =>
    match e.1 with
    | [] => none
    | n :: above => if above = l then some n else none

/-- What comes of an access that the entries allow. -/
def permit {α : Type} (t : FileTree) (a : Access) (l : Location) (x : α) : Except Cause α :=
  match t.refused a l with
  | none => .ok x
  | some c => .error c

/-- The names in the directory at `l` as a listing tells of them, one after the other. -/
def listing (t : FileTree) (l : Location) : List (Except Cause Name) :=
  (t.names l).map fun n => t.permit .tell (n :: l) n

/-- The entries elsewhere than at `l`. -/
def without (l : Location) (es : List (Location × Node)) : List (Location × Node) :=
  es.filter fun e => e.1 ≠ l

/-- What is left over has no two entries at one location either. -/
theorem distinct_without {l : Location} {es : List (Location × Node)}
    (h : (es.map Prod.fst).Nodup) : ((without l es).map Prod.fst).Nodup :=
  (List.filter_sublist.map _).nodup h

theorem not_mem_without (l : Location) (es : List (Location × Node)) :
    l ∉ (without l es).map Prod.fst := by
  simp [without]

/-- The tree with `n` at `l`, listed last. -/
def put (t : FileTree) (l : Location) (n : Node) : FileTree where
  entries := without l t.entries ++ [(l, n)]
  workingDirectory := t.workingDirectory
  refused := t.refused
  distinct := by
    rw [List.map_append, List.nodup_append]
    refine ⟨distinct_without t.distinct, by simp, ?_⟩
    intro a ha b hb hab
    simp only [List.map_cons, List.map_nil, List.mem_singleton] at hb
    subst hab hb
    exact not_mem_without _ t.entries ha

/-- The tree with nothing at `l`. -/
def erase (t : FileTree) (l : Location) : FileTree where
  entries := without l t.entries
  workingDirectory := t.workingDirectory
  refused := t.refused
  distinct := distinct_without t.distinct

/-- The entries elsewhere, one entry at a time. -/
theorem without_cons (l : Location) (e : Location × Node) (es : List (Location × Node)) :
    without l (e :: es) = if e.1 = l then without l es else e :: without l es := by
  by_cases h : e.1 = l <;> simp [without, h]

/-- Nothing is left at the location that was cleared. -/
theorem find?_without_self (l : Location) (es : List (Location × Node)) :
    find? l (without l es) = none := by
  induction es with
  | nil => rfl
  | cons e es ih => by_cases h : e.1 = l <;> simp [without_cons, h, find?, ih]

/-- What stands elsewhere is still found. -/
theorem find?_without_of_ne {k l : Location} (hkl : k ≠ l) (es : List (Location × Node)) :
    find? k (without l es) = find? k es := by
  induction es with
  | nil => rfl
  | cons e es ih =>
    by_cases h : e.1 = l
    · have : e.1 ≠ k := fun hk => hkl (hk ▸ h)
      simp [without_cons, h, find?, ih, Ne.symm hkl]
    · simp [without_cons, h, find?, ih]

/-- The first entry at a location counts. -/
theorem find?_append (l : Location) (es fs : List (Location × Node)) :
    find? l (es ++ fs) = (find? l es).or (find? l fs) := by
  induction es with
  | nil => simp [find?]
  | cons e es ih => by_cases h : e.1 = l <;> simp [find?, h, ih]

/-- Below the root, what stands at a location is its entry. -/
theorem node?_eq_find? {t : FileTree} {l : Location} (h : l ≠ []) :
    t.node? l = find? l t.entries := by
  cases l with
  | nil => exact absurd rfl h
  | cons => rfl

@[simp] theorem node?_root (t : FileTree) : t.node? [] = some .directory := rfl

/-- What is not refused comes to what it is asked for. -/
theorem permit_of_none {α : Type} {t : FileTree} {a : Access} {l : Location}
    (free : t.refused a l = none) (x : α) : t.permit a l x = .ok x := by
  rw [permit, free]

/-- An operation succeeds only if it is not refused. -/
theorem permit_eq_ok_iff {α : Type} {t : FileTree} {a : Access} {l : Location} {x y : α} :
    t.permit a l x = .ok y ↔ t.refused a l = none ∧ x = y := by
  rw [permit]
  cases t.refused a l <;> simp

@[simp] theorem workingDirectory_put (t : FileTree) (l : Location) (n : Node) :
    (t.put l n).workingDirectory = t.workingDirectory := rfl

@[simp] theorem workingDirectory_erase (t : FileTree) (l : Location) :
    (t.erase l).workingDirectory = t.workingDirectory := rfl

@[simp] theorem refused_put (t : FileTree) (l : Location) (n : Node) :
    (t.put l n).refused = t.refused := rfl

@[simp] theorem refused_erase (t : FileTree) (l : Location) : (t.erase l).refused = t.refused := rfl

/-- A put node is found at its location and nothing else changes. -/
theorem node?_put (t : FileTree) {l : Location} (hl : l ≠ []) (n : Node) (k : Location) :
    (t.put l n).node? k = if k = l then some n else t.node? k := by
  cases k with
  | nil => simp [hl.symm]
  | cons a k =>
    rw [node?_eq_find? (by simp), node?_eq_find? (by simp)]
    -- the old entry at the location is cleared before the new one is listed
    by_cases h : a :: k = l
    · simp [put, find?_append, h, find?_without_self, find?]
    · simp [put, find?_append, h, find?_without_of_ne h, find?, Ne.symm h]

/-- Nothing is found at an erased location and nothing else changes. -/
theorem node?_erase (t : FileTree) {l : Location} (hl : l ≠ []) (k : Location) :
    (t.erase l).node? k = if k = l then none else t.node? k := by
  cases k with
  | nil => simp [hl.symm]
  | cons a k =>
    rw [node?_eq_find? (by simp), node?_eq_find? (by simp)]
    by_cases h : a :: k = l
    · simp [erase, h, find?_without_self]
    · simp [erase, h, find?_without_of_ne h]

end FileTree
end EmuScheduler
