import EmuScheduler.Proofs.Routes

/-!
# The path of an entry

What a directory lists are names, and the path of an entry is the path of the directory with the
name put to it. Such a path takes the steps of the directory and then one more
(`Path.steps_join`), as long as the name is one that an entry can have: `.`, `..` and anything with
a separator in it would lead somewhere else.

`t.Reaches p d es` says that a path leads to the directory at `d`. From there on, what the path of
an entry leads to is a question about the way from `d` (`isFile_join_iff`), and to remove what
stands at the path of an entry is to erase the location below `d` (`removeFile_join`).
-/

namespace EmuScheduler

/-- A name that an entry can have: one piece of a path, and neither `.` nor `..`. -/
structure Name.Proper (n : Name) : Prop where
  nonempty : n ≠ []
  notHere : n ≠ [Path.dot]
  notUp : n ≠ [Path.dot, Path.dot]
  whole : Path.slash ∉ n

instance (n : Name) : Decidable n.Proper :=
  decidable_of_iff (n ≠ [] ∧ n ≠ [Path.dot] ∧ n ≠ [Path.dot, Path.dot] ∧ Path.slash ∉ n)
    ⟨fun ⟨h₁, h₂, h₃, h₄⟩ => ⟨h₁, h₂, h₃, h₄⟩, fun ⟨h₁, h₂, h₃, h₄⟩ => ⟨h₁, h₂, h₃, h₄⟩⟩

namespace Path

variable {p : Path} {n : Name}

/-! ## The text of the path -/

theorem pieces_cons (b : UInt8) (bs : List UInt8) : pieces (b :: bs) =
    if b = slash then [] :: pieces bs else (b :: (pieces bs).headD []) :: (pieces bs).tail :=
  rfl

/-- The pieces of a path are what its separators leave. -/
theorem pieces_eq_splitOn (bs : List UInt8) : pieces bs = bs.splitOn slash := by
  induction bs with
  | nil => rfl
  | cons b bs ih =>
    rw [List.splitOn, List.splitOnP_cons_eq_if_modifyHead, ← List.splitOn, ← ih]
    rw [pieces_cons]
    -- a separator begins a new piece, and any other byte belongs to the first one
    by_cases sep : b = slash
    · simp [sep]
    · rw [if_neg sep, if_neg (by simpa using sep)]
      cases pieces_bs : pieces bs with
      | nil => simp [ih, List.splitOn_ne_nil] at pieces_bs
      | cons => rfl

/-- A separator divides the pieces. -/
theorem pieces_append (bs cs : List UInt8) :
    pieces (bs ++ slash :: cs) = pieces bs ++ pieces cs := by
  simp only [pieces_eq_splitOn, List.splitOn]
  exact List.splitOnP_append_cons bs cs (beq_self_eq_true slash)

/-- A proper name is one piece. -/
theorem pieces_of_proper (proper : n.Proper) : pieces n = [n] := by
  rw [pieces_eq_splitOn, List.splitOn]
  refine List.splitOnP_eq_singleton fun b there => ?_
  exact beq_eq_false_iff_ne.2 fun eq => proper.whole (eq ▸ there)

/-- A proper name is a step of its own. -/
theorem component?_of_proper (proper : n.Proper) : component? n = some (.name n) := by
  rw [component?, if_neg proper.nonempty, if_neg proper.notHere, if_neg proper.notUp]

theorem isAbsolute_of_proper (proper : n.Proper) : isAbsolute ⟨n⟩ = false := by
  refine beq_eq_false_iff_ne.2 fun head => proper.whole ?_
  exact List.mem_of_head? head

/-- A name is put behind a separator, unless the path has one at its end already or is empty. -/
theorem bytes_join (proper : n.Proper) : (p.join ⟨n⟩).bytes =
    if p.isEmpty || p.endsInSlash then p.bytes ++ n else p.bytes ++ slash :: n := by
  rw [join, isAbsolute_of_proper proper, if_neg Bool.false_ne_true]
  split <;> rfl

theorem isEmpty_join (p : Path) (proper : n.Proper) : (p.join ⟨n⟩).isEmpty = false := by
  rw [isEmpty, bytes_join proper]
  split <;> simp [proper.nonempty]

/-- The path of an entry takes the steps to the directory, and one more. -/
theorem steps_join (proper : n.Proper) : (p.join ⟨n⟩).steps = p.steps ++ [.name n] := by
  -- the name adds one step, however the path before it ends
  have last : (pieces n).filterMap component? = [.name n] := by
    simp [pieces_of_proper proper, component?_of_proper proper]
  rw [steps, bytes_join proper]
  split
  · next closed =>
    obtain empty | ends := Bool.or_eq_true .. ▸ closed
    · obtain none : p.bytes = [] := List.isEmpty_iff.1 empty
      rw [steps, none, List.nil_append, last]
      rfl
    · -- the separator that ends the path leaves an empty piece behind it, which is no step
      obtain ⟨bs, eq⟩ := List.getLast?_eq_some_iff.1 (beq_iff_eq.1 ends)
      rw [steps, eq, List.append_assoc, List.singleton_append, pieces_append, pieces_append,
        List.filterMap_append, List.filterMap_append, last,
        show (pieces []).filterMap component? = [] from rfl, List.append_nil]
  · rw [pieces_append, List.filterMap_append, last, steps]

/-- The path of an entry ends with the name. -/
theorem endsInSlash_join (proper : n.Proper) : (p.join ⟨n⟩).endsInSlash = false := by
  have last : (p.join ⟨n⟩).bytes.getLast? = n.getLast? := by
    rw [bytes_join proper]
    split
    · rw [List.getLast?_append_of_ne_nil _ proper.nonempty]
    · rw [List.getLast?_append_cons, List.getLast?_cons_of_ne_nil proper.nonempty]
  rw [endsInSlash, last]
  refine beq_eq_false_iff_ne.2 fun eq => proper.whole ?_
  exact List.mem_of_getLast? eq

/-- No separator ends the path of an entry, so its components are its steps. -/
theorem components_join (proper : n.Proper) : (p.join ⟨n⟩).components = p.steps ++ [.name n] := by
  rw [components, endsInSlash_join proper, if_neg Bool.false_ne_true, steps_join proper]

/-- The path of an entry begins where the path of the directory does. -/
theorem isAbsolute_join (proper : n.Proper) (written : p.isEmpty = false) :
    (p.join ⟨n⟩).isAbsolute = p.isAbsolute := by
  have nonempty : p.bytes ≠ [] := fun eq => by simp [isEmpty, eq] at written
  rw [isAbsolute, bytes_join proper]
  split <;> rw [List.head?_append_of_ne_nil _ nonempty, isAbsolute]

end Path

namespace FileTree

variable {t : FileTree} {p : Path} {d l m : Location} {n : Name} {cs : List Component}
  {es : List Location} {node : Node}

/-- The path leads over the entries `es` to the directory at `d`. -/
structure Reaches (t : FileTree) (p : Path) (d : Location) (es : List Location) : Prop where
  accepted : refusal? p = none
  way : t.Route (origin t.workingDirectory p) p.steps es d .directory
  few : t.linksOn es ≤ linkLimit

/-- A separator at the end demands a directory and is no step. -/
theorem route_append_finalSlash :
    t.Route l (cs ++ [.finalSlash]) es m node ↔ node = .directory ∧ t.Route l cs es m node := by
  constructor
  · intro way
    generalize eq : cs ++ [.finalSlash] = ahead at way
    -- a step of the way is the separator at the end just when nothing else is ahead of it
    induction way generalizing cs with
    | arrived l => simp at eq
    | here _ ih =>
      cases cs with
      | nil => cases eq
      | cons c cs =>
        obtain ⟨rfl, rfl⟩ := List.cons.inj eq
        exact (ih rfl).imp id .here
    | finalSlash way ih =>
      cases cs with
      | nil =>
        obtain ⟨-, rfl⟩ := List.cons.inj eq
        cases way
        exact ⟨rfl, .arrived _⟩
      | cons c cs =>
        obtain ⟨rfl, rfl⟩ := List.cons.inj eq
        exact (ih rfl).imp id .finalSlash
    | up _ ih =>
      cases cs with
      | nil => cases eq
      | cons c cs =>
        obtain ⟨rfl, rfl⟩ := List.cons.inj eq
        exact (ih rfl).imp id .up
    | enter short there _ ih =>
      cases cs with
      | nil => cases eq
      | cons c cs =>
        obtain ⟨rfl, rfl⟩ := List.cons.inj eq
        exact (ih rfl).imp id (.enter short there)
    | file short there =>
      cases cs with
      | nil => cases eq
      | cons c cs => simp at eq
    | follow short there _ ih =>
      cases cs with
      | nil => cases eq
      | cons c cs =>
        obtain ⟨rfl, rfl⟩ := List.cons.inj eq
        exact (ih (List.append_assoc ..)).imp id (.follow short there)
  · rintro ⟨rfl, way⟩
    exact way.append_iff.2 ⟨[], by simp, .finalSlash (.arrived m)⟩

/-- A path leads somewhere if it is accepted and there is a way with few enough links. -/
theorem resolve_eq_existing_iff : t.resolve p = .ok (.existing m node) ↔
    refusal? p = none ∧ ∃ es,
      t.Route (origin t.workingDirectory p) p.components es m node ∧ t.linksOn es ≤ linkLimit := by
  rw [resolve, resolveFor]
  cases refusal? p with
  | some c => simp
  | none => simp [walk_eq_existing_iff]

/-- A path leads to a directory just if it reaches one; a separator at its end asks for no more. -/
theorem resolve_eq_directory_iff :
    t.resolve p = .ok (.existing d .directory) ↔ ∃ es, t.Reaches p d es := by
  -- at a directory the separator at the end of the path asks for nothing that is not there
  have components : ∀ es, t.Route (origin t.workingDirectory p) p.components es d .directory ↔
      t.Route (origin t.workingDirectory p) p.steps es d .directory := by
    intro es
    rw [Path.components]
    split
    · simp [route_append_finalSlash]
    · rfl
  rw [resolve_eq_existing_iff]
  constructor
  · rintro ⟨accepted, es, way, few⟩
    exact ⟨es, accepted, (components es).1 way, few⟩
  · rintro ⟨es, accepted, way, few⟩
    exact ⟨accepted, es, (components es).2 way, few⟩

/-- A path is that of a file if it leads to one. -/
theorem isFile_iff : t.isFile p = true ↔
    ∃ m data, t.resolve p = .ok (.existing m (.file data)) := by
  rw [isFile]
  split <;> simp_all

theorem isDirectory_iff : t.isDirectory p = true ↔
    ∃ d, t.resolve p = .ok (.existing d .directory) := by
  rw [isDirectory]
  split <;> simp_all

/-- A path that reaches something is not empty. -/
theorem Reaches.written (reaches : t.Reaches p d es) : p.isEmpty = false := by
  have accepted := reaches.accepted
  unfold refusal? at accepted
  split_ifs at accepted with _ empty
  exact eq_false_of_ne_true empty

/-- What a path leads to stays where it is when a tree is only added to. -/
theorem leads_of_extends {t' : FileTree} (h : Extends t t') :
    Leads t t' (.existing m node) (.existing m node) where
  way there _ := h.node there
  directory _ := rfl
  file there eq := ⟨_, h.node there, eq⟩
  vacant := nofun

/-- A path that leads somewhere leads there still when only more is there. -/
theorem resolve_of_extends {t' : FileTree} (h : Extends t t')
    (resolved : t.resolve p = .ok (.existing m node)) :
    t'.resolve p = .ok (.existing m node) :=
  resolve_leads (leads_of_extends h) h.workingDirectory resolved

theorem isFile_of_extends {t' : FileTree} (h : Extends t t') (file : t.isFile p = true) :
    t'.isFile p = true := by
  obtain ⟨m, data, resolved⟩ := isFile_iff.1 file
  exact isFile_iff.2 ⟨m, data, resolve_of_extends h resolved⟩

theorem isDirectory_of_extends {t' : FileTree} (h : Extends t t')
    (directory : t.isDirectory p = true) : t'.isDirectory p = true := by
  obtain ⟨d, resolved⟩ := isDirectory_iff.1 directory
  exact isDirectory_iff.2 ⟨d, resolve_of_extends h resolved⟩

/-- To erase a location only takes away. -/
theorem extends_erase {e : Location} (notRoot : e ≠ []) : Extends (t.erase e) t := by
  refine ⟨fun {l node} there => ?_, rfl⟩
  rw [node?_erase t notRoot] at there
  split_ifs at there
  exact there

/-- The entry `n` of the directory at `d` is a file, or leads to one, over the entries `es`. -/
def FileOver (t : FileTree) (d : Location) (n : Name) (es : List Location) : Prop :=
  ∃ m data, t.Route d [.name n] es m (.file data)

section Entries

variable {fs : List Location} (reaches : t.Reaches p d es) (proper : n.Proper)
include reaches proper

/-- The path of an entry starts from the same place as that of the directory. -/
theorem Reaches.origin_join : origin l (p.join ⟨n⟩) = origin l p := by
  rw [origin, origin, Path.isAbsolute_join proper reaches.written]

/-- The path of an entry leads where its name leads from the directory. -/
theorem Reaches.route_join :
    t.Route (origin t.workingDirectory (p.join ⟨n⟩)) (p.join ⟨n⟩).components fs m node ↔
      ∃ gs, fs = es ++ gs ∧ t.Route d [.name n] gs m node := by
  rw [reaches.origin_join proper, Path.components_join proper]
  exact reaches.way.append_iff

/-- The path of an entry is that of a file if the name leads to one, with few enough links in all.
-/
theorem Reaches.isFile_join_iff : t.isFile (p.join ⟨n⟩) = true ↔
    refusal? (p.join ⟨n⟩) = none ∧ ∃ fs, t.FileOver d n fs ∧ t.linksOn (es ++ fs) ≤ linkLimit := by
  simp only [isFile_iff, resolve_eq_existing_iff, reaches.route_join proper]
  constructor
  · rintro ⟨m, data, accepted, _, ⟨fs, rfl, way⟩, few⟩
    exact ⟨accepted, fs, ⟨m, data, way⟩, few⟩
  · rintro ⟨accepted, fs, ⟨m, data, way⟩, few⟩
    exact ⟨m, data, accepted, _, ⟨fs, rfl, way⟩, few⟩

theorem Reaches.fileOver (file : t.isFile (p.join ⟨n⟩) = true) : ∃ fs, t.FileOver d n fs := by
  obtain ⟨-, fs, way, -⟩ := (reaches.isFile_join_iff proper).1 file
  exact ⟨fs, way⟩

/-- To remove an entry that leads to a file is to erase it, unless that is refused: no link is
followed. -/
theorem Reaches.removeFile_join (file : t.isFile (p.join ⟨n⟩) = true) :
    t.removeFile (p.join ⟨n⟩) = t.permit .remove (n :: d) (t.erase (n :: d)) := by
  obtain ⟨accepted, fs, ⟨m, data, way⟩, -⟩ := (reaches.isFile_join_iff proper).1 file
  -- all but the last step of the path leads to the directory
  have above : t.resolveParent (p.join ⟨n⟩) = .ok (some (d, .name n)) := by
    have walked : t.walk .look linkLimit (origin t.workingDirectory p) p.steps =
        .ok (.existing d .directory) := reaches.way.walk reaches.few
    simp [resolveParent, accepted, Path.steps_join proper, reaches.origin_join proper, walked]
  obtain ⟨short, gs, rfl, ⟨-, onward⟩ | ⟨data, there, -⟩ | ⟨target, there, -⟩⟩ := route_name way
  · cases onward
  · simp [removeFile, above, Nat.not_lt.2 short, there, Path.endsInSlash_join proper]
  · simp [removeFile, above, Nat.not_lt.2 short, there, Path.endsInSlash_join proper]

end Entries

/-! ## What leads over an entry -/

section Over

variable {fs gs : List Location} {n' : Name} {e : Location}

/-- There is one way from a name to a file. -/
theorem FileOver.unique (leads : t.FileOver d n fs) (leads' : t.FileOver d n gs) : gs = fs := by
  obtain ⟨m, data, way⟩ := leads
  obtain ⟨m', data', way'⟩ := leads'
  exact way.unique nofun way'

/-- The way begins with the entry of the name. -/
theorem FileOver.self (leads : t.FileOver d n fs) : n :: d ∈ fs := by
  obtain ⟨m, data, way⟩ := leads
  obtain ⟨-, gs, rfl, -⟩ := route_name way
  exact List.mem_cons_self

/-- An entry that is led over leads on alone: the way of the one ends with the way of the other. -/
theorem FileOver.suffix (leads : t.FileOver d n fs) (leads' : t.FileOver d n' gs)
    (passes : n' :: d ∈ fs) : gs <:+ fs := by
  obtain ⟨m, data, way⟩ := leads
  obtain ⟨m', data', way'⟩ := leads'
  obtain ⟨cs, rest, suffix, way⟩ := way.from_entry passes
  obtain ⟨-, rfl, -⟩ := way'.meets nofun way
  exact suffix

/-- When an entry is gone the ways that are left are those that did not pass it. -/
theorem fileOver_erase_iff (notRoot : e ≠ []) :
    (t.erase e).FileOver d n fs ↔ t.FileOver d n fs ∧ e ∉ fs := by
  simp [FileOver, route_erase_iff notRoot]

/-- No directory is reached over an entry that leads to a file. -/
theorem Reaches.clear (reaches : t.Reaches p m es) (leads : t.FileOver d n fs) : n :: d ∉ es := by
  intro passed
  obtain ⟨l, data, way⟩ := leads
  -- from the entry on the way would end at a file and at a directory
  obtain ⟨cs, rest, -, way'⟩ := reaches.way.from_entry passed
  obtain ⟨-, -, -, ⟨⟩⟩ := way.meets nofun way'

/-- When such an entry is gone every directory is still reached, and on the same way. -/
theorem Reaches.erase (reaches : t.Reaches p m es) (leads : t.FileOver d n fs) :
    (t.erase (n :: d)).Reaches p m es := by
  have clear := reaches.clear leads
  have notRoot : n :: d ≠ [] := List.cons_ne_nil n d
  refine ⟨reaches.accepted, (route_erase_iff notRoot).2 ⟨reaches.way, clear⟩, ?_⟩
  rw [linksOn_erase notRoot clear]
  exact reaches.few

/-- When an entry is gone, those that still lead to a file are the ones that did not lead over
it. -/
theorem Reaches.isFile_erase_iff (reaches : t.Reaches p d es) (leads : t.FileOver d n fs)
    (proper : n'.Proper) (leads' : t.FileOver d n' gs) :
    (t.erase (n :: d)).isFile (p.join ⟨n'⟩) = true ↔
      t.isFile (p.join ⟨n'⟩) = true ∧ n :: d ∉ gs := by
  have notRoot : n :: d ≠ [] := List.cons_ne_nil n d
  have links (clear : n :: d ∉ gs) : (t.erase (n :: d)).linksOn (es ++ gs) = t.linksOn (es ++ gs) :=
    linksOn_erase notRoot fun passed =>
      (List.mem_append.1 passed).elim (reaches.clear leads) clear
  rw [(reaches.erase leads).isFile_join_iff proper, reaches.isFile_join_iff proper]
  constructor
  · -- what is left of the tree has the ways that it had before, and a way to a file is the only one
    rintro ⟨accepted, _, left, few⟩
    obtain ⟨left, clear⟩ := (fileOver_erase_iff notRoot).1 left
    obtain rfl := leads'.unique left
    exact ⟨⟨accepted, _, leads', links clear ▸ few⟩, clear⟩
  · rintro ⟨⟨accepted, _, there, few⟩, clear⟩
    obtain rfl := leads'.unique there
    exact ⟨accepted, _, (fileOver_erase_iff notRoot).2 ⟨leads', clear⟩, (links clear).symm ▸ few⟩

end Over

end FileTree
end EmuScheduler
