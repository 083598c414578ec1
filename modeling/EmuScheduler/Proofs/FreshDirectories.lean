import EmuScheduler.Proofs.Directories

/-!
# Directories that are new

To create directories is to create the first of the levels of a path that is missing, and then those
below it. What is created is empty, and nothing leads on from an empty directory except back
(`route_of_empty`). So as long as a path takes no step back, a creation along it that succeeds has
either changed nothing or left the path at an empty directory (`createFrom_cases`).

The levels of a path come one from the other: each takes the first steps of those below it, from the
same place (`Path.Above`, `Path.levels_pairwise`). And a directory that was just created is empty
because every entry stands in a directory (`Grounded`).
-/

namespace EmuScheduler

namespace Path

variable {p q top : Path} {ps before : List (List UInt8)} {piece : List UInt8}

/-! ## The levels of a path -/

/-- A path is absolute if it has an empty piece in front and another one behind it. -/
theorem isAbsolute_iff : p.isAbsolute = true ↔
    ∃ piece ps, pieces p.bytes = [] :: piece :: ps := by
  obtain ⟨bytes⟩ := p
  cases bytes with
  | nil => simp [isAbsolute, pieces]
  | cons b bs =>
    have more : pieces bs ≠ [] := by
      rw [pieces_eq_splitOn]
      exact List.splitOn_ne_nil slash bs
    rw [pieces_cons]
    -- a path that begins with a separator has an empty piece before it, and others have a first
    -- piece that is not empty
    by_cases sep : b = slash
    · obtain ⟨piece, ps, eq⟩ := List.exists_cons_of_ne_nil more
      rw [if_pos sep, eq]
      exact ⟨fun _ => ⟨piece, ps, rfl⟩, fun _ => beq_iff_eq.2 (congrArg some sep)⟩
    · rw [if_neg sep]
      refine ⟨fun absolute => absurd (Option.some.inj (beq_iff_eq.1 absolute)) sep, ?_⟩
      rintro ⟨piece, ps, eq⟩
      exact absurd (List.cons.inj eq).1 (List.cons_ne_nil _ _)

/-- A path that is written with the first pieces of another one has these pieces. -/
theorem pieces_of_first (first : ps <+: pieces p.bytes) (nonempty : ps ≠ []) :
    pieces (ofPieces ps).bytes = ps := by
  rw [pieces_eq_splitOn]
  exact List.splitOn_intercalate slash
    (fun _ there => whole_of_mem_pieces (first.subset there)) nonempty

/-- The first path takes the first steps of the second one, from the same place. -/
structure Above (q p : Path) : Prop where
  steps : q.steps <+: p.steps
  absolute : q.isAbsolute = p.isAbsolute

/-- A path that is written with the first pieces of another one, the last of which is not empty. -/
theorem above_of_first (first : (piece :: before).reverse <+: pieces p.bytes)
    (nonempty : piece ≠ []) : Above (ofPieces (piece :: before).reverse) p := by
  have same := pieces_of_first first (by simp)
  refine ⟨?_, ?_⟩
  · rw [steps, same]
    exact first.filterMap component?
  · rw [Bool.eq_iff_iff, isAbsolute_iff, isAbsolute_iff, same]
    obtain ⟨rest, eq⟩ := first
    rw [← eq]
    constructor
    · rintro ⟨next, ps, eq⟩
      exact ⟨next, ps ++ rest, by rw [eq]; rfl⟩
    · -- the empty piece in front is not all that there is, for the last piece is not empty
      rintro ⟨next, ps, eq⟩
      cases written : (piece :: before).reverse with
      | nil => simp at written
      | cons a others =>
        rw [written] at eq
        obtain rfl : a = [] := (List.cons.inj eq).1
        cases others with
        | nil =>
          rw [List.reverse_eq_iff] at written
          exact absurd (List.cons.inj written).1 nonempty
        | cons b others => exact ⟨b, others, rfl⟩

section Levels

variable (topmost : top.steps = []) (same : top.isAbsolute = p.isAbsolute)
include topmost same

/-- Every level that is met on the way down lies above the path. -/
theorem above_of_mem_levelsFrom (first : ps.reverse <+: pieces p.bytes)
    (there : q ∈ levelsFrom top ps) : Above q p := by
  induction ps with
  | nil =>
    obtain rfl := List.mem_singleton.1 there
    exact ⟨topmost ▸ List.nil_prefix, same⟩
  | cons piece before ih =>
    have fewer : before.reverse <+: pieces p.bytes :=
      (List.prefix_append _ _).trans (List.reverse_cons ▸ first)
    rw [levelsFrom] at there
    -- a piece that is empty, or a full stop behind others, makes no level of its own
    split at there
    · exact ih fewer there
    · next level =>
      obtain rfl | there := List.mem_cons.1 there
      · exact above_of_first first fun empty => level (.inl empty)
      · exact ih fewer there

/-- The levels come one above the other. -/
theorem levelsFrom_pairwise (first : ps.reverse <+: pieces p.bytes) :
    (levelsFrom top ps).Pairwise fun q r => Above r q := by
  induction ps with
  | nil => exact List.pairwise_singleton _ _
  | cons piece before ih =>
    have fewer : before.reverse <+: pieces p.bytes :=
      (List.prefix_append _ _).trans (List.reverse_cons ▸ first)
    rw [levelsFrom]
    split
    · exact ih fewer
    · next level =>
      -- what is above a level is above it as it is above the whole path
      have own := above_of_first first fun empty => level (.inl empty)
      refine List.pairwise_cons.2 ⟨fun r there => ?_, ih fewer⟩
      refine above_of_mem_levelsFrom topmost (same.trans own.absolute.symm) ?_ there
      rw [pieces_of_first first (by simp), List.reverse_cons]
      exact List.prefix_append _ _

end Levels

/-- The topmost level takes no step, from where the path begins. -/
theorem levels_top (p : Path) :
    (if p.isAbsolute then ⟨[slash]⟩ else ⟨[]⟩ : Path).steps = [] ∧
      (if p.isAbsolute then ⟨[slash]⟩ else ⟨[]⟩ : Path).isAbsolute = p.isAbsolute := by
  cases p.isAbsolute with
  | true => exact ⟨rfl, rfl⟩
  | false => exact ⟨rfl, rfl⟩

/-- Every level of a path lies above it. -/
theorem above_of_mem_levels (there : q ∈ p.levels) : Above q p :=
  above_of_mem_levelsFrom (levels_top p).1 (levels_top p).2
    (List.reverse_reverse _ ▸ List.prefix_rfl) there

/-- **Each level takes the first steps of those below it.** -/
theorem levels_pairwise (p : Path) : p.levels.Pairwise fun q r => Above r q :=
  levelsFrom_pairwise (levels_top p).1 (levels_top p).2
    (List.reverse_reverse _ ▸ List.prefix_rfl)

/-- So it is with a path and the paths above it. -/
theorem above_pairwise (p : Path) : (p :: p.above).Pairwise fun q r => Above r q :=
  List.pairwise_cons.2 ⟨fun _ there => above_of_mem_levels (List.mem_of_mem_tail there),
    p.levels_pairwise.tail⟩

end Path

namespace FileTree

variable {t t₁ t' : FileTree} {p q : Path} {d l m : Location} {n : Name} {cs : List Component}
  {es : List Location} {node : Node}

/-! ## Every entry stands in a directory -/

/-- Every entry stands in a directory, and paths are read in one. -/
structure Grounded (t : FileTree) : Prop where
  above {l : Location} {n : Name} {node : Node} :
    t.node? (n :: l) = some node → t.node? l = some .directory
  workingDirectory : t.node? t.workingDirectory = some .directory

/-- A way that begins in a directory ends at what stands there. -/
theorem Grounded.route (grounded : t.Grounded) (way : t.Route l cs es m node)
    (begins : t.node? l = some .directory) : t.node? m = some node := by
  -- a step into an entry says what is there; a step back goes to a directory above, which is there
  -- as the tree is grounded
  induction way with
  | arrived l => exact begins
  | here _ ih => exact ih begins
  | finalSlash _ ih => exact ih begins
  | @up l _ _ _ _ _ ih =>
    cases l with
    | nil => exact ih begins
    | cons n l => exact ih (grounded.above begins)
  | enter _ there _ ih => exact ih there
  | file _ there => exact there
  | @follow l _ target _ _ _ _ _ _ _ ih =>
    refine ih ?_
    rw [origin]
    split
    · rfl
    · exact begins

/-- Paths begin at the root or at the working directory, and both are there. -/
theorem Grounded.origin (grounded : t.Grounded) (p : Path) :
    t.node? (origin t.workingDirectory p) = some .directory := by
  rw [FileTree.origin]
  split
  · rfl
  · exact grounded.workingDirectory

/-- A directory is created in one that is there. -/
theorem grounded_of_createDirectory (created : t.createDirectory p = .ok t')
    (grounded : t.Grounded) : t'.Grounded := by
  have grown : Extends t t' := extends_of_createNode created
  obtain ⟨l, n, above, -, -, rfl⟩ := createDirectory_eq_ok created
  obtain ⟨-, before, es, -, way, -⟩ := resolveParent_eq_ok above
  have parent : t.node? l = some .directory := grounded.route way (grounded.origin p)
  refine ⟨fun {k m node} there => ?_, grown.node grounded.workingDirectory⟩
  rw [node?_put t (List.cons_ne_nil n l)] at there
  split at there
  · next new =>
    obtain ⟨-, rfl⟩ := List.cons.inj new
    exact grown.node parent
  · exact grown.node (grounded.above there)

/-! ## Empty directories -/

/-- Nothing stands in the directory at a location. -/
def Empty (t : FileTree) (d : Location) : Prop :=
  ∀ n, t.node? (n :: d) = none

/-- **Nothing leads on from an empty directory** but a step back. -/
theorem route_of_empty (empty : t.Empty d) (onward : .up ∉ cs) (way : t.Route d cs es m node) :
    m = d ∧ node = .directory := by
  induction way with
  | arrived l => exact ⟨rfl, rfl⟩
  | here _ ih => exact ih empty fun up => onward (List.mem_cons_of_mem _ up)
  | finalSlash _ ih => exact ih empty fun up => onward (List.mem_cons_of_mem _ up)
  | up => exact absurd List.mem_cons_self onward
  | enter _ there | file _ there | follow _ there => exact absurd ((empty _).symm.trans there) nofun

/-- A path that goes on from one that leads to an empty directory leads nowhere else. -/
theorem existing_of_empty (above : Path.Above q p) (reaches : t.Reaches q d es)
    (empty : t.Empty d) (onward : .up ∉ p.steps)
    (resolved : t.resolve p = .ok (.existing m node)) : m = d ∧ node = .directory := by
  obtain ⟨-, fs, way, -⟩ := resolve_eq_existing_iff.1 resolved
  obtain ⟨cs, steps⟩ := above.steps
  have begins : origin t.workingDirectory p = origin t.workingDirectory q := by
    rw [origin, origin, above.absolute]
  -- the steps of the path are those to the directory, and more
  obtain ⟨ds, components, level⟩ : ∃ ds, p.components = q.steps ++ ds ∧ .up ∉ ds := by
    rw [← steps] at onward
    have level : .up ∉ cs := fun up => onward (List.mem_append_right _ up)
    rw [Path.components, ← steps]
    split
    · exact ⟨cs ++ [.finalSlash], List.append_assoc .., by simp [level]⟩
    · exact ⟨cs, rfl, level⟩
  rw [begins, components] at way
  obtain ⟨gs, -, rest⟩ := reaches.way.append_iff.1 way
  exact route_of_empty empty level rest

/-- What was just created is an empty directory. -/
theorem empty_of_createDirectory (grounded : t.Grounded) (created : t.createDirectory p = .ok t') :
    ∃ d es, t'.Reaches p d es ∧ t'.Empty d := by
  obtain ⟨l, n, es, free, rfl, reaches⟩ := reaches_of_createDirectory created
  refine ⟨_, es, reaches, fun m => ?_⟩
  rw [node?_put t (List.cons_ne_nil n l), if_neg (by simp)]
  -- below nothing there is nothing
  cases there : t.node? (m :: n :: l) with
  | none => rfl
  | some node => exact absurd (free.symm.trans (grounded.above there)) nofun

/-- **What a creation of directories comes to** that succeeds, along paths without a step back: it
has changed nothing, or the first path leads to an empty directory. -/
theorem createFrom_cases {ps : List Path} (grounded : t.Grounded)
    (levels : ps.Pairwise fun q r => Path.Above r q) (onward : ∀ p ∈ ps, .up ∉ p.steps)
    (h : t.createFrom ps = (.ok (), t')) :
    t' = t ∨ ∃ p ∈ ps.head?, ∃ d es, t'.Reaches p d es ∧ t'.Empty d := by
  induction ps generalizing t' with
  | nil => exact .inl (Prod.mk.inj h).2.symm
  | cons p above ih =>
    obtain ⟨isAbove, levels⟩ := List.pairwise_cons.1 levels
    obtain ⟨onward, onwardAbove⟩ := List.forall_mem_cons.1 onward
    rw [createFrom] at h
    split at h
    · cases h
      exact .inl rfl
    split at h
    · next created =>
      cases h
      exact .inr ⟨p, rfl, empty_of_createDirectory grounded created⟩
    · split at h
      · cases h
      next t₁ createdAbove =>
      have grounded₁ : t₁.Grounded := by
        have kept := createFrom_keeps grounded_of_createDirectory grounded above
        rw [createdAbove] at kept
        exact kept
      split at h
      · next created =>
        cases h
        exact .inr ⟨p, rfl, empty_of_createDirectory grounded₁ created⟩
      · -- forgiven, if the path leads to a directory: the one that is there now
        split_ifs at h with found
        · cases h
          refine (ih levels onwardAbove createdAbove).imp_right ?_
          rintro ⟨q, there, d, es, reaches, empty⟩
          obtain ⟨m, resolved⟩ := isDirectory_iff.1 found
          obtain ⟨rfl, -⟩ := existing_of_empty (isAbove q (List.mem_of_mem_head? there)) reaches
            empty onward resolved
          obtain ⟨fs, reaches⟩ := resolve_eq_directory_iff.1 resolved
          exact ⟨p, rfl, _, fs, reaches, empty⟩
        · cases h
    · split_ifs at h with found
      · cases h
        exact .inl rfl
      · cases h

/-- **What a path leads to after the directories above it were created** it led to before, or it is
a directory, as long as the path takes no step back. -/
theorem resolve_of_created {above : Path} (grounded : t.Grounded) (parent : p.parent? = some above)
    (onward : .up ∉ p.steps) (created : t.createDirectories above = (.ok (), t₁))
    (resolved : t₁.resolve p = .ok (.existing m node)) :
    t.resolve p = .ok (.existing m node) ∨ node = .directory := by
  have isAbove : Path.Above above p :=
    Path.above_of_mem_levels (List.mem_of_mem_tail (List.mem_of_mem_head? parent))
  have onwardAbove : ∀ q ∈ above :: above.above, .up ∉ q.steps := by
    intro q there up
    have first : q.steps <+: above.steps := by
      obtain rfl | there := List.mem_cons.1 there
      · exact List.prefix_rfl
      · exact (Path.above_of_mem_levels (List.mem_of_mem_tail there)).steps
    exact onward (isAbove.steps.subset (first.subset up))
  -- if nothing was created the tree is the same; otherwise the last directory is new and empty
  obtain rfl | ⟨_, ⟨⟩, d, es, reaches, empty⟩ :=
    createFrom_cases grounded above.above_pairwise onwardAbove created
  · exact .inl resolved
  · exact .inr (existing_of_empty isAbove reaches empty onward resolved).2

/-- To write where no file stands adds to the tree. -/
theorem extends_of_writeFile {data : List UInt8} (written : t.writeFile p data = .ok t')
    (new : ∀ m old, t.resolve p ≠ .ok (.existing m (.file old))) : t.Extends t' := by
  obtain ⟨l, old, resolved, rfl⟩ | ⟨l, n, resolved, -, rfl⟩ := writeFile_eq_ok written
  · exact absurd (resolve_leads (leads_of_extends (.refl t)) rfl resolved) (new l old)
  · have free : t.node? (n :: l) = none := resolve_stands resolved
    refine ⟨fun {k node} there => ?_, rfl⟩
    rw [node?_put t (List.cons_ne_nil n l), if_neg, there]
    rintro rfl
    exact absurd (free.symm.trans there) nofun

end FileTree
end EmuScheduler
