import EmuScheduler.Proofs.Purging

/-!
# Directories that were created

A creation of directories that succeeds has made a directory of every path that it was given
(`isDirectory_of_createDirectories`), whether it created it, found it, or was forgiven because the
path leads to one all the same. What it adds has names that paths can take a step to
(`wellNamed_of_createDirectory`), and it changes nothing else (`extends_createDirectories`).

A working tree is created path by path. What one creation of a directory keeps, all of them keep
(`createEach_keeps`): trees only grow on the way (`extends_createEach`), so what was made a
directory early stays one (`isDirectory_createEach`).
-/

namespace EmuScheduler

namespace Path

variable {p : Path} {n : Name}

/-- The pieces of a path have no slash in them. -/
theorem whole_of_mem_pieces {bs piece : List UInt8} (there : piece ∈ pieces bs) :
    slash ∉ piece := by
  induction bs generalizing piece with
  | nil =>
    cases List.mem_singleton.1 there
    exact List.not_mem_nil
  | cons b bs ih =>
    rw [pieces_cons] at there
    split at there
    · obtain rfl | there := List.mem_cons.1 there
      · exact List.not_mem_nil
      · exact ih there
    · next other =>
      obtain rfl | there := List.mem_cons.1 there
      · -- the byte is put to the first of the pieces behind it
        have first : slash ∉ (pieces bs).headD [] := by
          cases parts : pieces bs with
          | nil => exact List.not_mem_nil
          | cons piece others =>
            refine ih ?_
            rw [parts]
            exact List.mem_cons_self
        exact List.not_mem_cons_of_ne_of_not_mem (Ne.symm other) first
      · exact ih (List.mem_of_mem_tail there)

/-- A step to a name takes a name that an entry can have. -/
theorem proper_of_mem_steps (there : .name n ∈ p.steps) : n.Proper := by
  obtain ⟨piece, mem, step⟩ := List.mem_filterMap.1 there
  -- of the pieces of a path, the empty one and the two with dots are steps of their own
  unfold component? at step
  split at step
  · cases step
  next nonempty =>
  split at step
  · cases step
  next here =>
  split at step
  · cases step
  next up =>
  obtain rfl : piece = n := Component.name.inj (Option.some.inj step)
  exact ⟨nonempty, here, up, whole_of_mem_pieces mem⟩

end Path

namespace FileTree

variable {t t' : FileTree} {p : Path} {l : Location} {n : Name} {last : Component}

/-- The steps of a path but the last one lead to the directory that the last one is taken in. -/
theorem resolveParent_eq_ok (h : t.resolveParent p = .ok (some (l, last))) :
    refusal? p = none ∧ ∃ before es, p.steps = before ++ [last] ∧
      t.Route (origin t.workingDirectory p) before es l .directory ∧ t.linksOn es ≤ linkLimit := by
  unfold resolveParent at h
  split at h
  · cases h
  next accepted =>
  refine ⟨accepted, ?_⟩
  split at h
  · cases h
  next final before steps =>
  split at h
  · -- the steps before the last one were read from their end
    next d walked =>
    cases h
    obtain ⟨es, way, few⟩ := walk_eq_existing_iff.1 walked
    refine ⟨before.reverse, es, ?_, way, few⟩
    rw [← List.reverse_reverse p.steps, steps, List.reverse_cons]
  · cases h
  · cases h
  · cases h

/-- A directory is created in the directory that the last step is taken in, where nothing has its
name. -/
theorem createDirectory_eq_ok (h : t.createDirectory p = .ok t') :
    ∃ l n, t.resolveParent p = .ok (some (l, .name n)) ∧ n.length ≤ nameLimit ∧
      t.node? (n :: l) = none ∧ t' = t.put (n :: l) .directory := by
  unfold createDirectory createNode at h
  split at h
  · next l n above =>
    -- the name is short enough, and nothing has it yet
    split_ifs at h with long taken
    obtain ⟨-, rfl⟩ := permit_eq_ok_iff.1 h
    exact ⟨l, n, above, Nat.le_of_not_lt long, by simpa using taken, rfl⟩
  · cases h
  · cases h

/-- The path of a directory that was just created leads to it. -/
theorem reaches_of_createDirectory (h : t.createDirectory p = .ok t') :
    ∃ l n es, t.node? (n :: l) = none ∧ t' = t.put (n :: l) .directory ∧
      t'.Reaches p (n :: l) es := by
  have grown : Extends t t' := extends_of_createNode h
  obtain ⟨l, n, above, short, free, rfl⟩ := createDirectory_eq_ok h
  obtain ⟨accepted, before, es, steps, way, few⟩ := resolveParent_eq_ok above
  -- the way to the directory that it is in is still there
  have walked : (t.put (n :: l) .directory).walk .look linkLimit
      (origin t.workingDirectory p) before = .ok (.existing l .directory) :=
    walk_leads (leads_of_extends grown) (way.walk few)
  obtain ⟨es, way, few⟩ := walk_eq_existing_iff.1 walked
  have there : (t.put (n :: l) .directory).node? (n :: l) = some .directory := by
    rw [node?_put t (List.cons_ne_nil n l), if_pos rfl]
  -- the last step enters the new directory, and no link is on it
  refine ⟨l, n, es ++ [n :: l], free, rfl, accepted, ?_, ?_⟩
  · rw [steps]
    exact way.append_iff.2 ⟨_, rfl, .enter short there (.arrived _)⟩
  · simpa [linksOn, isLink_directory there] using few

/-- What was just created is a directory for whoever asks. -/
theorem isDirectory_of_createDirectory (h : t.createDirectory p = .ok t') :
    t'.isDirectory p = true := by
  obtain ⟨l, n, es, -, -, reaches⟩ := reaches_of_createDirectory h
  exact isDirectory_iff.2 ⟨_, resolve_eq_directory_iff.2 ⟨_, reaches⟩⟩

/-- A new directory has the name that the path gives it, which is one that a path can step to. -/
theorem wellNamed_of_createDirectory (h : t.createDirectory p = .ok t') (named : t.WellNamed) :
    t'.WellNamed := by
  obtain ⟨l, n, above, -, -, rfl⟩ := createDirectory_eq_ok h
  obtain ⟨-, before, -, steps, -⟩ := resolveParent_eq_ok above
  intro k m node found
  rw [node?_put t (List.cons_ne_nil n l)] at found
  split_ifs at found with new
  · obtain ⟨rfl, rfl⟩ := List.cons.inj new
    exact Path.proper_of_mem_steps (p := p) (by simp [steps])
  · exact named found

/-- A creation that succeeds has made a directory of the path. -/
theorem isDirectory_of_createFrom {above : List Path} (written : p.isEmpty = false)
    (h : t.createFrom (p :: above) = (.ok (), t')) : t'.isDirectory p = true := by
  -- either the directory was created at once, or after those above it
  rw [createFrom, if_neg (by simp [written])] at h
  split at h
  · next created =>
    cases h
    exact isDirectory_of_createDirectory created
  · split at h
    · cases h
    · split at h
      · next created =>
        cases h
        exact isDirectory_of_createDirectory created
      · -- forgiven, if the path leads to a directory after all
        split_ifs at h with found
        · cases h
          exact found
        · cases h
  · split_ifs at h with found
    · cases h
      exact found
    · cases h

/-- The same with those above it. -/
theorem isDirectory_of_createDirectories (written : p.isEmpty = false)
    (h : t.createDirectories p = (.ok (), t')) : t'.isDirectory p = true :=
  isDirectory_of_createFrom written h

end FileTree

namespace WorkingTree

open FileTree

variable {t t' : FileTree} {p : Path} {ps : List Path}

/-- None of the paths of a working tree is empty if that of its root is not. -/
theorem written_directories {root : Path} (written : root.isEmpty = false) :
    ∀ p ∈ (below root).directories, p.isEmpty = false := by
  have entry (n : Name) (proper : n.Proper) := Path.isEmpty_join root proper
  simp only [directories, below, List.forall_mem_cons, List.not_mem_nil, false_imp_iff,
    implies_true, and_true]
  exact ⟨written, entry _ (by decide), entry _ (by decide), entry _ (by decide),
    entry _ (by decide)⟩

/-- What the creation of one directory keeps, the creation of several with those above them keeps
too, whether it succeeds or not. -/
theorem createEach_keeps {P : FileTree → Prop}
    (step : ∀ {t t' : FileTree} {p : Path}, t.createDirectory p = .ok t' → P t → P t')
    (h : P t) (ps : List Path) : P (createEach t ps).2 := by
  induction ps generalizing t with
  | nil => exact h
  | cons p ps ih =>
    have kept : P (t.createDirectories p).2 := createFrom_keeps step h _
    rw [createEach]
    split
    · next created =>
      rw [created] at kept
      exact ih kept
    · next failed =>
      rw [failed] at kept
      exact kept

/-- Trees only grow as directories are created. -/
theorem extends_createEach (t : FileTree) (ps : List Path) : Extends t (createEach t ps).2 :=
  createEach_keeps (fun created h => h.trans (extends_of_createNode created)) (.refl t) ps

/-- The names stay such that paths can step to them. -/
theorem wellNamed_createEach (named : t.WellNamed) (ps : List Path) :
    (createEach t ps).2.WellNamed :=
  createEach_keeps wellNamed_of_createDirectory named ps

/-- What was made a directory early is one in the end. -/
theorem isDirectory_createEach (written : ∀ p ∈ ps, p.isEmpty = false)
    (h : createEach t ps = (.ok (), t')) : ∀ p ∈ ps, t'.isDirectory p = true := by
  induction ps generalizing t with
  | nil => exact nofun
  | cons p ps ih =>
    obtain ⟨written_p, written⟩ := List.forall_mem_cons.1 written
    rw [createEach] at h
    split at h
    · next t₁ created =>
      -- the others are created in what the first has left, which they only add to
      have grown := extends_createEach t₁ ps
      rw [h] at grown
      exact List.forall_mem_cons.2 ⟨isDirectory_of_extends grown
        (isDirectory_of_createDirectories written_p created), ih written h⟩
    · cases h

end WorkingTree
end EmuScheduler
