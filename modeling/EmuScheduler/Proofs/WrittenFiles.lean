import EmuScheduler.Files.Operations
import Mathlib.Tactic.SplitIfs

/-!
# What is written to a file is read from it

After a file was written at a path, reading at that path gives what was written
(`readBytes_of_writeFile`), through whatever links the path leads; and adding to a tree changes no
file in it (`readBytes_of_extends`).

Both are about one walk in two trees. A walk depends on the directories and links on its way and on
what stands at its end, and `Leads` says that the second tree has the same way. That a write leaves
its own way as it was is where the end of the walk comes in: no walk goes on from the place where
the file is put, because a file or nothing stood there (`resolve_stands`).
-/

namespace EmuScheduler

/-- A walk goes on from a directory and from a link, but not from a file. -/
def Node.Leads : Node → Prop
  | .directory | .link _ => True
  | .file _ => False

/-- What a walk ends at stands there, or can be put there. -/
def Target.Stands (t : FileTree) : Target → Prop
  | .existing l n => n.Leads ∨ t.node? l = some n
  | .vacant l n => t.node? (n :: l) = none

namespace FileTree

variable {t t' : FileTree} {r r' : Target}

/-- What it takes for a walk that ends at `r` in the tree `t` to end at `r'` in the tree `t'`: the
way is still there, and at its end stands the same directory or a file. -/
structure Leads (t t' : FileTree) (r r' : Target) : Prop where
  way {l : Location} {n : Node} : t.node? l = some n → n.Leads → t'.node? l = some n
  directory {l : Location} : r = .existing l .directory → r' = r
  file {l : Location} {data : List UInt8} : t.node? l = some (.file data) →
    r = .existing l (.file data) →
    ∃ data', t'.node? l = some (.file data') ∧ r' = .existing l (.file data')
  vacant {l : Location} {n : Name} : t.node? (n :: l) = none → r = .vacant l n →
    ∃ data, t'.node? (n :: l) = some (.file data) ∧ r' = .existing (n :: l) (.file data)

section Walking

variable {purpose : Purpose} {follow follow' : Location → List Component → Except Cause Target}
  {l : Location} {n : Name} {cs : List Component}

/-- What a walk has met that took a step to a name and succeeded. -/
theorem walkWith_name (walked : t.walkWith purpose follow l (.name n :: cs) = .ok r) :
    n.length ≤ nameLimit ∧
      (t.node? (n :: l) = none ∧ cs = [] ∧ r = .vacant l n ∨
        t.node? (n :: l) = some .directory ∧ t.walkWith purpose follow (n :: l) cs = .ok r ∨
        (∃ data, t.node? (n :: l) = some (.file data) ∧ cs = [] ∧
          r = .existing (n :: l) (.file data)) ∨
        ∃ target, t.node? (n :: l) = some (.link target) ∧
          follow (origin l target) (target.components ++ cs) = .ok r) := by
  rw [walkWith] at walked
  split at walked
  · cases walked
  split at walked
  · cases walked
  next short =>
  refine ⟨Nat.le_of_not_lt short, ?_⟩
  split at walked
  · next node =>
    split at walked
    · next last => exact .inl ⟨node, List.isEmpty_iff.1 last, (Except.ok.inj walked).symm⟩
    · cases walked
  · next node =>
    right; left
    exact ⟨node, walked⟩
  · next data node =>
    split at walked
    · next last =>
      -- a file ends the way, so nothing may be left of it
      right; right; left
      exact ⟨data, node, List.isEmpty_iff.1 last, (Except.ok.inj walked).symm⟩
    · cases walked
  · next target node =>
    right; right; right
    exact ⟨target, node, walked⟩

/-- A walk to somewhere becomes a walk to where that leads in the other tree. -/
theorem walkWith_leads (h : Leads t t' r r')
    (follows : ∀ {l cs}, follow l cs = .ok r → follow' l cs = .ok r')
    (walked : t.walkWith purpose follow l cs = .ok r) :
    t'.walkWith .look follow' l cs = .ok r' := by
  induction cs generalizing l with
  | nil =>
    obtain rfl := Except.ok.inj walked
    rw [h.directory rfl]
    rfl
  | cons step cs ih =>
    cases step with
    | here => exact ih walked
    | finalSlash => exact ih walked
    | up => exact ih walked
    | name n =>
      obtain ⟨short, met⟩ := walkWith_name walked
      obtain ⟨node, rfl, rfl⟩ | ⟨node, walked⟩ | ⟨data, node, rfl, rfl⟩ | ⟨target, node, walked⟩ :=
        met
      · -- the name at the end was vacant, and is a file in the other tree
        obtain ⟨data, node', rfl⟩ := h.vacant node rfl
        simp [walkWith, Nat.not_lt.2 short, node']
      · simp [walkWith, Nat.not_lt.2 short, h.way node trivial, ih walked]
      · obtain ⟨data', node', rfl⟩ := h.file node rfl
        simp [walkWith, Nat.not_lt.2 short, node']
      · simp [walkWith, Nat.not_lt.2 short, h.way node trivial, follows walked]

/-- What a walk ends at stands there. -/
theorem walkWith_stands (follows : ∀ {l cs}, follow l cs = .ok r → r.Stands t)
    (walked : t.walkWith purpose follow l cs = .ok r) : r.Stands t := by
  induction cs generalizing l with
  | nil =>
    obtain rfl := Except.ok.inj walked
    exact .inl trivial
  | cons step cs ih =>
    cases step with
    | here => exact ih walked
    | finalSlash => exact ih walked
    | up => exact ih walked
    | name n =>
      -- a walk ends where nothing stands or at a file; everything else leads on
      obtain ⟨-, ⟨node, -, rfl⟩ | ⟨-, walked⟩ | ⟨data, node, -, rfl⟩ | ⟨target, -, walked⟩⟩ :=
        walkWith_name walked
      · exact node
      · exact ih walked
      · exact .inr node
      · exact follows walked

variable {links : Nat}

/-- A walk follows links one after the other, and is the same between two of them. -/
theorem walk_leads (h : Leads t t' r r') (walked : t.walk purpose links l cs = .ok r) :
    t'.walk .look links l cs = .ok r' := by
  induction links generalizing l cs with
  | zero => exact walkWith_leads h (by rintro _ _ ⟨⟩) walked
  | succ links ih => exact walkWith_leads h ih walked

/-- A walk ends at the root, at a vacant name, or at what stands there. -/
theorem walk_stands (walked : t.walk purpose links l cs = .ok r) : r.Stands t := by
  induction links generalizing l cs with
  | zero => exact walkWith_stands (by rintro _ _ ⟨⟩) walked
  | succ links ih => exact walkWith_stands ih walked

/-- So with the path as a whole. -/
theorem resolve_leads (h : Leads t t' r r') (same : t'.workingDirectory = t.workingDirectory)
    {p : Path} (resolved : t.resolveFor purpose p = .ok r) : t'.resolve p = .ok r' := by
  rw [resolve, resolveFor, same]
  rw [resolveFor] at resolved
  split at resolved
  · cases resolved
  · exact walk_leads h resolved

/-- What a path leads to stands there. -/
theorem resolve_stands {p : Path} (resolved : t.resolveFor purpose p = .ok r) : r.Stands t := by
  rw [resolveFor] at resolved
  split at resolved
  · cases resolved
  · exact walk_stands resolved

end Walking

/-! ## What is written is read -/

/-- To read is to follow the path to a file. -/
theorem readBytes_eq_ok_iff {p : Path} {data : List UInt8} :
    t.readBytes p = .ok data ↔ ∃ l, t.resolve p = .ok (.existing l (.file data)) := by
  unfold readBytes
  split <;> simp_all

/-- To write is to replace the file that the path leads to, or to create it. -/
theorem writeFile_eq_ok {p : Path} {data : List UInt8} (h : t.writeFile p data = .ok t') :
    (∃ l old, t.resolveFor .write p = .ok (.existing l (.file old)) ∧ t' = t.put l (.file data)) ∨
      ∃ l n, t.resolveFor .write p = .ok (.vacant l n) ∧ t.refused .create (n :: l) = none ∧
        t' = t.put (n :: l) (.file data) := by
  unfold writeFile at h
  split at h
  · next l old resolved => exact .inl ⟨l, old, resolved, (Except.ok.inj h).symm⟩
  · cases h
  · next l n resolved =>
    obtain ⟨free, rfl⟩ := permit_eq_ok_iff.1 h
    exact .inr ⟨l, n, resolved, free, rfl⟩
  · cases h

/-- From where a file is put no walk went on, so the way to it is still there. -/
theorem way_put {l k : Location} {n : Node} {data : List UInt8} (hl : l ≠ [])
    (free : ∀ n, t.node? l = some n → ¬n.Leads) (node : t.node? k = some n) (leads : n.Leads) :
    (t.put l (.file data)).node? k = some n := by
  rw [node?_put t hl, if_neg, node]
  rintro rfl
  exact free n node leads

/-- A write puts the file where its path leads then, and does nothing else. -/
theorem resolve_of_writeFile {p : Path} {data : List UInt8} (h : t.writeFile p data = .ok t') :
    ∃ l, l ≠ [] ∧ t' = t.put l (.file data) ∧ t'.resolve p = .ok (.existing l (.file data)) := by
  obtain ⟨l, old, resolved, rfl⟩ | ⟨l, n, resolved, -, rfl⟩ := writeFile_eq_ok h
  -- the file that stood at the end of the way is replaced
  · have node : t.node? l = some (.file old) := (resolve_stands resolved).resolve_left id
    have notRoot : l ≠ [] := fun eq => by simp [eq] at node
    refine ⟨l, notRoot, rfl, resolve_leads ⟨?_, ?_, ?_, ?_⟩ (workingDirectory_put ..) resolved⟩
    · exact way_put notRoot fun n node' => by simp_all [Node.Leads]
    · nofun
    · rintro _ _ - ⟨⟩
      exact ⟨data, by simp [node?_put t notRoot], rfl⟩
    · nofun
  -- nothing stood at the end of the way, and the file is put there
  · have node : t.node? (n :: l) = none := resolve_stands resolved
    have notRoot : n :: l ≠ [] := List.cons_ne_nil n l
    refine ⟨n :: l, notRoot, rfl, resolve_leads ⟨?_, ?_, ?_, ?_⟩ (workingDirectory_put ..) resolved⟩
    · exact way_put notRoot fun n node' => by simp_all
    · nofun
    · nofun
    · rintro _ _ - ⟨⟩
      exact ⟨data, by simp [node?_put t notRoot], rfl⟩

/-- **What was written is read back.** -/
theorem readBytes_of_writeFile {p : Path} {data : List UInt8} (h : t.writeFile p data = .ok t') :
    t'.readBytes p = .ok data := by
  obtain ⟨l, -, -, resolved⟩ := resolve_of_writeFile h
  exact readBytes_eq_ok_iff.2 ⟨l, resolved⟩

/-- Whether a file can be written does not depend on what is written. -/
theorem writeFile_ok {p : Path} {data : List UInt8} (h : t.writeFile p data = .ok t')
    (data' : List UInt8) : ∃ t'', t.writeFile p data' = .ok t'' := by
  unfold writeFile
  obtain ⟨l, old, resolved, -⟩ | ⟨l, n, resolved, free, -⟩ := writeFile_eq_ok h
  · exact ⟨_, by rw [resolved]⟩
  · -- a refusal to put something there would have met the first write too
    exact ⟨_, by rw [resolved]; exact permit_of_none free _⟩

/-! ## What is only added to -/

/-- Everything that stands in the first tree stands in the second. -/
structure Extends (t t' : FileTree) : Prop where
  node {l : Location} {n : Node} : t.node? l = some n → t'.node? l = some n
  workingDirectory : t'.workingDirectory = t.workingDirectory

theorem Extends.refl (t : FileTree) : Extends t t :=
  ⟨id, rfl⟩

theorem Extends.trans {t₁ t₂ t₃ : FileTree} (h : Extends t₁ t₂) (h' : Extends t₂ t₃) :
    Extends t₁ t₃ :=
  ⟨fun node => h'.node (h.node node), h'.workingDirectory.trans h.workingDirectory⟩

/-- A file that could be read is read as before when only more is there. -/
theorem readBytes_of_extends (h : Extends t t') {p : Path} {data : List UInt8}
    (read : t.readBytes p = .ok data) : t'.readBytes p = .ok data := by
  rw [readBytes_eq_ok_iff] at read ⊢
  obtain ⟨l, resolved⟩ := read
  refine ⟨l, resolve_leads ⟨?_, ?_, ?_, ?_⟩ h.workingDirectory resolved⟩
  · exact fun node _ => h.node node
  · nofun
  · rintro _ _ node ⟨⟩
    exact ⟨data, h.node node, rfl⟩
  · nofun

/-- To create a node adds it. -/
theorem extends_of_createNode {p : Path} {node : Node} (h : t.createNode p node = .ok t') :
    Extends t t' := by
  unfold createNode at h
  split at h
  · next l n _ =>
    split_ifs at h with long taken
    obtain ⟨-, rfl⟩ := permit_eq_ok_iff.1 h
    refine ⟨fun {k m} there => ?_, rfl⟩
    rw [node?_put t (List.cons_ne_nil n l), if_neg, there]
    rintro rfl
    exact taken (there ▸ rfl)
  · cases h
  · cases h

/-- What the creation of one directory keeps, the creation of those above it keeps too. -/
theorem createFrom_keeps {P : FileTree → Prop}
    (step : ∀ {t t' : FileTree} {p : Path}, t.createDirectory p = .ok t' → P t → P t')
    (h : P t) (ps : List Path) : P (t.createFrom ps).2 := by
  -- from the path up, until a directory above is there, and then down again
  induction ps with
  | nil => exact h
  | cons p above ih =>
    unfold createFrom
    split
    · exact h
    split
    · next created => exact step created h
    · split
      · next eq => exact eq ▸ ih
      · next t₁ eq =>
        rw [eq] at ih
        split
        · next created => exact step created ih
        · exact ih
    · exact h

/-- To create directories only adds to the tree. -/
theorem extends_createFrom (t : FileTree) (ps : List Path) : Extends t (t.createFrom ps).2 :=
  createFrom_keeps (fun created h => h.trans (extends_of_createNode created)) (.refl t) ps

theorem extends_createDirectories (t : FileTree) (p : Path) :
    Extends t (t.createDirectories p).2 :=
  extends_createFrom t (p :: p.above)

end FileTree
end EmuScheduler
