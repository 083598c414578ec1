import EmuScheduler.Proofs.WrittenFiles
import Mathlib.Data.List.Basic

/-!
# The way that a walk takes

`FileTree.walk` computes where a path leads. Here its way is a relation: `t.Route l cs es m node`
says that from the directory at `l` the steps `cs` lead to the node at `m`, and that they name the
entries `es` on their way, in this order. The limit on links is no part of the relation. It is a
bound on how many of those entries are links, so that `walk_eq_existing_iff` splits a walk into a
way and a number.

The entries on the way are all that a walk depends on (`route_erase_iff`), and they depend on
nothing that is ahead: a way can be cut before any of its steps, where it is at a directory
(`Route.append_iff`, `Route.cut`), and where it passed an entry (`Route.from_entry`), and two ways
that begin alike go on alike, one of them until it ends at a file (`Route.meets`).
-/

namespace EmuScheduler
namespace FileTree

/-- From the directory at `l` the steps lead over the entries `es` to the node at `m`. -/
inductive Route (t : FileTree) :
    Location → List Component → List Location → Location → Node → Prop where
  | arrived (l : Location) : Route t l [] [] l .directory
  | here {l : Location} {cs : List Component} {es : List Location} {m : Location} {node : Node} :
    Route t l cs es m node → Route t l (.here :: cs) es m node
  | finalSlash {l : Location} {cs : List Component} {es : List Location} {m : Location}
    {node : Node} : Route t l cs es m node → Route t l (.finalSlash :: cs) es m node
  | up {l : Location} {cs : List Component} {es : List Location} {m : Location} {node : Node} :
    Route t l.tail cs es m node → Route t l (.up :: cs) es m node
  | enter {l : Location} {n : Name} {cs : List Component} {es : List Location} {m : Location}
    {node : Node} (short : n.length ≤ nameLimit) (there : t.node? (n :: l) = some .directory) :
    Route t (n :: l) cs es m node → Route t l (.name n :: cs) ((n :: l) :: es) m node
  | file {l : Location} {n : Name} {data : List UInt8} (short : n.length ≤ nameLimit)
    (there : t.node? (n :: l) = some (.file data)) :
    Route t l [.name n] [n :: l] (n :: l) (.file data)
  | follow {l : Location} {n : Name} {target : Path} {cs : List Component} {es : List Location}
    {m : Location} {node : Node} (short : n.length ≤ nameLimit)
    (there : t.node? (n :: l) = some (.link target)) :
    Route t (origin l target) (target.components ++ cs) es m node →
    Route t l (.name n :: cs) ((n :: l) :: es) m node

/-- Whether a link stands at a location. -/
def isLink (t : FileTree) (l : Location) : Bool :=
  match t.node? l with
  | some (.link _) => true
  | _ => false

/-- How many of the entries are links. -/
def linksOn (t : FileTree) (es : List Location) : Nat :=
  es.countP t.isLink

variable {t : FileTree} {l m : Location} {n : Name} {cs : List Component} {es : List Location}
  {node : Node} {k : Nat}

/-- A link is one. -/
theorem isLink_link {target : Path} (there : t.node? l = some (.link target)) :
    t.isLink l = true := by
  simp [isLink, there]

/-- A directory is no link. -/
theorem isLink_directory (there : t.node? l = some .directory) : t.isLink l = false := by
  simp [isLink, there]

/-- A file is no link. -/
theorem isLink_file {data : List UInt8} (there : t.node? l = some (.file data)) :
    t.isLink l = false := by
  simp [isLink, there]

/-! ## A walk is a way and a number -/

/-- A full stop leads nowhere else. -/
theorem walk_here : t.walk .look k l (.here :: cs) = t.walk .look k l cs := by
  cases k <;> rfl

theorem walk_finalSlash : t.walk .look k l (.finalSlash :: cs) = t.walk .look k l cs := by
  cases k <;> rfl

/-- Two of them lead to the directory above. -/
theorem walk_up : t.walk .look k l (.up :: cs) = t.walk .look k l.tail cs := by
  cases k <;> rfl

/-- A name leads into the directory of that name. -/
theorem walk_enter (short : n.length ≤ nameLimit) (there : t.node? (n :: l) = some .directory) :
    t.walk .look k l (.name n :: cs) = t.walk .look k (n :: l) cs := by
  cases k <;> simp [walk, walkWith, Nat.not_lt.2 short, there]

/-- A name leads to the file of that name, if it is the last step. -/
theorem walk_file {data : List UInt8} (short : n.length ≤ nameLimit)
    (there : t.node? (n :: l) = some (.file data)) :
    t.walk .look k l [.name n] = .ok (.existing (n :: l) (.file data)) := by
  cases k <;> simp [walk, walkWith, Nat.not_lt.2 short, there]

/-- A link leads to its target, and one link less may be followed from there. -/
theorem walk_follow {target : Path} (short : n.length ≤ nameLimit)
    (there : t.node? (n :: l) = some (.link target)) :
    t.walk .look (k + 1) l (.name n :: cs) =
      t.walk .look k (origin l target) (target.components ++ cs) := by
  simp [walk, walkWith, Nat.not_lt.2 short, there]

/-- A way is walked with as many links as it leads over. -/
theorem Route.walk (way : t.Route l cs es m node) (few : t.linksOn es ≤ k) :
    t.walk .look k l cs = .ok (.existing m node) := by
  induction way generalizing k with
  | arrived l => cases k <;> rfl
  | here _ ih => rw [walk_here, ih few]
  | finalSlash _ ih => rw [walk_finalSlash, ih few]
  | up _ ih => rw [walk_up, ih few]
  | enter short there _ ih =>
    rw [linksOn, List.countP_cons_of_neg (by simp [isLink_directory there])] at few
    rw [walk_enter short there, ih few]
  | file short there => exact walk_file short there
  | follow short there _ ih =>
    rw [linksOn, List.countP_cons_of_pos (isLink_link there)] at few
    -- one link is followed, so one may be
    obtain ⟨k, rfl⟩ : ∃ k', k = k' + 1 := ⟨k - 1, by omega⟩
    rw [walk_follow short there, ih (Nat.le_of_succ_le_succ few)]

/-- A walk that follows links by `follow` takes a way, if `follow` does. -/
theorem route_of_walkWith {follow : Location → List Component → Except Cause Target}
    (follows : ∀ {l cs}, follow l cs = .ok (.existing m node) →
      ∃ es, t.Route l cs es m node ∧ t.linksOn es + 1 ≤ k)
    (walked : t.walkWith .look follow l cs = .ok (.existing m node)) :
    ∃ es, t.Route l cs es m node ∧ t.linksOn es ≤ k := by
  induction cs generalizing l with
  | nil =>
    cases walked
    exact ⟨[], .arrived _, Nat.zero_le k⟩
  | cons step cs ih =>
    cases step with
    | here =>
      obtain ⟨es, way, few⟩ := ih walked
      exact ⟨es, .here way, few⟩
    | finalSlash =>
      obtain ⟨es, way, few⟩ := ih walked
      exact ⟨es, .finalSlash way, few⟩
    | up =>
      obtain ⟨es, way, few⟩ := ih walked
      exact ⟨es, .up way, few⟩
    | name n =>
      -- a name meets nothing, a directory, a file or a link, and only the last one is followed
      obtain ⟨short, met⟩ := walkWith_name walked
      obtain ⟨-, -, ⟨⟩⟩ | ⟨there, walked⟩ | ⟨data, there, rfl, ⟨⟩⟩ | ⟨target, there, walked⟩ := met
      · obtain ⟨es, way, few⟩ := ih walked
        refine ⟨(n :: l) :: es, .enter short there way, ?_⟩
        rwa [linksOn, List.countP_cons_of_neg (by simp [isLink_directory there])]
      · refine ⟨[n :: l], .file short there, ?_⟩
        simp [linksOn, isLink_file there]
      · obtain ⟨es, way, few⟩ := follows walked
        refine ⟨(n :: l) :: es, .follow short there way, ?_⟩
        rwa [linksOn, List.countP_cons_of_pos (isLink_link there)]

/-- A walk comes to what exists on a way that leads over as many links as it may follow. -/
theorem walk_eq_existing_iff : t.walk .look k l cs = .ok (.existing m node) ↔
    ∃ es, t.Route l cs es m node ∧ t.linksOn es ≤ k := by
  constructor
  · intro walked
    -- on the links that may be followed: after one of them the walk may follow one less
    induction k generalizing l cs with
    | zero => exact route_of_walkWith (by rintro _ _ ⟨⟩) walked
    | succ k ih =>
      refine route_of_walkWith (fun {l cs} walked => ?_) walked
      obtain ⟨es, way, few⟩ := ih walked
      exact ⟨es, way, Nat.succ_le_succ few⟩
  · rintro ⟨es, way, few⟩
    exact way.walk few

/-! ## What a way depends on -/

/-- Other locations keep their links. -/
theorem isLink_erase {e : Location} (notRoot : e ≠ []) (h : l ≠ e) :
    (t.erase e).isLink l = t.isLink l := by
  rw [isLink, isLink, node?_erase t notRoot, if_neg h]

/-- A way that does not pass the erased location has as many links as before. -/
theorem linksOn_erase {e : Location} (notRoot : e ≠ []) (clear : e ∉ es) :
    (t.erase e).linksOn es = t.linksOn es := by
  refine List.countP_congr fun l there => ?_
  rw [isLink_erase notRoot fun eq => clear (eq ▸ there)]

/-- When an entry is gone, the ways that are left are those that did not lead over it. -/
theorem route_erase_iff {e : Location} (notRoot : e ≠ []) :
    (t.erase e).Route l cs es m node ↔ t.Route l cs es m node ∧ e ∉ es := by
  -- what is found at an entry after the erasure was found there before it, and not at `e`
  have found {k : Location} {x : Node} :
      (t.erase e).node? k = some x ↔ t.node? k = some x ∧ e ≠ k := by
    rw [node?_erase t notRoot]
    by_cases eq : k = e
    · simp [eq]
    · simp [eq, Ne.symm eq]
  constructor
  · intro way
    induction way with
    | arrived l => exact ⟨.arrived l, List.not_mem_nil⟩
    | here _ ih => exact ⟨.here ih.1, ih.2⟩
    | finalSlash _ ih => exact ⟨.finalSlash ih.1, ih.2⟩
    | up _ ih => exact ⟨.up ih.1, ih.2⟩
    | enter short there _ ih =>
      obtain ⟨there, other⟩ := found.1 there
      exact ⟨.enter short there ih.1, List.not_mem_cons_of_ne_of_not_mem other ih.2⟩
    | file short there =>
      obtain ⟨there, other⟩ := found.1 there
      exact ⟨.file short there, List.not_mem_cons_of_ne_of_not_mem other List.not_mem_nil⟩
    | follow short there _ ih =>
      obtain ⟨there, other⟩ := found.1 there
      exact ⟨.follow short there ih.1, List.not_mem_cons_of_ne_of_not_mem other ih.2⟩
  · rintro ⟨way, clear⟩
    induction way with
    | arrived l => exact .arrived l
    | here _ ih => exact .here (ih clear)
    | finalSlash _ ih => exact .finalSlash (ih clear)
    | up _ ih => exact .up (ih clear)
    | enter short there _ ih =>
      obtain ⟨other, clear⟩ := List.ne_and_not_mem_of_not_mem_cons clear
      exact .enter short (found.2 ⟨there, other⟩) (ih clear)
    | file short there =>
      exact .file short (found.2 ⟨there, (List.ne_and_not_mem_of_not_mem_cons clear).1⟩)
    | follow short there _ ih =>
      obtain ⟨other, clear⟩ := List.ne_and_not_mem_of_not_mem_cons clear
      exact .follow short (found.2 ⟨there, other⟩) (ih clear)

/-! ## Cutting ways and comparing them -/

variable {cs' : List Component} {es' : List Location} {m' : Location} {node' : Node}

/-- What a way has met that takes a step to a name. -/
theorem route_name (way : t.Route l (.name n :: cs) es m node) :
    n.length ≤ nameLimit ∧ ∃ fs, es = (n :: l) :: fs ∧
      (t.node? (n :: l) = some .directory ∧ t.Route (n :: l) cs fs m node ∨
        (∃ data, t.node? (n :: l) = some (.file data) ∧ cs = [] ∧ fs = [] ∧ m = n :: l ∧
          node = .file data) ∨
        ∃ target, t.node? (n :: l) = some (.link target) ∧
          t.Route (origin l target) (target.components ++ cs) fs m node) := by
  cases way with
  | enter short there way =>
    refine ⟨short, _, rfl, ?_⟩
    left
    exact ⟨there, way⟩
  | file short there =>
    refine ⟨short, _, rfl, ?_⟩
    right; left
    exact ⟨_, there, rfl, rfl, rfl, rfl⟩
  | follow short there way =>
    refine ⟨short, _, rfl, ?_⟩
    right; right
    exact ⟨_, there, way⟩

/-- The way on from a directory that was entered. -/
theorem route_enter (there : t.node? (n :: l) = some .directory)
    (way : t.Route l (.name n :: cs) es m node) :
    ∃ fs, es = (n :: l) :: fs ∧ t.Route (n :: l) cs fs m node := by
  obtain ⟨-, fs, rfl, ⟨-, way⟩ | ⟨data, there', -⟩ | ⟨target, there', -⟩⟩ := route_name way
  · exact ⟨fs, rfl, way⟩
  · cases there.symm.trans there'
  · cases there.symm.trans there'

/-- The way on from a link that was followed. -/
theorem route_follow {target : Path} (there : t.node? (n :: l) = some (.link target))
    (way : t.Route l (.name n :: cs) es m node) :
    ∃ fs, es = (n :: l) :: fs ∧ t.Route (origin l target) (target.components ++ cs) fs m node := by
  obtain ⟨-, fs, rfl, ⟨there', -⟩ | ⟨data, there', -⟩ | ⟨target', there', way⟩⟩ := route_name way
  · cases there.symm.trans there'
  · cases there.symm.trans there'
  · cases there.symm.trans there'
    exact ⟨fs, rfl, way⟩

/-- A way that goes on where a directory was reached leads over what leads to the directory, and
then over what leads on from it. -/
theorem Route.append_iff (way : t.Route l cs es m .directory) :
    t.Route l (cs ++ cs') es' m' node' ↔ ∃ fs, es' = es ++ fs ∧ t.Route m cs' fs m' node' := by
  generalize eq : Node.directory = last at way
  -- along the first way, of which the second takes the same steps, and never at a file, as it ends
  -- at a directory
  induction way generalizing es' with
  | arrived l => simp
  | here _ ih =>
    rw [← ih eq]
    exact ⟨fun | .here way => way, .here⟩
  | finalSlash _ ih =>
    rw [← ih eq]
    exact ⟨fun | .finalSlash way => way, .finalSlash⟩
  | up _ ih =>
    rw [← ih eq]
    exact ⟨fun | .up way => way, .up⟩
  | enter short there _ ih =>
    constructor
    · intro way
      obtain ⟨fs, rfl, onward⟩ := route_enter there way
      obtain ⟨gs, rfl, rest⟩ := (ih eq).1 onward
      exact ⟨gs, rfl, rest⟩
    · rintro ⟨fs, rfl, way⟩
      exact .enter short there ((ih eq).2 ⟨fs, rfl, way⟩)
  | file => cases eq
  | follow short there _ ih =>
    rw [List.append_assoc] at ih
    constructor
    · intro way
      obtain ⟨fs, rfl, onward⟩ := route_follow there way
      obtain ⟨gs, rfl, rest⟩ := (ih eq).1 onward
      exact ⟨gs, rfl, rest⟩
    · rintro ⟨fs, rfl, way⟩
      exact .follow short there ((ih eq).2 ⟨fs, rfl, way⟩)

/-- A way that has steps left is at a directory. -/
theorem Route.cut (way : t.Route l (cs ++ cs') es m node) (more : cs' ≠ []) :
    ∃ d fs gs, es = fs ++ gs ∧ t.Route l cs fs d .directory ∧ t.Route d cs' gs m node := by
  generalize eq : cs ++ cs' = ahead at way
  -- along the whole way, until the steps before the cut are used up
  induction way generalizing cs with
  | arrived l => exact absurd (List.append_eq_nil_iff.1 eq).2 more
  | here way ih =>
    cases cs with
    | nil => exact ⟨_, [], _, rfl, .arrived _, (show cs' = _ from eq) ▸ .here way⟩
    | cons c cs =>
      obtain ⟨rfl, rfl⟩ := List.cons.inj eq
      obtain ⟨d, fs, gs, parts, before, after⟩ := ih rfl
      exact ⟨d, fs, gs, parts, .here before, after⟩
  | finalSlash way ih =>
    cases cs with
    | nil => exact ⟨_, [], _, rfl, .arrived _, (show cs' = _ from eq) ▸ .finalSlash way⟩
    | cons c cs =>
      obtain ⟨rfl, rfl⟩ := List.cons.inj eq
      obtain ⟨d, fs, gs, parts, before, after⟩ := ih rfl
      exact ⟨d, fs, gs, parts, .finalSlash before, after⟩
  | up way ih =>
    cases cs with
    | nil => exact ⟨_, [], _, rfl, .arrived _, (show cs' = _ from eq) ▸ .up way⟩
    | cons c cs =>
      obtain ⟨rfl, rfl⟩ := List.cons.inj eq
      obtain ⟨d, fs, gs, parts, before, after⟩ := ih rfl
      exact ⟨d, fs, gs, parts, .up before, after⟩
  | enter short there way ih =>
    cases cs with
    | nil => exact ⟨_, [], _, rfl, .arrived _, (show cs' = _ from eq) ▸ .enter short there way⟩
    | cons c cs =>
      obtain ⟨rfl, rfl⟩ := List.cons.inj eq
      obtain ⟨d, fs, gs, rfl, before, after⟩ := ih rfl
      exact ⟨d, _ :: fs, gs, rfl, .enter short there before, after⟩
  | file short there =>
    cases cs with
    | nil => exact ⟨_, [], _, rfl, .arrived _, (show cs' = _ from eq) ▸ .file short there⟩
    | cons c cs =>
      obtain ⟨rfl, rest⟩ := List.cons.inj eq
      exact absurd (List.append_eq_nil_iff.1 rest).2 more
  | follow short there way ih =>
    cases cs with
    | nil => exact ⟨_, [], _, rfl, .arrived _, (show cs' = _ from eq) ▸ .follow short there way⟩
    | cons c cs =>
      obtain ⟨rfl, rfl⟩ := List.cons.inj eq
      obtain ⟨d, fs, gs, rfl, before, after⟩ := ih (List.append_assoc ..)
      exact ⟨d, _ :: fs, gs, rfl, .follow short there before, after⟩

/-- A way passed every entry that it leads over: from there on it is the rest of itself. -/
theorem Route.from_entry {d : Location} (way : t.Route l cs es m node) (passes : n :: d ∈ es) :
    ∃ cs' es', es' <:+ es ∧ t.Route d (.name n :: cs') es' m node := by
  induction way with
  | arrived l => cases passes
  | here _ ih => exact ih passes
  | finalSlash _ ih => exact ih passes
  | up _ ih => exact ih passes
  | enter short there way ih =>
    obtain eq | passes := List.mem_cons.1 passes
    · -- here the way passes the entry, and what is left of it begins there
      cases eq
      exact ⟨_, _, List.suffix_rfl, .enter short there way⟩
    · obtain ⟨cs', es', rest, way⟩ := ih passes
      exact ⟨cs', es', rest.trans (List.suffix_cons ..), way⟩
  | file short there =>
    cases List.mem_singleton.1 passes
    exact ⟨[], _, List.suffix_rfl, .file short there⟩
  | follow short there way ih =>
    obtain eq | passes := List.mem_cons.1 passes
    · cases eq
      exact ⟨_, _, List.suffix_rfl, .follow short there way⟩
    · obtain ⟨cs', es', rest, way⟩ := ih passes
      exact ⟨cs', es', rest.trans (List.suffix_cons ..), way⟩

/-- Where a way ends at a file, every way that begins like it ends there too, on the same entries:
no step leads on from a file. -/
theorem Route.meets (way : t.Route l cs es m node) (regular : node ≠ .directory)
    (way' : t.Route l (cs ++ cs') es' m' node') :
    cs' = [] ∧ es' = es ∧ m' = m ∧ node' = node := by
  -- along the way to the file; what is found on the other one is the same as long as both go on
  induction way generalizing es' with
  | arrived l => exact absurd rfl regular
  | here _ ih =>
    cases way' with
    | here way' => exact ih regular way'
  | finalSlash _ ih =>
    cases way' with
    | finalSlash way' => exact ih regular way'
  | up _ ih =>
    cases way' with
    | up way' => exact ih regular way'
  | enter short there _ ih =>
    obtain ⟨fs, rfl, onward⟩ := route_enter there way'
    obtain ⟨rfl, rfl, rfl, rfl⟩ := ih regular onward
    exact ⟨rfl, rfl, rfl, rfl⟩
  | file short there =>
    obtain ⟨-, fs, rfl, ⟨there', -⟩ | ⟨data, there', last, rfl, rfl, rfl⟩ | ⟨target, there', -⟩⟩ :=
      route_name way'
    · cases there.symm.trans there'
    · cases there.symm.trans there'
      exact ⟨last, rfl, rfl, rfl⟩
    · cases there.symm.trans there'
  | follow short there _ ih =>
    obtain ⟨fs, rfl, onward⟩ := route_follow there way'
    rw [List.append_assoc] at ih
    obtain ⟨rfl, rfl, rfl, rfl⟩ := ih regular onward
    exact ⟨rfl, rfl, rfl, rfl⟩

/-- A way to a file is the only one. -/
theorem Route.unique (way : t.Route l cs es m node) (regular : node ≠ .directory)
    (way' : t.Route l cs es' m' node') : es' = es := by
  rw [← List.append_nil cs] at way'
  exact (way.meets regular way').2.1

end FileTree
end EmuScheduler
