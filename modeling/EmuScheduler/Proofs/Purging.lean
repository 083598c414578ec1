import EmuScheduler.Proofs.EntryPaths
import EmuScheduler.Proofs.Extensions
import EmuScheduler.WorkingTree
import Mathlib.Data.List.Nodup

/-!
# What a purge removes

`purgeListing` goes along a listing and judges each entry in the tree that the removals before it
left. `taken` is what becomes of that: the names that it takes away, in their order. The three
things to know about them are

* each was an image to purge before the first removal (`isStale_of_taken`), because a tree from
  which something was erased has no file that was none before;
* after the last removal none is left (`not_isStale_taken`): what was passed over was no image when
  it was passed, and what was removed leads nowhere;
* no removal fails unless it is refused (`purgeListing_map_ok`). The directory itself is reached
  after each of them, which is not obvious, as its path may lead over links in itself; but never
  over one that leads to a file (`Reaches.clear`).

So a purge succeeds just when it reaches its directory and nothing that it asks for is refused
(`purge_eq_ok_iff`), and `purge_exact` says what it has done then. Names are assumed to be names
that entries of a file system can have, `FileTree.WellNamed`.
-/

namespace EmuScheduler
namespace FileTree

variable {t : FileTree} {d l : Location} {n : Name} {ns : List Name} {p : Path}
  {es fs : List Location}

/-- Every entry has a name that can be put to the path of its directory. -/
def WellNamed (t : FileTree) : Prop :=
  ∀ ⦃n : Name⦄ ⦃l : Location⦄ ⦃node : Node⦄, t.node? (n :: l) = some node → n.Proper

/-- At a location something is found if an entry has it. -/
theorem find?_ne_none_iff {es : List (Location × Node)} :
    find? l es ≠ none ↔ l ∈ es.map Prod.fst := by
  induction es with
  | nil => simp [find?]
  | cons e es ih =>
    rw [find?, List.map_cons, List.mem_cons]
    split
    · next same => simp [same]
    · next other => rw [ih, or_iff_right (Ne.symm other)]

theorem names_eq_filterMap : t.names d = (t.entries.map Prod.fst).filterMap fun
    | [] => none
    | n :: above => if above = d then some n else none := by
  rw [List.filterMap_map]
  rfl

/-- A directory lists what stands in it. -/
theorem mem_names : n ∈ t.names d ↔ t.node? (n :: d) ≠ none := by
  rw [node?_eq_find? (List.cons_ne_nil n d), find?_ne_none_iff, names_eq_filterMap,
    List.mem_filterMap]
  -- the names are those of the entries that stand right below the directory
  constructor
  · rintro ⟨l, there, eq⟩
    cases l with
    | nil => cases eq
    | cons k l =>
      simp only [Option.ite_none_right_eq_some, Option.some.injEq] at eq
      obtain ⟨rfl, rfl⟩ := eq
      exact there
  · intro there
    exact ⟨n :: d, there, by simp⟩

/-- No directory has two entries of one name. -/
theorem nodup_names : (t.names d).Nodup := by
  rw [names_eq_filterMap]
  refine List.Nodup.filterMap (fun l k n hl hk => ?_) t.distinct
  -- a name in the directory at `d` is the name of one location only
  have location {l : Location} (h : n ∈ match l with
      | [] => none
      | n :: above => if above = d then some n else none) : l = n :: d := by
    cases l with
    | nil => cases h
    | cons k l =>
      rw [Option.mem_def, Option.ite_none_right_eq_some, Option.some.injEq] at h
      obtain ⟨rfl, rfl⟩ := h
      rfl
  exact (location hl).trans (location hk).symm

/-- A tree is well named if its entries are, so it can be decided. -/
theorem wellNamed_iff : t.WellNamed ↔ ∀ e ∈ t.entries, ∀ n ∈ e.1.head?, n.Proper := by
  constructor
  · rintro named ⟨_ | ⟨n, l⟩, node⟩ there k ⟨⟩
    -- an entry in the list is found at its location, though it may be another one that is found
    have found : t.node? (n :: l) ≠ none := by
      rw [node?_eq_find? (List.cons_ne_nil n l), find?_ne_none_iff]
      exact List.mem_map_of_mem there
    obtain ⟨node', found⟩ := Option.ne_none_iff_exists'.1 found
    exact named found
  · intro proper n l node found
    have there : n :: l ∈ t.entries.map Prod.fst := by
      rw [← find?_ne_none_iff, ← node?_eq_find? (List.cons_ne_nil n l), found]
      exact Option.some_ne_none node
    obtain ⟨e, there, eq⟩ := List.mem_map.1 there
    exact proper e there n (by rw [eq]; rfl)

instance (t : FileTree) : Decidable t.WellNamed :=
  decidable_of_iff _ wellNamed_iff.symm

theorem WellNamed.proper (named : t.WellNamed) : ∀ n ∈ t.names d, n.Proper := by
  intro n there
  obtain ⟨node, found⟩ := Option.ne_none_iff_exists'.1 (mem_names.1 there)
  exact named found

/-- A part of a well named tree is well named. -/
theorem WellNamed.of_extends {t' : FileTree} (named : t.WellNamed) (h : Extends t' t) :
    t'.WellNamed :=
  fun _ _ _ found => named (h.node found)

/-- The tree without the entries of these names in the directory at `d`. -/
def eraseNames (t : FileTree) (d : Location) (ns : List Name) : FileTree :=
  ns.foldl (fun t n => t.erase (n :: d)) t

theorem eraseNames_cons : t.eraseNames d (n :: ns) = (t.erase (n :: d)).eraseNames d ns := rfl

theorem workingDirectory_eraseNames :
    (t.eraseNames d ns).workingDirectory = t.workingDirectory := by
  induction ns generalizing t with
  | nil => rfl
  | cons n ns ih => rw [eraseNames_cons, ih, workingDirectory_erase]

theorem refused_eraseNames : (t.eraseNames d ns).refused = t.refused := by
  induction ns generalizing t with
  | nil => rfl
  | cons n ns ih => rw [eraseNames_cons, ih, refused_erase]

/-- Only the names that are erased are gone. -/
theorem node?_eraseNames (l : Location) : (t.eraseNames d ns).node? l =
    if ∃ n ∈ ns, l = n :: d then none else t.node? l := by
  induction ns generalizing t with
  | nil => simp [eraseNames]
  | cons n ns ih =>
    rw [eraseNames_cons, ih, node?_erase t (List.cons_ne_nil n d)]
    by_cases first : l = n :: d <;> simp [first]

/-- Nothing is added by erasing. -/
theorem extends_eraseNames : Extends (t.eraseNames d ns) t := by
  induction ns generalizing t with
  | nil => exact .refl t
  | cons n ns ih => exact ih.trans (extends_erase (List.cons_ne_nil n d))

/-- An entry of the smaller tree is an entry of the larger one. -/
theorem names_of_extends {t' : FileTree} (h : Extends t t') (there : n ∈ t.names d) :
    n ∈ t'.names d := by
  obtain ⟨node, found⟩ := Option.ne_none_iff_exists'.1 (mem_names.1 there)
  rw [mem_names, h.node found]
  exact Option.some_ne_none node

/-- A listing without a failure tells the names of the directory. -/
theorem listing_eq_map_ok_iff :
    t.listing d = ns.map .ok ↔
      ns = t.names d ∧ ∀ n ∈ t.names d, t.refused .tell (n :: d) = none := by
  rw [listing]
  generalize t.names d = ks
  induction ks generalizing ns with
  | nil => simp
  | cons k ks ih =>
    cases ns with
    | nil => simp
    | cons n ns =>
      rw [List.map_cons, List.map_cons, List.cons.injEq, permit_eq_ok_iff, ih,
        List.forall_mem_cons, List.cons.injEq, eq_comm (a := k)]
      tauto

/-- A purge of the directory at `d` that takes away these entries is refused nothing. -/
structure Granted (t : FileTree) (d : Location) (gone : List Name) : Prop where
  list : t.refused .list d = none
  tell : ∀ n ∈ t.names d, t.refused .tell (n :: d) = none
  remove : ∀ n ∈ gone, t.refused .remove (n :: d) = none

/-- Who may remove some names may remove fewer. -/
theorem Granted.mono {gone gone' : List Name} (granted : t.Granted d gone)
    (subset : gone' ⊆ gone) : t.Granted d gone' :=
  { granted with remove := fun n there => granted.remove n (subset there) }

end FileTree

namespace WorkingTree

open FileTree

variable {t : FileTree} {p : Path} {extension : String} {d : Location} {es : List Location}
  {n : Name} {ns : List Name}

/-- An entry is stale if it leads to a file and has the extension. -/
theorem isStale_iff : isStale t p extension n = true ↔
    t.isFile (p.join ⟨n⟩) = true ∧ n.hasExtension extension = true := by
  rw [isStale, Bool.and_eq_true]

/-- What was a ROM image to purge in a part of the tree was one in the tree. -/
theorem isStale_of_extends {t' : FileTree} (h : Extends t t')
    (stale : isStale t p extension n = true) : isStale t' p extension n = true := by
  rw [isStale_iff] at stale ⊢
  exact stale.imp_left (isFile_of_extends h)

/-- The names that a purge of the directory at `d` takes away, in the order in which it does. -/
def taken (t : FileTree) (p : Path) (extension : String) (d : Location) : List Name → List Name
  | [] => []
  | n :: rest =>
    if isStale t p extension n then n :: taken (t.erase (n :: d)) p extension d rest
    else taken t p extension d rest

/-- What is taken is taken in the order of the listing. -/
theorem taken_sublist : (taken t p extension d ns).Sublist ns := by
  induction ns generalizing t with
  | nil => exact .slnil
  | cons n ns ih =>
    rw [taken]
    split
    · exact ih.cons_cons n
    · exact ih.cons n

/-- A purge that succeeds was told of every entry. -/
theorem told_of_purgeListing {entries : List (Except Cause Name)} {removed : List Path}
    {t' : FileTree} (purged : purgeListing t p extension entries = (.ok removed, t')) :
    ∃ ns : List Name, entries = ns.map .ok := by
  induction entries generalizing t removed with
  | nil => exact ⟨[], rfl⟩
  | cons entry entries ih =>
    cases entry with
    | error c => cases purged
    | ok n =>
      rw [purgeListing] at purged
      -- whether or not the entry is removed, the rest of the listing is purged with success
      have rest : ∃ t₁ removed₁, purgeListing t₁ p extension entries = (.ok removed₁, t') := by
        split at purged
        · split at purged
          · cases purged
          · split at purged
            · next later =>
              cases purged
              exact ⟨_, _, later⟩
            · cases purged
        · exact ⟨t, removed, purged⟩
      obtain ⟨t₁, removed₁, later⟩ := rest
      obtain ⟨ns, rfl⟩ := ih later
      exact ⟨n :: ns, rfl⟩

/-- A purge takes away what it names, one entry after the other, and only a refusal makes it
fail. -/
theorem purgeListing_map_ok {removed : List Path} {t' : FileTree} (reaches : t.Reaches p d es)
    (proper : ∀ n ∈ ns, n.Proper) :
    purgeListing t p extension (ns.map .ok) = (.ok removed, t') ↔
      (∀ n ∈ taken t p extension d ns, t.refused .remove (n :: d) = none) ∧
        removed = (taken t p extension d ns).map (fun n => p.join ⟨n⟩) ∧
        t' = t.eraseNames d (taken t p extension d ns) := by
  induction ns generalizing t removed with
  | nil => simp [purgeListing, taken, eraseNames, eq_comm]
  | cons n ns ih =>
    obtain ⟨proper_n, proper⟩ := List.forall_mem_cons.1 proper
    rw [List.map_cons, purgeListing, taken]
    split
    · -- the removal is an erasure, and after it the directory is still reached
      next stale =>
      obtain ⟨file, -⟩ := isStale_iff.1 stale
      obtain ⟨fs, leads⟩ := reaches.fileOver proper_n file
      rw [reaches.removeFile_join proper_n file, permit]
      cases refusal : t.refused .remove (n :: d) with
      | some c => simp [refusal]
      | none =>
        have later {removed : List Path} :=
          @ih (t.erase (n :: d)) removed (reaches.erase leads) proper
        dsimp only
        constructor
        · intro purged
          split at purged
          · next rest =>
            cases purged
            obtain ⟨free, rfl, rfl⟩ := later.1 rest
            exact ⟨List.forall_mem_cons.2 ⟨refusal, free⟩, rfl, rfl⟩
          · cases purged
        · rintro ⟨free, rfl, rfl⟩
          rw [later.2 ⟨(List.forall_mem_cons.1 free).2, rfl, rfl⟩]
          rfl
    · exact ih reaches proper

/-- Every directory is still reached, in particular the one from which images were taken. -/
theorem reaches_taken {q : Path} {m : Location} {fs : List Location} (extension : String)
    (reaches : t.Reaches p d es) (proper : ∀ n ∈ ns, n.Proper) (other : t.Reaches q m fs) :
    (t.eraseNames d (taken t p extension d ns)).Reaches q m fs := by
  induction ns generalizing t with
  | nil => exact other
  | cons n ns ih =>
    obtain ⟨proper_n, proper⟩ := List.forall_mem_cons.1 proper
    rw [taken]
    split
    · next stale =>
      obtain ⟨fs, leads⟩ := reaches.fileOver proper_n (isStale_iff.1 stale).1
      exact ih (reaches.erase leads) proper (other.erase leads)
    · exact ih reaches proper other

/-- What is taken away was an image to purge before the first removal. -/
theorem isStale_of_taken (h : n ∈ taken t p extension d ns) : isStale t p extension n = true := by
  induction ns generalizing t with
  | nil => cases h
  | cons k ns ih =>
    rw [taken] at h
    split at h
    · next stale =>
      obtain rfl | h := List.mem_cons.1 h
      · exact stale
      · exact isStale_of_extends (extends_erase (List.cons_ne_nil k d)) (ih h)
    · exact ih h

/-- After the last removal no entry is an image to purge. -/
theorem not_isStale_taken (extension : String) (reaches : t.Reaches p d es)
    (proper : ∀ n ∈ ns, n.Proper) (h : n ∈ ns) :
    isStale (t.eraseNames d (taken t p extension d ns)) p extension n = false := by
  induction ns generalizing t with
  | nil => cases h
  | cons k ns ih =>
    obtain ⟨proper_k, proper⟩ := List.forall_mem_cons.1 proper
    rw [taken]
    split
    · next stale =>
      obtain ⟨fs, leads⟩ := reaches.fileOver proper_k (isStale_iff.1 stale).1
      obtain rfl | h := List.mem_cons.1 h
      · -- a removed entry leads nowhere any more
        refine eq_false_of_ne_true fun stale' => ?_
        have still : isStale (t.erase (n :: d)) p extension n = true :=
          isStale_of_extends extends_eraseNames stale'
        have left := (reaches.isFile_erase_iff leads proper_k leads).1 (isStale_iff.1 still).1
        exact left.2 leads.self
      · exact ih (reaches.erase leads) proper h
    · -- what was no image when it was passed is none later, as the tree only shrinks
      next fresh =>
      obtain rfl | h := List.mem_cons.1 h
      · exact eq_false_of_ne_true fun stale' => fresh (isStale_of_extends extends_eraseNames stale')
      · exact ih reaches proper h

/-- Where nothing is to purge, nothing is taken away. -/
theorem taken_of_fresh (fresh : ∀ n ∈ ns, isStale t p extension n = false) :
    taken t p extension d ns = [] := by
  induction ns with
  | nil => rfl
  | cons n ns ih =>
    obtain ⟨fresh_n, fresh⟩ := List.forall_mem_cons.1 fresh
    rw [taken, if_neg (ne_true_of_eq_false fresh_n), ih fresh]

/-! ## A purge as a whole -/

variable {w : WorkingTree} {t' : FileTree} {removed : List Path}

/-- A purge succeeds just when it can reach its directory and is refused nothing. -/
theorem purge_eq_ok_iff (named : t.WellNamed) :
    w.purge t extension = (.ok removed, t') ↔ ∃ d es, t.Reaches w.temp d es ∧
      t.Granted d (taken t w.temp extension d (t.names d)) ∧
      removed = (taken t w.temp extension d (t.names d)).map (fun n => w.temp.join ⟨n⟩) ∧
      t' = t.eraseNames d (taken t w.temp extension d (t.names d)) := by
  rw [purge]
  constructor
  · intro purged
    split at purged
    · next entries listed =>
      rw [list] at listed
      split at listed
      · next d resolved =>
        obtain ⟨es, reaches⟩ := resolve_eq_directory_iff.1 resolved
        obtain ⟨listable, rfl⟩ := permit_eq_ok_iff.1 listed
        -- the purge gives up at the first entry that cannot be told, so every one was
        obtain ⟨ns, told⟩ := told_of_purgeListing purged
        obtain ⟨rfl, tell⟩ := listing_eq_map_ok_iff.1 told
        rw [told, purgeListing_map_ok reaches named.proper] at purged
        obtain ⟨remove, rfl, rfl⟩ := purged
        exact ⟨d, es, reaches, ⟨listable, tell, remove⟩, rfl, rfl⟩
      · cases listed
      · cases listed
      · cases listed
    · cases purged
  · rintro ⟨d, es, reaches, granted, rfl, rfl⟩
    rw [list, resolve_eq_directory_iff.2 ⟨es, reaches⟩]
    dsimp only
    rw [permit_of_none granted.list, listing_eq_map_ok_iff.2 ⟨rfl, granted.tell⟩]
    exact (purgeListing_map_ok reaches named.proper).2 ⟨granted.remove, rfl, rfl⟩

/-- From the directory at `d`, which the path `p` leads to, these entries were taken: each was an
image with the extension, none is left, and everything else is as it was. -/
structure TakesExactly (t t' : FileTree) (p : Path) (extension : String) (d : Location)
    (gone : List Name) : Prop where
  distinct : gone.Nodup
  image : ∀ n ∈ gone, n ∈ t.names d ∧ n.Bears extension ∧ t.isFile (p.join ⟨n⟩) = true
  noneLeft : ∀ n ∈ t'.names d, n.Bears extension → t'.isFile (p.join ⟨n⟩) = false
  elsewhere (l : Location) : t'.node? l = if ∃ n ∈ gone, l = n :: d then none else t.node? l
  workingDirectory : t'.workingDirectory = t.workingDirectory
  refused : t'.refused = t.refused

/-- A purge takes what is stale when its turn comes, and leaves nothing stale. -/
theorem takesExactly_taken (reaches : t.Reaches p d es) (named : t.WellNamed) :
    TakesExactly t (t.eraseNames d (taken t p extension d (t.names d))) p extension d
      (taken t p extension d (t.names d)) where
  distinct := nodup_names.sublist taken_sublist
  image n there := by
    obtain ⟨file, bears⟩ := isStale_iff.1 (isStale_of_taken there)
    exact ⟨taken_sublist.subset there, hasExtension_iff.1 bears, file⟩
  noneLeft n there bears := by
    have listed : n ∈ t.names d := names_of_extends extends_eraseNames there
    have fresh := not_isStale_taken extension reaches named.proper listed
    -- an entry that is left was looked at, and was not stale when its turn came
    refine eq_false_of_ne_true fun file => ?_
    rw [isStale_iff.2 ⟨file, hasExtension_iff.2 bears⟩] at fresh
    cases fresh
  elsewhere l := node?_eraseNames l
  workingDirectory := workingDirectory_eraseNames
  refused := refused_eraseNames

/-- **A purge removes exactly the images.** If it succeeds, the entries that it names are those of
its directory that had the extension and led to a file, nothing that is left has both, everything
else in the tree is as it was, and there is nothing to do for a second purge. -/
theorem purge_exact (named : t.WellNamed) (purged : w.purge t extension = (.ok removed, t')) :
    ∃ d gone, t.resolve w.temp = .ok (.existing d .directory) ∧
      removed = gone.map (fun n => w.temp.join ⟨n⟩) ∧
      TakesExactly t t' w.temp extension d gone ∧
      w.purge t' extension = (.ok [], t') := by
  obtain ⟨d, es, reaches, granted, rfl, rfl⟩ := (purge_eq_ok_iff named).1 purged
  refine ⟨d, _, resolve_eq_directory_iff.2 ⟨es, reaches⟩, rfl, takesExactly_taken reaches named, ?_⟩
  -- the directory is still reached, and what is left of its entries is not taken a second time
  have reaches' := reaches_taken extension reaches (named.proper (d := d)) reaches
  have listed {n : Name} : n ∈ (t.eraseNames d (taken t w.temp extension d (t.names d))).names d →
      n ∈ t.names d :=
    names_of_extends extends_eraseNames
  have nothing : taken (t.eraseNames d (taken t w.temp extension d (t.names d))) w.temp extension d
      ((t.eraseNames d (taken t w.temp extension d (t.names d))).names d) = [] :=
    taken_of_fresh fun n there => not_isStale_taken extension reaches named.proper (listed there)
  refine (purge_eq_ok_iff (named.of_extends extends_eraseNames)).2 ⟨d, es, reaches', ?_⟩
  rw [nothing]
  refine ⟨⟨?_, fun n there => ?_, fun n => nofun⟩, rfl, rfl⟩
  · rw [refused_eraseNames]
    exact granted.list
  · rw [refused_eraseNames]
    exact granted.tell n (listed there)

/-- A directory with images in several spellings, names that only look like theirs, a directory
named like an image, and links to an image in it, to a file outside and to nothing. -/
def cluttered : FileTree where
  entries :=
    let work : Name := (Path.ofString "work").bytes
    let temp : Location := [(Path.ofString "Temp").bytes, work]
    let entry (s : String) : Location := (Path.ofString s).bytes :: temp
    [([work], .directory), (temp, .directory),
      (entry "again.nds", .link (.ofString "old.nds")), (entry "old.nds", .file [1]),
      (entry "a.b.NdS", .file [2]), (entry ".nds", .file [3]), (entry "notes.txt", .file [4]),
      (entry "folder.nds", .directory), (entry "away.nds", .link (.ofString "/keep")),
      (entry "lost.nds", .link (.ofString "gone")), ([0x61, Path.dot, 0xFF] :: temp, .file [5]),
      ([(Path.ofString "keep").bytes], .file [6])]
  workingDirectory := []
  distinct := by decide +kernel

/-- The links to the image go, the one that is listed before it among them; the names that are no
images, the directory and the file outside stay. -/
theorem purge_exact_cluttered : cluttered.WellNamed ∧
    ∃ removed t', (below (.ofString "work")).purge cluttered "nds" = (.ok removed, t') ∧
      removed = ["work/Temp/again.nds", "work/Temp/old.nds", "work/Temp/a.b.NdS",
        "work/Temp/away.nds"].map Path.ofString ∧
      ∃ d gone, cluttered.resolve (below (.ofString "work")).temp = .ok (.existing d .directory) ∧
        removed = gone.map (fun n => (below (.ofString "work")).temp.join ⟨n⟩) ∧
        TakesExactly cluttered t' (below (.ofString "work")).temp "nds" d gone ∧
        (below (.ofString "work")).purge t' "nds" = (.ok [], t') := by
  have named : cluttered.WellNamed := by decide +kernel
  generalize run : (below (.ofString "work")).purge cluttered "nds" = result
  have removed : result.1 = .ok (["work/Temp/again.nds", "work/Temp/old.nds", "work/Temp/a.b.NdS",
      "work/Temp/away.nds"].map Path.ofString) := by
    rw [← run]
    decide +kernel
  obtain ⟨answer, t'⟩ := result
  obtain rfl : answer = _ := removed
  exact ⟨named, _, t', rfl, rfl, purge_exact named run⟩

end WorkingTree
end EmuScheduler
