import EmuScheduler.Proofs.Purging

/-!
# The order of a purge

A purge judges an entry after it has removed others, and a link among the entries may lead over
another one: when that one is gone, the link is no image any more and stays. Which entries are
removed therefore depends on the order in which the directory is listed, and `Needs` says when.

An entry that leads to a file has one way to it, and it needs the entries on this way
(`Reaches.needs_iff`). The way of an entry that is needed is the end of the way of the one that
needs it, so what that one needs is needed too (`FileEntry.needs_trans`), and it does not matter
whether a needed entry has been removed or has lost what it needs. So an image is removed just when
none that it needs stands before it in the listing (`mem_taken_iff`), and the order is without
effect just when no image needs another (`purge_order`).

All this is about the entries. What the file system refuses only decides whether a purge succeeds,
so what `purge_order` says of a purge that succeeds needs no assumption about it.
-/

namespace EmuScheduler
namespace FileTree

variable {t t₁ : FileTree} {p : Path} {d l : Location} {n m k : Name} {es fs gs : List Location}
  {node : Node}

/-! ## What needs what -/

/-- An entry that is a file or leads to one. -/
structure FileEntry (t : FileTree) (p : Path) (n : Name) : Prop where
  proper : n.Proper
  file : t.isFile (p.join ⟨n⟩) = true

/-- In the directory that `p` leads to, the entry `m` leads to a file only as long as the entry `n`
is there. -/
def Needs (t : FileTree) (p : Path) (m n : Name) : Prop :=
  ∃ d, t.resolve p = .ok (.existing d .directory) ∧
    (t.erase (n :: d)).isFile (p.join ⟨m⟩) = false

/-- An entry that is a file leads to one. -/
theorem FileEntry.fileOver (h : t.FileEntry p n) (reaches : t.Reaches p d es) :
    ∃ fs, t.FileOver d n fs :=
  reaches.fileOver h.proper h.file

/-- An entry leads to a file without another just when it does not need it. -/
theorem Reaches.isFile_without_iff (reaches : t.Reaches p d es) :
    (t.erase (n :: d)).isFile (p.join ⟨m⟩) = true ↔ ¬t.Needs p m n := by
  rw [Needs, resolve_eq_directory_iff.2 ⟨es, reaches⟩]
  simp

/-- An entry needs those that its way leads over. -/
theorem FileEntry.needs_iff (h : t.FileEntry p n) (h' : t.FileEntry p m)
    (reaches : t.Reaches p d es) (leads : t.FileOver d m gs) : t.Needs p m n ↔ n :: d ∈ gs := by
  obtain ⟨fs, leads_n⟩ := h.fileOver reaches
  rw [← not_iff_not, ← reaches.isFile_without_iff,
    reaches.isFile_erase_iff leads_n h'.proper leads, and_iff_right h'.file]

/-- What is needed by something that is needed is needed. -/
theorem FileEntry.needs_trans (h : t.FileEntry p n) (h' : t.FileEntry p m) (h'' : t.FileEntry p k)
    (reaches : t.Reaches p d es) (needs : t.Needs p m n) (needs' : t.Needs p n k) :
    t.Needs p m k := by
  obtain ⟨fs, leads⟩ := h.fileOver reaches
  obtain ⟨gs, leads'⟩ := h'.fileOver reaches
  rw [h.needs_iff h' reaches leads'] at needs
  rw [h''.needs_iff h reaches leads] at needs'
  rw [h''.needs_iff h' reaches leads']
  -- the way over `n` ends with the way of `n`
  exact (leads'.suffix leads needs).subset needs'

/-- Where less is there nothing else becomes a file. -/
theorem FileEntry.of_erase (h : (t.erase (n :: d)).FileEntry p m) : t.FileEntry p m :=
  ⟨h.proper, isFile_of_extends (extends_erase (List.cons_ne_nil n d)) h.file⟩

/-- What is left when an entry is gone needs what it needed before. -/
theorem FileEntry.needs_erase_iff (h : t.FileEntry p n) (reaches : t.Reaches p d es)
    (left : (t.erase (n :: d)).FileEntry p m) (left' : (t.erase (n :: d)).FileEntry p k) :
    (t.erase (n :: d)).Needs p m k ↔ t.Needs p m k := by
  obtain ⟨fs, leads⟩ := h.fileOver reaches
  obtain ⟨gs, leads_m⟩ := left.fileOver (reaches.erase leads)
  rw [left'.needs_iff left (reaches.erase leads) leads_m, left'.of_erase.needs_iff left.of_erase
    reaches ((fileOver_erase_iff (List.cons_ne_nil n d)).1 leads_m).1]

/-! ## Listings in other orders -/

/-- The same tree with its entries listed in another order. -/
structure Relisted (t t₁ : FileTree) : Prop where
  entries : t₁.entries.Perm t.entries
  workingDirectory : t₁.workingDirectory = t.workingDirectory
  refused : t₁.refused = t.refused

theorem Relisted.refl (t : FileTree) : Relisted t t :=
  ⟨.refl _, rfl, rfl⟩

/-- To be the same but for the order is symmetric. -/
theorem Relisted.symm (h : Relisted t t₁) : Relisted t₁ t :=
  ⟨h.entries.symm, h.workingDirectory.symm, h.refused.symm⟩

/-- What is found at a location is what stands there. -/
theorem find?_eq_some_iff {es : List (Location × Node)} (distinct : (es.map Prod.fst).Nodup) :
    find? l es = some node ↔ (l, node) ∈ es := by
  -- no two entries have one location, so the first that is found is the only one
  induction es with
  | nil => simp [find?]
  | cons e es ih =>
    obtain ⟨k, x⟩ := e
    obtain ⟨once, distinct⟩ := List.nodup_cons.1 distinct
    rw [find?, List.mem_cons, Prod.mk.injEq]
    split
    · next same =>
      obtain rfl : k = l := same
      have absent : (k, node) ∉ es := fun there => once (List.mem_map.2 ⟨_, there, rfl⟩)
      simp [absent, eq_comm]
    · next other => simp [ih distinct, Ne.symm other]

/-- Each of two such trees has what the other one has. -/
theorem Relisted.extends (h : Relisted t t₁) : Extends t t₁ := by
  refine ⟨fun {l node} there => ?_, h.workingDirectory⟩
  cases l with
  | nil => exact there
  | cons n l =>
    rw [node?_eq_find? (List.cons_ne_nil n l)] at there ⊢
    rw [find?_eq_some_iff t.distinct] at there
    exact (find?_eq_some_iff t₁.distinct).2 (h.entries.mem_iff.2 there)

/-- What a path leads to is not a matter of order. -/
theorem Relisted.isFile_eq (h : Relisted t t₁) (q : Path) : t₁.isFile q = t.isFile q :=
  Bool.eq_iff_iff.2 ⟨isFile_of_extends h.symm.extends, isFile_of_extends h.extends⟩

/-- To take an entry away from both leaves them the same but for the order. -/
theorem Relisted.erase (h : Relisted t t₁) (l : Location) : Relisted (t.erase l) (t₁.erase l) :=
  ⟨h.entries.filter _, h.workingDirectory, h.refused⟩

theorem Relisted.resolve_eq_directory (h : Relisted t t₁)
    (resolved : t.resolve p = .ok (.existing d .directory)) :
    t₁.resolve p = .ok (.existing d .directory) :=
  resolve_of_extends h.extends resolved

/-- A directory has the same names in both, in some order. -/
theorem Relisted.names_perm (h : Relisted t t₁) (d : Location) :
    (t₁.names d).Perm (t.names d) :=
  h.entries.filterMap _

theorem Relisted.wellNamed (h : Relisted t t₁) (named : t.WellNamed) : t₁.WellNamed :=
  named.of_extends h.symm.extends

/-- What is granted in the one is granted in the other. -/
theorem Relisted.granted (h : Relisted t t₁) (granted : t.Granted d (t.names d)) :
    t₁.Granted d (t₁.names d) := by
  have told {n : Name} : n ∈ t₁.names d → n ∈ t.names d := (h.names_perm d).mem_iff.1
  constructor <;> rw [h.refused]
  · exact granted.list
  · exact fun n there => granted.tell n (told there)
  · exact fun n there => granted.remove n (told there)

/-- What needs what is the same in whatever order the entries are listed. -/
theorem Relisted.needs_iff (h : Relisted t t₁)
    (resolved : t.resolve p = .ok (.existing d .directory)) :
    t₁.Needs p m n ↔ t.Needs p m n := by
  obtain ⟨es, reaches⟩ := resolve_eq_directory_iff.1 resolved
  obtain ⟨es', reaches'⟩ := resolve_eq_directory_iff.1 (h.resolve_eq_directory resolved)
  rw [← not_iff_not, ← reaches.isFile_without_iff, ← reaches'.isFile_without_iff,
    (h.erase (n :: d)).isFile_eq]

/-- A tree whose entries are listed in a given order. -/
def relist (t : FileTree) (entries : List (Location × Node)) (h : entries.Perm t.entries) :
    FileTree where
  entries := entries
  workingDirectory := t.workingDirectory
  refused := t.refused
  distinct := (h.map Prod.fst).nodup_iff.2 t.distinct

/-- Every entry of a directory is the first one in some order. -/
theorem exists_relisted_first (there : n ∈ t.names d) :
    ∃ t₁, Relisted t t₁ ∧ ∃ rest, t₁.names d = n :: rest := by
  obtain ⟨node, found⟩ := Option.ne_none_iff_exists'.1 (mem_names.1 there)
  rw [node?_eq_find? (List.cons_ne_nil n d), find?_eq_some_iff t.distinct] at found
  have perm := (List.perm_cons_erase found).symm
  exact ⟨t.relist _ perm, ⟨perm, rfl, rfl⟩, _, by simp [relist, names]; rfl⟩

end FileTree

namespace WorkingTree

open FileTree

variable {t t₁ : FileTree} {p : Path} {extension : String} {d : Location} {es : List Location}
  {n m k : Name} {ns : List Name}

/-! ## What is taken in which order -/

/-- A stale entry is a file, or leads to one. -/
theorem fileEntry_of_isStale (proper : n.Proper) (stale : isStale t p extension n = true) :
    t.FileEntry p n :=
  ⟨proper, (isStale_iff.1 stale).1⟩

/-- What is an image to purge when another one is gone. -/
theorem isStale_erase_iff (reaches : t.Reaches p d es) :
    isStale (t.erase (n :: d)) p extension m = true ↔
      isStale t p extension m = true ∧ ¬t.Needs p m n := by
  have mono : isStale (t.erase (n :: d)) p extension m = true → isStale t p extension m = true :=
    isStale_of_extends (extends_erase (List.cons_ne_nil n d))
  constructor
  · intro stale
    exact ⟨mono stale, reaches.isFile_without_iff.1 (isStale_iff.1 stale).1⟩
  · rintro ⟨stale, free⟩
    exact isStale_iff.2 ⟨reaches.isFile_without_iff.2 free, (isStale_iff.1 stale).2⟩

/-- No image that the entry `m` needs stands before it in the listing. -/
def Unharmed (t : FileTree) (p : Path) (extension : String) (ns : List Name) (m : Name) : Prop :=
  ∀ n, isStale t p extension n = true → [n, m].Sublist ns → ¬t.Needs p m n

/-- One name comes before another if it is the first one, or both come later in that order. -/
theorem pair_sublist_cons :
    [n, m].Sublist (k :: ns) ↔ n = k ∧ m ∈ ns ∨ [n, m].Sublist ns := by
  rw [List.sublist_cons_iff, or_comm]
  refine or_congr_left ⟨?_, ?_⟩
  · rintro ⟨r, eq, sublist⟩
    obtain ⟨rfl, rfl⟩ := List.cons.inj eq
    exact ⟨rfl, List.singleton_sublist.1 sublist⟩
  · rintro ⟨rfl, there⟩
    exact ⟨[m], rfl, List.singleton_sublist.2 there⟩

/-- An entry is unharmed if the first one does not harm it, nor the others. -/
theorem unharmed_cons_iff (there : m ∈ ns) : Unharmed t p extension (k :: ns) m ↔
    (isStale t p extension k = true → ¬t.Needs p m k) ∧ Unharmed t p extension ns m := by
  constructor
  · intro unharmed
    exact ⟨fun stale => unharmed k stale (pair_sublist_cons.2 (.inl ⟨rfl, there⟩)),
      fun n stale before => unharmed n stale (pair_sublist_cons.2 (.inr before))⟩
  · rintro ⟨first, unharmed⟩ n stale before
    obtain ⟨rfl, -⟩ | before := pair_sublist_cons.1 before
    · exact first stale
    · exact unharmed n stale before

/-- The first entry of a listing has none before it. -/
theorem unharmed_head (once : m ∉ ns) : Unharmed t p extension (m :: ns) m := by
  intro n _ before
  obtain ⟨-, there⟩ | before := pair_sublist_cons.1 before
  · exact absurd there once
  · exact absurd (before.subset (by simp)) once

/-- Of the images before an entry, one that is no image any more since `k` is gone needed `k`. If
the entry needs that one then it needs `k`, and is no image any more itself. -/
theorem unharmed_erase_iff (reaches : t.Reaches p d es) (entry : t.FileEntry p k)
    (proper : ∀ n ∈ ns, n.Proper) (there : m ∈ ns)
    (stale : isStale (t.erase (k :: d)) p extension m = true) :
    Unharmed (t.erase (k :: d)) p extension ns m ↔ Unharmed t p extension ns m := by
  have entry_m := fileEntry_of_isStale (proper m there) stale
  obtain ⟨-, free⟩ := (isStale_erase_iff reaches).1 stale
  have listed {n : Name} (before : [n, m].Sublist ns) : n.Proper :=
    proper n (before.subset List.mem_cons_self)
  constructor
  · intro unharmed n stale_n before needs
    have entry_n := fileEntry_of_isStale (listed before) stale_n
    -- else `m` would need `k` by way of `n`
    have free_n : ¬t.Needs p n k := fun needs_k =>
      free (entry_n.needs_trans entry_m.of_erase entry reaches needs needs_k)
    have stale_n := (isStale_erase_iff reaches).2 ⟨stale_n, free_n⟩
    have entry_n := fileEntry_of_isStale (listed before) stale_n
    exact unharmed n stale_n before ((entry.needs_erase_iff reaches entry_m entry_n).2 needs)
  · intro unharmed n stale_n before needs
    have entry_n := fileEntry_of_isStale (listed before) stale_n
    exact unharmed n ((isStale_erase_iff reaches).1 stale_n).1 before
      ((entry.needs_erase_iff reaches entry_m entry_n).1 needs)

/-- An image is taken away just when no image that it needs stands before it. -/
theorem mem_taken_iff (reaches : t.Reaches p d es) (proper : ∀ n ∈ ns, n.Proper)
    (nodup : ns.Nodup) : m ∈ taken t p extension d ns ↔
      m ∈ ns ∧ isStale t p extension m = true ∧ Unharmed t p extension ns m := by
  induction ns generalizing t with
  | nil => simp [taken]
  | cons k ns ih =>
    obtain ⟨proper_k, proper⟩ := List.forall_mem_cons.1 proper
    obtain ⟨once, nodup⟩ := List.nodup_cons.1 nodup
    rw [taken]
    split
    · -- the first entry is taken, and the others are judged without it
      next stale =>
      have entry := fileEntry_of_isStale proper_k stale
      obtain ⟨fs, leads⟩ := entry.fileOver reaches
      rw [List.mem_cons, List.mem_cons, ih (reaches.erase leads) proper nodup]
      by_cases first : m = k
      · subst first
        simp [stale, unharmed_head once]
      rw [or_iff_right first, or_iff_right first]
      refine and_congr_right fun there => ?_
      rw [unharmed_cons_iff there, isStale_erase_iff reaches, and_assoc]
      refine and_congr_right fun stale_m => ?_
      rw [forall_prop_of_true stale]
      refine and_congr_right fun free => ?_
      exact unharmed_erase_iff reaches entry proper there
        ((isStale_erase_iff reaches).2 ⟨stale_m, free⟩)
    · -- the first entry is no image, and stands in nobody's way
      next fresh =>
      rw [ih reaches proper nodup, List.mem_cons]
      by_cases first : m = k
      · subst first
        simp [fresh]
      rw [or_iff_right first]
      refine and_congr_right fun there => and_congr_right fun _ => ?_
      rw [unharmed_cons_iff there]
      exact (and_iff_right fun stale => absurd stale fresh).symm

/-! ## Two purges of one directory -/

variable {w : WorkingTree}

/-- What is stale is not a matter of order. -/
theorem isStale_relisted (h : Relisted t t₁) (n : Name) :
    isStale t₁ p extension n = isStale t p extension n := by
  rw [isStale, isStale, h.isFile_eq]

/-- What harms an entry is decided by the order of the names alone. -/
theorem unharmed_relisted (h : Relisted t t₁)
    (resolved : t.resolve p = .ok (.existing d .directory)) :
    Unharmed t₁ p extension ns m ↔ Unharmed t p extension ns m := by
  refine forall_congr' fun n => ?_
  rw [isStale_relisted h, h.needs_iff resolved]

/-- Of a listing these names are taken: the images that need no image before them. -/
structure TakesUnharmed (t : FileTree) (p : Path) (extension : String) (ns gone : List Name) :
    Prop where
  distinct : gone.Nodup
  mem_iff (m : Name) : m ∈ gone ↔
    m ∈ ns ∧ isStale t p extension m = true ∧ Unharmed t p extension ns m

/-- What a purge that succeeds takes when the directory is listed in some order, in terms of the
tree alone. -/
theorem purge_relisted (named : t.WellNamed)
    (resolved : t.resolve w.temp = .ok (.existing d .directory)) (h : Relisted t t₁)
    {removed : List Path} {t' : FileTree} (purged : w.purge t₁ extension = (.ok removed, t')) :
    ∃ gone : List Name, removed = gone.map (fun n => w.temp.join ⟨n⟩) ∧
      TakesUnharmed t w.temp extension (t₁.names d) gone := by
  have named₁ := h.wellNamed named
  obtain ⟨d', es, reaches, -, rfl, rfl⟩ := (purge_eq_ok_iff named₁).1 purged
  -- the directory that was purged is the one that the path leads to
  cases (h.resolve_eq_directory resolved).symm.trans (resolve_eq_directory_iff.2 ⟨es, reaches⟩)
  refine ⟨_, rfl, nodup_names.sublist taken_sublist, fun m => ?_⟩
  rw [mem_taken_iff reaches named₁.proper nodup_names, isStale_relisted h,
    unharmed_relisted h resolved]

/-- Where nothing is refused a purge succeeds in every order. -/
theorem purge_of_granted (named : t.WellNamed)
    (resolved : t.resolve w.temp = .ok (.existing d .directory))
    (granted : t.Granted d (t.names d)) (h : Relisted t t₁) (extension : String) :
    ∃ removed t', w.purge t₁ extension = (.ok removed, t') := by
  obtain ⟨es, reaches⟩ := resolve_eq_directory_iff.1 (h.resolve_eq_directory resolved)
  refine ⟨_, _, (purge_eq_ok_iff (h.wellNamed named)).2 ⟨d, es, reaches, ?_, rfl, rfl⟩⟩
  exact (h.granted granted).mono taken_sublist.subset

/-- Two names in one directory have two paths. -/
theorem join_injective {k : Name} (proper : n.Proper) (proper' : k.Proper)
    (same : p.join ⟨n⟩ = p.join ⟨k⟩) : n = k := by
  have bytes := congrArg Path.bytes same
  rw [Path.bytes_join proper, Path.bytes_join proper'] at bytes
  split at bytes
  · exact List.append_cancel_left bytes
  · exact (List.cons.inj (List.append_cancel_left bytes)).2

/-- **What the order of a listing does to a purge.** In whatever order the directory is listed, a
purge that succeeds removes the images that need no image before them. Where nothing is refused it
succeeds in every order, and it removes the same in all orders just when no image needs another
one. -/
theorem purge_order (named : t.WellNamed)
    (resolved : t.resolve w.temp = .ok (.existing d .directory)) (extension : String) :
    (∀ t₁ removed t', Relisted t t₁ → w.purge t₁ extension = (.ok removed, t') →
      ∃ gone : List Name, removed = gone.map (fun n => w.temp.join ⟨n⟩) ∧
        TakesUnharmed t w.temp extension (t₁.names d) gone) ∧
      (t.Granted d (t.names d) →
        (∀ t₁, Relisted t t₁ → ∃ removed t', w.purge t₁ extension = (.ok removed, t')) ∧
        ((∀ t₁ t₂ r₁ r₂ t₁' t₂', Relisted t t₁ → Relisted t t₂ →
            w.purge t₁ extension = (.ok r₁, t₁') → w.purge t₂ extension = (.ok r₂, t₂') →
            r₁.Perm r₂) ↔
          ∀ m ∈ t.names d, ∀ n ∈ t.names d, isStale t w.temp extension m = true →
            isStale t w.temp extension n = true → t.Needs w.temp m n → m = n)) := by
  refine ⟨fun t₁ removed t' h purged => purge_relisted named resolved h purged, fun granted =>
    ⟨fun t₁ h => purge_of_granted named resolved granted h extension, ?_, ?_⟩⟩
  · -- two orders tell apart an image and one that it needs
    intro same m there_m n there_n stale_m stale_n needs
    by_contra other
    -- listed first an image is taken, but not if one that it needs is listed first
    obtain ⟨t₁, h₁, rest₁, names₁⟩ := exists_relisted_first there_m
    obtain ⟨t₂, h₂, rest₂, names₂⟩ := exists_relisted_first there_n
    obtain ⟨r₁, t₁', purged₁⟩ := purge_of_granted named resolved granted h₁ extension
    obtain ⟨r₂, t₂', purged₂⟩ := purge_of_granted named resolved granted h₂ extension
    obtain ⟨gone₁, rfl, -, taken₁⟩ := purge_relisted named resolved h₁ purged₁
    obtain ⟨gone₂, rfl, -, taken₂⟩ := purge_relisted named resolved h₂ purged₂
    have nodup₁ : (m :: rest₁).Nodup := names₁ ▸ nodup_names
    have first : m ∈ gone₁ := by
      rw [taken₁, names₁]
      exact ⟨List.mem_cons_self, stale_m, unharmed_head (List.nodup_cons.1 nodup₁).1⟩
    have listed : w.temp.join ⟨m⟩ ∈ gone₂.map fun n => w.temp.join ⟨n⟩ :=
      (same _ _ _ _ _ _ h₁ h₂ purged₁ purged₂).subset (List.mem_map_of_mem first)
    obtain ⟨k, there_k, eq⟩ := List.mem_map.1 listed
    obtain ⟨there, -, unharmed⟩ := (taken₂ k).1 there_k
    have proper_k := (h₂.wellNamed named).proper k there
    obtain rfl := join_injective proper_k (named.proper m there_m) eq
    rw [names₂] at there unharmed
    have later : k ∈ rest₂ := List.mem_of_ne_of_mem other there
    exact unharmed n stale_n (pair_sublist_cons.2 (.inl ⟨rfl, later⟩)) needs
  · -- if no image needs another, none is harmed in any order
    intro independent t₁ t₂ r₁ r₂ t₁' t₂' h₁ h₂ purged₁ purged₂
    have unharmed {t₁ : FileTree} (h : Relisted t t₁) {m : Name} (there : m ∈ t.names d)
        (stale : isStale t w.temp extension m = true) :
        Unharmed t w.temp extension (t₁.names d) m := by
      intro n stale_n before needs
      have there_n := (h.names_perm d).mem_iff.1 (before.subset List.mem_cons_self)
      obtain rfl := independent m there n there_n stale stale_n needs
      exact List.not_nodup_pair m (nodup_names.sublist before)
    obtain ⟨gone₁, rfl, nodup₁, taken₁⟩ := purge_relisted named resolved h₁ purged₁
    obtain ⟨gone₂, rfl, nodup₂, taken₂⟩ := purge_relisted named resolved h₂ purged₂
    refine List.Perm.map _ ((List.perm_ext_iff_of_nodup nodup₁ nodup₂).2 fun m => ?_)
    rw [taken₁, taken₂, (h₁.names_perm d).mem_iff, (h₂.names_perm d).mem_iff]
    refine and_congr_right fun there => and_congr_right fun stale => ?_
    exact iff_of_true (unharmed h₁ there stale) (unharmed h₂ there stale)

/-! ## An image and a link to it -/

/-- A directory that holds an image and a link to it, and lists the link first. -/
def linkFirst : FileTree where
  entries :=
    let work : Name := (Path.ofString "work").bytes
    let temp : Location := [(Path.ofString "Temp").bytes, work]
    [([work], .directory), (temp, .directory),
      ((Path.ofString "y.nds").bytes :: temp, .link (.ofString "x.nds")),
      ((Path.ofString "x.nds").bytes :: temp, .file [1])]
  workingDirectory := []
  distinct := by decide +kernel

/-- The same directory when it lists the image first. -/
def imageFirst : FileTree where
  entries :=
    let work : Name := (Path.ofString "work").bytes
    let temp : Location := [(Path.ofString "Temp").bytes, work]
    [([work], .directory), (temp, .directory),
      ((Path.ofString "x.nds").bytes :: temp, .file [1]),
      ((Path.ofString "y.nds").bytes :: temp, .link (.ofString "x.nds"))]
  workingDirectory := []
  distinct := by decide +kernel

/-- With the image first the link is harmed, and the image alone is taken. -/
theorem purge_order_linkFirst :
    linkFirst.WellNamed ∧
      linkFirst.resolve (below (.ofString "work")).temp =
        .ok (.existing [(Path.ofString "Temp").bytes, (Path.ofString "work").bytes] .directory) ∧
      ∃ (gone : List Name) (t' : FileTree),
        (below (.ofString "work")).purge imageFirst "nds" =
          (.ok (gone.map fun n => (below (.ofString "work")).temp.join ⟨n⟩), t') ∧
        TakesUnharmed linkFirst (below (.ofString "work")).temp "nds"
          [(Path.ofString "x.nds").bytes, (Path.ofString "y.nds").bytes] gone := by
  have named : linkFirst.WellNamed := by decide +kernel
  have resolved : linkFirst.resolve (below (.ofString "work")).temp =
      .ok (.existing [(Path.ofString "Temp").bytes, (Path.ofString "work").bytes] .directory) := by
    decide +kernel
  have relisted : Relisted linkFirst imageFirst := ⟨by decide +kernel, rfl, rfl⟩
  -- the other tree has the image first, so the link behind it leads nowhere when its turn comes
  have listed : imageFirst.names [(Path.ofString "Temp").bytes, (Path.ofString "work").bytes] =
      [(Path.ofString "x.nds").bytes, (Path.ofString "y.nds").bytes] := by
    decide +kernel
  obtain ⟨succeeds, granted⟩ := purge_order named resolved "nds"
  obtain ⟨total, -⟩ := granted ⟨rfl, fun _ _ => rfl, fun _ _ => rfl⟩
  obtain ⟨removed, t', purged⟩ := total imageFirst relisted
  obtain ⟨gone, rfl, takes⟩ := succeeds _ _ _ relisted purged
  rw [listed] at takes
  exact ⟨named, resolved, gone, t', purged, takes⟩

/-- Listed first the link is removed and then the image; listed last it leads nowhere and stays. -/
theorem purge_depends_on_order : Relisted linkFirst imageFirst ∧
    ((below (.ofString "work")).purge linkFirst "nds").1 =
      .ok [.ofString "work/Temp/y.nds", .ofString "work/Temp/x.nds"] ∧
    ((below (.ofString "work")).purge imageFirst "nds").1 = .ok [.ofString "work/Temp/x.nds"] :=
  ⟨⟨by decide +kernel, rfl, rfl⟩, by decide +kernel, by decide +kernel⟩

end WorkingTree
end EmuScheduler
