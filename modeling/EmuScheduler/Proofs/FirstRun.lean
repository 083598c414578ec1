import EmuScheduler.Proofs.FreshDirectories
import EmuScheduler.Proofs.Saving

/-!
# The first run

Where there is no configuration file, loading saves the default configuration and gives it back;
otherwise it reads what is there. `first_run_stable` says that the two ways agree: what was loaded
once is loaded again, and the second time nothing is written.

Whether there is a file is asked before the directories above it are created. A path that steps back
out of a directory that is missing leads nowhere then, and leads to a file as soon as the directory
is there. So a file that was there all along can be taken for one that is missing, and is replaced
(`existing_file_rewritten`). It is the only thing that can be, and along a path without a step back
nothing is: there, what the path leads to once the directories are created it led to before
(`FileTree.resolve_of_created`).
-/

namespace EmuScheduler

namespace FileTree

variable {t t' : FileTree} {p : Path} {data : List UInt8}

/-- What can be read is there. -/
theorem pathExists_of_readBytes (read : t.readBytes p = .ok data) : t.pathExists p = true := by
  obtain ⟨l, resolved⟩ := readBytes_eq_ok_iff.1 read
  rw [pathExists, resolved]

/-- A path under which nothing is found leads nowhere. -/
theorem ne_existing_of_absent (absent : t.pathExists p = false) (m : Location) (node : Node) :
    t.resolve p ≠ .ok (.existing m node) := by
  intro resolved
  rw [pathExists, resolved] at absent
  exact absurd absent nofun

end FileTree

namespace Config

variable {c c' : Config} {t t₁ t' : FileTree} {p : Path} {e : Environment}

/-- What a load comes to that succeeds. -/
theorem load_cases (loaded : load e t = (.ok c, t')) :
    (t.pathExists e.configFile = true ∧ loadFrom e t e.configFile = .ok c ∧ t' = t) ∨
      t.pathExists e.configFile = false ∧ c = default e ∧
        (default e).saveTo t e.configFile = (.ok (), t') := by
  unfold load at loaded
  split at loaded
  · next there =>
    obtain ⟨read, rfl⟩ := Prod.mk.inj loaded
    exact .inl ⟨there, read, rfl⟩
  · next missing =>
    split at loaded
    · next u t₁ saved =>
      obtain ⟨same, rfl⟩ := Prod.mk.inj loaded
      exact .inr ⟨eq_false_of_ne_true missing, (Except.ok.inj same).symm, saved⟩
    · exact absurd (Prod.mk.inj loaded).1 nofun

/-- Saving leaves alone whatever its path does not lead to in the end. -/
theorem node?_of_saveTo (saved : c.saveTo t p = (.ok (), t')) {l : Location} {node : Node}
    (there : t.node? l = some node) :
    t'.node? l = some node ∨ ∃ data, t'.resolve p = .ok (.existing l (.file data)) := by
  obtain ⟨t₁, text, prepared, -, written⟩ := saveTo_eq_ok saved
  have kept : t₁.node? l = some node := by
    have grown := extends_prepare t p
    rw [prepared] at grown
    exact grown.node there
  -- the directories above are only added; the text is put at the one location that the path leads
  -- to
  obtain ⟨k, notRoot, rfl, resolved⟩ := FileTree.resolve_of_writeFile written
  by_cases here : l = k
  · subst here
    exact .inr ⟨_, resolved⟩
  · left
    rw [FileTree.node?_put t₁ notRoot, if_neg here]
    exact kept

/-- **Saving where nothing is adds to the tree**, along a path without a step back. -/
theorem extends_saveTo (saved : c.saveTo t p = (.ok (), t')) (grounded : t.Grounded)
    (onward : .up ∉ p.steps) (absent : t.pathExists p = false) : t.Extends t' := by
  obtain ⟨t₁, text, prepared, -, written⟩ := saveTo_eq_ok saved
  have grown := extends_prepare t p
  rw [prepared] at grown
  refine grown.trans (FileTree.extends_of_writeFile written fun m old resolved => ?_)
  -- the file would have to be there already, behind directories that are new: then so was the path
  unfold prepare at prepared
  split at prepared
  · obtain rfl := (Prod.mk.inj prepared).2
    exact FileTree.ne_existing_of_absent absent _ _ resolved
  · next above parent =>
    obtain before | directory :=
      FileTree.resolve_of_created grounded parent onward prepared resolved
    · exact FileTree.ne_existing_of_absent absent _ _ before
    · -- a directory that the creation made is not the file
      exact absurd directory nofun

/-- **What was loaded once is loaded again.** If a load succeeds, a second one gives the same
configuration and leaves all files as they are. If there was a configuration file, so does the first
one. Otherwise it gives the default configuration, the text of which is in the file then; nothing
but that file can have been there before and be replaced, and along a path without a step back
nothing is replaced at all. -/
theorem first_run_stable (loaded : load e t = (.ok c, t₁)) :
    load e t₁ = (.ok c, t₁) ∧
      (t.pathExists e.configFile = true → t₁ = t) ∧
      (t.pathExists e.configFile = false →
        c = default e ∧ ∃ text, c.write = .ok text ∧
          t₁.readBytes e.configFile = .ok (Utf8.encode text)) ∧
      (∀ l node, t.node? l = some node →
        t₁.node? l = some node ∨
          ∃ data, t₁.resolve e.configFile = .ok (.existing l (.file data))) ∧
      (t.Grounded → .up ∉ e.configFile.steps → t.Extends t₁) := by
  obtain ⟨there, read, rfl⟩ | ⟨absent, rfl, saved⟩ := load_cases loaded
  · refine ⟨loaded, fun _ => rfl, fun absent => ?_, fun l node here => .inl here,
      fun _ _ => .refl t₁⟩
    exact absurd (there.symm.trans absent) nofun
  · obtain ⟨t₂, text, -, written, stored⟩ := saveTo_eq_ok saved
    -- the second load finds the file, and reads what the first one saved
    have content : t₁.readBytes e.configFile = .ok (Utf8.encode text) :=
      FileTree.readBytes_of_writeFile stored
    refine ⟨?_, fun there => ?_, fun _ => ⟨rfl, text, written, content⟩,
      fun l node => node?_of_saveTo saved, fun grounded onward => ?_⟩
    · rw [load, if_pos (FileTree.pathExists_of_readBytes content), loadFrom_of_saveTo saved]
    · exact absurd (there.symm.trans absent) nofun
    · exact extends_saveTo saved grounded onward absent

/-- The home directory `/h`. -/
def someHome : Environment :=
  { home := some (.ofString "/h") }

/-- On a system without a file the first run makes one, and the second one reads it. -/
theorem first_run_stable_empty :
    ∃ t₁, load someHome .empty = (.ok (default someHome), t₁) ∧
      load someHome t₁ = (.ok (default someHome), t₁) ∧ FileTree.empty.Extends t₁ := by
  have first : (load someHome .empty).1 = .ok (default someHome) := by decide +kernel
  have loaded : load someHome .empty = (.ok (default someHome), (load someHome .empty).2) := by
    rw [← first]
  have grounded : FileTree.empty.Grounded := ⟨nofun, rfl⟩
  obtain ⟨again, -, -, -, grown⟩ := first_run_stable loaded
  exact ⟨_, loaded, again, grown grounded (by decide +kernel)⟩

/-! ## A file that is taken for one that is missing -/

/-- A place for configurations that is reached by a step back out of `/new`. -/
def detour : Environment :=
  { home := some (.ofString "/h"), configHome := some (.ofString "/new/../old") }

/-- The name that a text spells. -/
def entryName (s : String) : Name :=
  Utf8.encode s.toList

/-- Where the configuration file of someone is who has chosen a logging level. -/
def chosenFile : Location :=
  [entryName "config.toml", entryName "nds-emu", entryName "old"]

/-- What is in that file. -/
def chosenText : List UInt8 :=
  Utf8.encode "[debug]\nlog_level = \"Trace\"\n".toList

/-- A tree with that file, and without a directory `/new`. -/
def withoutNew : FileTree :=
  ((FileTree.empty.put [entryName "old"] .directory).put
    [entryName "nds-emu", entryName "old"] .directory).put chosenFile (.file chosenText)

theorem grounded_withoutNew : withoutNew.Grounded := by
  refine ⟨fun {l n node} there => ?_, rfl⟩
  unfold withoutNew chosenFile at there
  rw [FileTree.node?_put _ (by simp), FileTree.node?_put _ (by simp),
    FileTree.node?_put _ (by simp)] at there
  -- each of the three entries stands in the one before it
  split_ifs at there with file directory top
  · obtain ⟨-, rfl⟩ := List.cons.inj file
    decide +kernel
  · obtain ⟨-, rfl⟩ := List.cons.inj directory
    decide +kernel
  · obtain ⟨-, rfl⟩ := List.cons.inj top
    rfl
  · exact absurd there nofun

/-- **A configuration file that was there can be replaced.** The directory out of which its path
steps back is missing when it is looked for, and is created before the default is saved. -/
theorem existing_file_rewritten :
    ¬∀ (e : Environment) (t : FileTree) (c : Config) (t₁ : FileTree) (l : Location)
      (data : List UInt8) (node : Node), t.Grounded → load e t = (.ok c, t₁) →
        t.node? l = some (.file data) → t₁.resolve e.configFile = .ok (.existing l node) →
          t₁.node? l = some (.file data) := by
  intro kept
  let t₁ := (load detour withoutNew).2
  have first : (load detour withoutNew).1 = .ok (default detour) := by decide +kernel
  have loaded : load detour withoutNew = (.ok (default detour), t₁) := by
    rw [← first]
  have there : withoutNew.node? chosenFile = some (.file chosenText) := by decide +kernel
  have leads : t₁.resolve detour.configFile = .ok (.existing chosenFile (.file
      (Utf8.encode ((default detour).writeWith "/h/.local/share/nds-emu".toList)))) := by
    decide +kernel
  have replaced : t₁.node? chosenFile ≠ some (.file chosenText) := by decide +kernel
  exact replaced (kept _ _ _ _ _ _ _ grounded_withoutNew loaded there leads)

end Config
end EmuScheduler
