import EmuScheduler.Proofs.DistinctKeys
import EmuScheduler.Proofs.Saving

/-!
# Configurations that say only some things

A document may leave out any of the settings, and any section, and may say other things besides.
Each setting that it gives is then what it says, each other one is the default
(`load_overlays_defaults`).

The settings are six `Item`s, each with its section and its key. What has to be shown is that they
do not get in each other's way: the setting of one item keeps every other one (`apply_keeps`), so a
field keeps all items but the one of its section and key (`Section.decodeField_keeps`). As names are
distinct in every table, the field of an item is the only one that touches it, and what the fields
before and after it do is nothing to the item (`foldlM_field`, used for a section and for the
document).
-/

namespace EmuScheduler

open Toml

/-- What a configuration file can set. -/
inductive Item where
  | workingDirectory
  | mode (k : ModeKind)
  | logLevel
  deriving DecidableEq, Repr

namespace Item

/-- Every item. -/
def all : List Item :=
  .workingDirectory :: ModeKind.all.map .mode ++ [.logLevel]

/-- All items are listed. -/
theorem mem_all (i : Item) : i ∈ all := by
  obtain _ | k | _ := i
  · decide
  · cases k <;> decide
  · decide

/-- The section that the item belongs to. -/
def group : Item → Section
  | .workingDirectory => .paths
  | .mode _ => .emulation
  | .logLevel => .debug

/-- The key of the item in its section. -/
def key : Item → String
  | .workingDirectory => "working_dir"
  | .mode .renderer => "renderer_3d"
  | .mode .soundCore => "sound_core"
  | .mode .cpu => "cpu_mode"
  | .mode .soundSync => "sound_sync_mode"
  | .logLevel => "log_level"

/-- The text that a document gives to the item, in its section and at its key. -/
def given? (i : Item) (d : Fields) : Option String :=
  match Fields.get? i.group.name d with
  | some (.table _ _ fields) =>
    match Fields.get? i.key fields with
    | some (.scalar _ (.string x)) => some x
    | _ => none
  | _ => none

/-- The text can be given to the item: any text is a working directory, and otherwise it must be the
name of a value. -/
def Admits : Item → String → Prop
  | .workingDirectory, _ => True
  | .mode k, x => ∃ m : ModeChange, m.kind = k ∧ m.valueName = x
  | .logLevel, x => ∃ l : LogLevel, Named.name l = x

/-- The item of a configuration is what the text says. -/
def Is : Item → Config → String → Prop
  | .workingDirectory, c, x => c.workingDirectory = .ofString x
  | .mode k, c, x => (c.modes.get k).valueName = x
  | .logLevel, c, x => Named.name c.logLevel = x

/-- The item is the same in two configurations. -/
def Same : Item → Config → Config → Prop
  | .workingDirectory, c, c' => c.workingDirectory = c'.workingDirectory
  | .mode k, c, c' => c.modes.get k = c'.modes.get k
  | .logLevel, c, c' => c.logLevel = c'.logLevel

variable {i j : Item} {c c' c₁ c₂ c₃ : Config} {x : String} {v : Value} {place : Span}

theorem Same.refl (i : Item) (c : Config) : i.Same c c := by
  cases i <;> rfl

theorem Same.trans (h : i.Same c₁ c₂) (h' : i.Same c₂ c₃) : i.Same c₁ c₃ := by
  cases i <;> exact Eq.trans h h'

theorem Same.symm (h : i.Same c c') : i.Same c' c := by
  cases i <;> exact Eq.symm h

/-- What an item is depends on the item alone. -/
theorem Is.of_same (h : i.Is c x) (same : i.Same c' c) : i.Is c' x := by
  cases i with
  | workingDirectory => exact Eq.trans same h
  | mode k => exact (congrArg ModeChange.valueName same).trans h
  | logLevel => exact (congrArg Named.name same).trans h

/-- An item is only ever what it admits. -/
theorem Is.admits (h : i.Is c x) : i.Admits x := by
  cases i with
  | workingDirectory => trivial
  | mode k => exact ⟨_, kind_get c.modes k, h⟩
  | logLevel => exact ⟨_, h⟩

/-- Two values with one name are the same. -/
theorem name_injective {α : Type} [Named α] [Named.Faithful α] {a b : α}
    (h : Named.name a = Named.name b) : a = b := by
  have found := Named.Faithful.ofName?_name a
  rw [h, Named.Faithful.ofName?_name] at found
  exact (Option.some.inj found).symm

/-- A text says what the item is. -/
theorem Is.same (h : i.Is c x) (h' : i.Is c' x) : i.Same c c' := by
  cases i with
  | workingDirectory => exact Eq.trans h (Eq.symm h')
  | mode k =>
    have same := Eq.trans h (Eq.symm h')
    cases k <;> exact congrArg _ (name_injective same)
  | logLevel => exact name_injective (Eq.trans h (Eq.symm h'))

/-- A configuration is nothing but its items. -/
theorem eq_of_same (h : ∀ i : Item, i.Same c c') : c = c' := by
  obtain ⟨directory, ⟨renderer, soundCore, cpu, soundSync⟩, level⟩ := c
  obtain ⟨directory', ⟨renderer', soundCore', cpu', soundSync'⟩, level'⟩ := c'
  obtain rfl : directory = directory' := h .workingDirectory
  obtain rfl : renderer = renderer' := ModeChange.renderer.inj (h (.mode .renderer))
  obtain rfl : soundCore = soundCore' := ModeChange.soundCore.inj (h (.mode .soundCore))
  obtain rfl : cpu = cpu' := ModeChange.cpu.inj (h (.mode .cpu))
  obtain rfl : soundSync = soundSync' := ModeChange.soundSync.inj (h (.mode .soundSync))
  obtain rfl : level = level' := h .logLevel
  rfl

/-! ## The setting of an item -/

/-- The setting that the item has in its section. -/
def setting : Item → Setting
  | .workingDirectory => .of "working_dir" Decode.path fun c p => { c with workingDirectory := p }
  | .mode .renderer => .of "renderer_3d" Decode.named fun c v => c.change (.renderer v)
  | .mode .soundCore => .of "sound_core" Decode.named fun c v => c.change (.soundCore v)
  | .mode .cpu => .of "cpu_mode" Decode.named fun c v => c.change (.cpu v)
  | .mode .soundSync => .of "sound_sync_mode" Decode.named fun c v => c.change (.soundSync v)
  | .logLevel => .of "log_level" Decode.named fun c v => { c with logLevel := v }

/-- The setting of an item is found by its key. -/
theorem find?_key (i : Item) : Setting.find? i.group.settings i.key = some i.setting := by
  obtain _ | k | _ := i
  · rfl
  · cases k <;> rfl
  · rfl

/-- Its section is found by its name. -/
theorem find?_group (i : Item) :
    (Section.all.find? fun s => s.name = i.group.name) = some i.group := by
  cases i <;> rfl

/-- Every section is that of an item. -/
theorem exists_group {s : Section} (there : s ∈ Section.all) : ∃ i : Item, i.group = s := by
  simp only [Section.all, List.mem_cons, List.not_mem_nil, or_false] at there
  obtain rfl | rfl | rfl := there
  · exact ⟨.workingDirectory, rfl⟩
  · exact ⟨.mode .renderer, rfl⟩
  · exact ⟨.logLevel, rfl⟩

/-- Every setting of the section of an item is that of an item. -/
theorem exists_setting {s : Setting} {name : String}
    (found : Setting.find? i.group.settings name = some s) :
    ∃ j : Item, j.group = i.group ∧ j.key = name ∧ j.setting = s := by
  have named : s.key = name := by simpa using List.find?_some found
  have there := List.mem_of_find?_eq_some found
  subst named
  -- the settings of each section are those of its items
  cases i with
  | workingDirectory =>
    obtain rfl := List.mem_singleton.1 there
    exact ⟨.workingDirectory, rfl, rfl, rfl⟩
  | mode k =>
    simp only [group, Section.emulation, List.mem_cons, List.not_mem_nil, or_false] at there
    obtain rfl | rfl | rfl | rfl := there
    · exact ⟨.mode .renderer, rfl, rfl, rfl⟩
    · exact ⟨.mode .soundCore, rfl, rfl, rfl⟩
    · exact ⟨.mode .cpu, rfl, rfl, rfl⟩
    · exact ⟨.mode .soundSync, rfl, rfl, rfl⟩
  | logLevel =>
    obtain rfl := List.mem_singleton.1 there
    exact ⟨.logLevel, rfl, rfl, rfl⟩

/-- A text is read as the value of which it is the name. -/
theorem named_eq_ok_iff {α : Type} [Named α] [Named.Faithful α] {a : α} :
    Decode.named (.scalar place (.string x)) = .ok a ↔ Named.name a = x := by
  constructor
  · intro decoded
    have found := mapError_eq_ok.1 decoded
    unfold Decode.ofName at found
    split at found
    · next found' =>
      cases found
      simpa using List.find?_some found'
    · cases found
  · rintro rfl
    exact named_name ⟨place, by rw [String.ofList_toList]⟩

/-- The setting of a mode changes that mode, to the value that a text names. -/
theorem change_of_apply {k : ModeKind} (applied : (mode k).setting.apply c v = .ok c') :
    ∃ m : ModeChange, m.kind = k ∧ c' = c.change m ∧
      ∀ place x, v = .scalar place (.string x) → m.valueName = x := by
  cases k <;> obtain ⟨a, decoded, rfl⟩ := map_eq_ok.1 applied
  case renderer => exact ⟨.renderer a, rfl, rfl, fun _ _ text => named_eq_ok_iff.1 (text ▸ decoded)⟩
  case soundCore =>
    exact ⟨.soundCore a, rfl, rfl, fun _ _ text => named_eq_ok_iff.1 (text ▸ decoded)⟩
  case cpu => exact ⟨.cpu a, rfl, rfl, fun _ _ text => named_eq_ok_iff.1 (text ▸ decoded)⟩
  case soundSync =>
    exact ⟨.soundSync a, rfl, rfl, fun _ _ text => named_eq_ok_iff.1 (text ▸ decoded)⟩

/-- The setting of one item keeps every other one. -/
theorem apply_keeps (applied : j.setting.apply c v = .ok c') (other : i ≠ j) : i.Same c' c := by
  -- each setting writes one field, and the modes are kept by kind
  cases j with
  | workingDirectory =>
    obtain ⟨p, -, rfl⟩ := map_eq_ok.1 applied
    cases i with
    | workingDirectory => exact absurd rfl other
    | mode | logLevel => rfl
  | mode k =>
    obtain ⟨m, rfl, rfl, -⟩ := change_of_apply applied
    cases i with
    | workingDirectory | logLevel => rfl
    | mode k =>
      refine (get_set c.modes m k).trans (if_neg ?_)
      rintro rfl
      exact other rfl
  | logLevel =>
    obtain ⟨l, -, rfl⟩ := map_eq_ok.1 applied
    cases i with
    | workingDirectory | mode => rfl
    | logLevel => exact absurd rfl other

/-- The setting of an item makes it what a text says. -/
theorem is_of_apply (applied : i.setting.apply c (.scalar place (.string x)) = .ok c') :
    i.Is c' x := by
  cases i with
  | workingDirectory =>
    cases applied
    rfl
  | mode k =>
    obtain ⟨m, rfl, rfl, named⟩ := change_of_apply applied
    refine Eq.trans (congrArg ModeChange.valueName ?_) (named place x rfl)
    exact (get_set c.modes m m.kind).trans (if_pos rfl)
  | logLevel =>
    obtain ⟨l, decoded, rfl⟩ := map_eq_ok.1 applied
    exact named_eq_ok_iff.1 decoded

/-- A text that is admitted is taken, whatever the configuration is. -/
theorem apply_of_admits (admits : i.Admits x) (c : Config) (place : Span) :
    ∃ c', i.setting.apply c (.scalar place (.string x)) = .ok c' := by
  cases i with
  | workingDirectory => exact ⟨_, rfl⟩
  | mode k =>
    obtain ⟨m, rfl, rfl⟩ := admits
    cases m <;> exact ⟨_, map_eq_ok.2 ⟨_, named_eq_ok_iff.2 rfl, rfl⟩⟩
  | logLevel =>
    obtain ⟨l, rfl⟩ := admits
    exact ⟨_, map_eq_ok.2 ⟨l, named_eq_ok_iff.2 rfl, rfl⟩⟩

end Item

/-! ## Fields in their order -/

section Folds

variable {step : Config → Key × Value → Decoded Config} {fs : Fields} {key : Key} {v : Value}
  {i : Item} {c c' : Config}

/-- If no step changes an item, all of them together do not. -/
theorem foldlM_keeps
    (keeps : ∀ f ∈ fs, ∀ {c c'}, step c f = .ok c' → i.Same c' c)
    (folded : fs.foldlM step c = .ok c') : i.Same c' c := by
  -- one field after the other
  induction fs generalizing c with
  | nil =>
    cases folded
    exact .refl i _
  | cons f fs ih =>
    obtain ⟨keepsFirst, keeps⟩ := List.forall_mem_cons.1 keeps
    rw [List.foldlM_cons] at folded
    obtain ⟨c₁, first, folded⟩ := bind_eq_ok.1 folded
    exact (ih keeps folded).trans (keepsFirst first)

/-- If the fields of other names keep an item, it is what the field of one name makes it. -/
theorem foldlM_field (names : (fs.map (·.1.name)).Nodup) (there : (key, v) ∈ fs)
    (keeps : ∀ f ∈ fs, f.1.name ≠ key.name → ∀ {c c'}, step c f = .ok c' → i.Same c' c)
    (folded : fs.foldlM step c = .ok c') :
    ∃ c₁ c₂, i.Same c₁ c ∧ step c₁ (key, v) = .ok c₂ ∧ i.Same c' c₂ := by
  -- the fields before it, the field itself, and the fields after it
  obtain ⟨before, after, rfl⟩ := List.append_of_mem there
  rw [List.foldlM_append] at folded
  obtain ⟨c₁, first, folded⟩ := bind_eq_ok.1 folded
  rw [List.foldlM_cons] at folded
  obtain ⟨c₂, field, rest⟩ := bind_eq_ok.1 folded
  rw [List.map_append, List.map_cons, List.nodup_middle, List.nodup_cons] at names
  have other : ∀ f, f ∈ before ∨ f ∈ after → f.1.name ≠ key.name := by
    intro f there same
    refine names.1 (same ▸ ?_)
    rw [← List.map_append]
    exact List.mem_map.2 ⟨f, List.mem_append.2 there, rfl⟩
  refine ⟨c₁, c₂, ?_, field, ?_⟩
  · exact foldlM_keeps (fun f h => keeps f (List.mem_append_left _ h) (other f (.inl h))) first
  · exact foldlM_keeps (fun f h => keeps f (List.mem_append_right _ (List.mem_cons_of_mem _ h))
      (other f (.inr h))) rest

/-- If every step succeeds, all of them together do. -/
theorem foldlM_ok (each : ∀ f ∈ fs, ∀ c, ∃ c', step c f = .ok c') (c : Config) :
    ∃ c', fs.foldlM step c = .ok c' := by
  induction fs generalizing c with
  | nil => exact ⟨c, rfl⟩
  | cons f fs ih =>
    obtain ⟨first, each⟩ := List.forall_mem_cons.1 each
    obtain ⟨c₁, field⟩ := first c
    obtain ⟨c', rest⟩ := ih each c₁
    exact ⟨c', by rw [List.foldlM_cons, field]; exact rest⟩

end Folds

/-! ## Sections and documents -/

/-- Where a document has something in the place of a section it is a table, and where that has
something at the key of an item it is a text. -/
def TextsOnly (d : Fields) : Prop :=
  ∀ (i : Item) (v : Value), Fields.get? i.group.name d = some v →
    ∃ origin place? fields, v = .table origin place? fields ∧
      ∀ w, Fields.get? i.key fields = some w → ∃ place x, w = .scalar place (.string x)

/-- Whether a document is so for one item. -/
def Item.fits (i : Item) (d : Fields) : Bool :=
  match Fields.get? i.group.name d with
  | none => true
  | some (.table _ _ fields) =>
    match Fields.get? i.key fields with
    | none | some (.scalar _ (.string _)) => true
    | some _ => false
  | some _ => false

theorem textsOnly_iff {d : Fields} : TextsOnly d ↔ ∀ i : Item, i.fits d = true := by
  refine forall_congr' fun i => ?_
  rw [Item.fits]
  split
  · next missing => simp [missing]
  · next fields found =>
    split
    · next missing => simp [found, missing]
    · next value => simp [found, value]
    · next w other value => simpa [found, value] using other
  · next v other found =>
    simpa [found] using fun origin place? fields table => (other origin place? fields table).elim

instance (d : Fields) : Decidable (TextsOnly d) :=
  decidable_of_iff (∀ i ∈ Item.all, i.fits d = true)
    ⟨fun h => textsOnly_iff.2 fun i => h i i.mem_all, fun h i _ => textsOnly_iff.1 h i⟩

/-- The configuration has what the document gives, and the defaults where it gives nothing. -/
structure Overlays (d : Fields) (defaults c : Config) : Prop where
  given {i : Item} {x : String} : i.given? d = some x → i.Is c x
  missing {i : Item} : i.given? d = none → i.Same c defaults

/-- Two configurations that overlay the defaults with the same texts are the same. -/
theorem Overlays.unique {d : Fields} {defaults c c' : Config} (h : Overlays d defaults c)
    (h' : Overlays d defaults c') : c = c' := by
  refine Item.eq_of_same fun i => ?_
  cases text : i.given? d with
  | none => exact (h.missing text).trans (h'.missing text).symm
  | some x => exact (h.given text).same (h'.given text)

/-- What is overlaid is a matter of the texts that are given. -/
theorem Overlays.congr {d d' : Fields} {defaults c : Config}
    (same : ∀ i : Item, i.given? d' = i.given? d) :
    Overlays d' defaults c ↔ Overlays d defaults c :=
  ⟨fun h => ⟨fun text => h.given ((same _).trans text),
      fun text => h.missing ((same _).trans text)⟩,
    fun h => ⟨fun text => h.given ((same _).symm.trans text),
      fun text => h.missing ((same _).symm.trans text)⟩⟩

section Decoding

variable {d fields : Fields} {f : Key × Value} {i j : Item} {c c' defaults : Config} {s : Section}
  {origin : Origin} {place? : Option Span}

/-- A field of a section changes the item of its name only. -/
theorem Section.decodeField_keeps (read : j.group.decodeField c f = .ok c')
    (other : i.group = j.group → f.1.name ≠ i.key) : i.Same c' c := by
  unfold decodeField at read
  split at read
  · next found =>
    obtain ⟨k, sameGroup, named, rfl⟩ := Item.exists_setting found
    refine Item.apply_keeps (mapError_eq_ok.1 read) ?_
    rintro rfl
    exact other sameGroup named.symm
  · cases read
    exact .refl i _

/-- A section leaves the items of the others alone, whatever is in it. -/
theorem Section.decode_keeps (read : j.group.decode c (.table origin place? fields) = .ok c')
    (other : i.group ≠ j.group) : i.Same c' c :=
  foldlM_keeps (fun _ _ _ _ field => decodeField_keeps field fun same => absurd same other) read

/-- In its own section an item is what it is given there, if anything. -/
theorem Section.decode_own (read : i.group.decode c (.table origin place? fields) = .ok c')
    (names : (fields.map (·.1.name)).Nodup) :
    (Fields.get? i.key fields = none → i.Same c' c) ∧
      ∀ place x, Fields.get? i.key fields = some (.scalar place (.string x)) → i.Is c' x := by
  constructor
  · intro missing
    refine foldlM_keeps (fun f there c c' field => decodeField_keeps field fun _ same => ?_) read
    exact Fields.get?_eq_none_iff.1 missing (List.mem_map.2 ⟨f, there, same⟩)
  · intro place x found
    obtain ⟨key, named, there⟩ := Fields.mem_of_get? found
    obtain ⟨c₁, c₂, -, field, rest⟩ := foldlM_field names there
      (fun f _ other c c' field => decodeField_keeps field fun _ => named ▸ other) read
    rw [decodeField, named, i.find?_key] at field
    exact (Item.is_of_apply (mapError_eq_ok.1 field)).of_same rest

/-- What stands in the place of a section is the table of one of the items. -/
theorem TextsOnly.section (texts : TextsOnly d) (names : (d.map (·.1.name)).Nodup) (there : f ∈ d)
    (found : (Section.all.find? fun s => s.name = f.1.name) = some s) :
    ∃ j : Item, j.group = s ∧ f.1.name = j.group.name ∧ Fields.get? j.group.name d = some f.2 ∧
      ∃ origin place? fields, f.2 = .table origin place? fields := by
  have named : s.name = f.1.name := by simpa using List.find?_some found
  obtain ⟨j, rfl⟩ := Item.exists_group (List.mem_of_find?_eq_some found)
  have own : Fields.get? f.1.name d = some f.2 := Fields.get?_of_mem names there
  have first : Fields.get? j.group.name d = some f.2 := named ▸ own
  obtain ⟨origin, place?, fields, table, -⟩ := texts j f.2 first
  exact ⟨j, rfl, named.symm, first, origin, place?, fields, table⟩

/-- A section changes its own items only. -/
theorem Config.decodeField_keeps (texts : TextsOnly d) (names : (d.map (·.1.name)).Nodup)
    (there : f ∈ d) (other : f.1.name ≠ i.group.name) (read : decodeField c f = .ok c') :
    i.Same c' c := by
  unfold decodeField at read
  split at read
  · next found =>
    obtain ⟨j, rfl, named, -, origin, place?, fields, table⟩ := texts.section names there found
    have read := mapError_eq_ok.1 read
    rw [table] at read
    exact Section.decode_keeps read fun same =>
      other (named.trans (congrArg Section.name same.symm))
  · cases read
    exact .refl i _

/-- **What is decoded is the document over the defaults.** -/
theorem Config.overlays_of_decode (texts : TextsOnly d) (distinct : d.Distinct)
    (read : decode defaults d = .ok c) : Overlays d defaults c := by
  -- one item at a time: there is no section for it, or it is not in the section, or it is
  suffices each : ∀ i : Item, (i.given? d = none → i.Same c defaults) ∧
      ∀ x, i.given? d = some x → i.Is c x from ⟨(each _).2 _, (each _).1⟩
  intro i
  unfold Item.given?
  cases found : Fields.get? i.group.name d with
  | none =>
    refine ⟨fun _ => ?_, fun x eq => absurd eq.symm (Option.some_ne_none x)⟩
    refine foldlM_keeps (fun f there c c' => decodeField_keeps texts distinct.names there ?_) read
    intro same
    exact Fields.get?_eq_none_iff.1 found (List.mem_map.2 ⟨f, there, same⟩)
  | some v =>
    obtain ⟨origin, place?, fields, rfl, text⟩ := texts i v found
    obtain ⟨key, named, there⟩ := Fields.mem_of_get? found
    obtain ⟨c₁, c₂, before, field, after⟩ := foldlM_field distinct.names there
      (fun f there other c c' =>
        decodeField_keeps texts distinct.names there (named ▸ other)) read
    rw [decodeField, named, i.find?_group] at field
    obtain ⟨missing, given⟩ := Section.decode_own (mapError_eq_ok.1 field)
      (Fields.distinct_table.1 (distinct.get? found)).names
    dsimp only
    cases value : Fields.get? i.key fields with
    | none =>
      exact ⟨fun _ => after.trans ((missing value).trans before),
        fun x eq => absurd eq.symm (Option.some_ne_none x)⟩
    | some w =>
      obtain ⟨place, x, rfl⟩ := text w value
      refine ⟨fun eq => absurd eq (Option.some_ne_none x), ?_⟩
      rintro _ ⟨⟩
      exact (given place x value).of_same after

/-- Where every text that is given can be, every field is read. -/
theorem Config.decode_ok (texts : TextsOnly d) (distinct : d.Distinct)
    (admits : ∀ (i : Item) x, i.given? d = some x → i.Admits x) (defaults : Config) :
    ∃ c, decode defaults d = .ok c := by
  refine foldlM_ok (fun f there c => ?_) defaults
  unfold decodeField
  split
  · next found =>
    obtain ⟨j, rfl, -, first, origin, place?, fields, table⟩ :=
      texts.section distinct.names there found
    rw [table] at first ⊢
    suffices read : ∃ c', j.group.decode c (.table origin place? fields) = .ok c' from
      read.imp fun c' => mapError_eq_ok.2
    refine foldlM_ok (fun g within c => ?_) c
    unfold Section.decodeField
    split
    · next found =>
      -- the field is that of an item, and the text in it is what the document gives to the item
      obtain ⟨i, sameGroup, named, rfl⟩ := Item.exists_setting found
      have names := (Fields.distinct_table.1 (distinct.get? first)).names
      have own : Fields.get? g.1.name fields = some g.2 := Fields.get?_of_mem names within
      have value : Fields.get? i.key fields = some g.2 := named ▸ own
      rw [← sameGroup] at first
      obtain ⟨_, _, _, ⟨⟩, text⟩ := texts i _ first
      obtain ⟨place, x, eq⟩ := text _ value
      rw [eq] at value ⊢
      have given : i.given? d = some x := by
        rw [Item.given?, first]
        dsimp only
        rw [value]
      obtain ⟨c', applied⟩ := Item.apply_of_admits (admits i x given) c place
      exact ⟨c', mapError_eq_ok.2 applied⟩
    · exact ⟨c, rfl⟩
  · exact ⟨c, rfl⟩

/-- **To decode is to overlay the defaults** with the texts of a document. -/
theorem Config.decode_eq_ok_iff (texts : TextsOnly d) (distinct : d.Distinct) :
    decode defaults d = .ok c ↔ Overlays d defaults c := by
  refine ⟨overlays_of_decode texts distinct, fun h => ?_⟩
  have admits : ∀ (i : Item) x, i.given? d = some x → i.Admits x :=
    fun i x text => (h.given text).admits
  obtain ⟨c', read⟩ := decode_ok texts distinct admits defaults
  rw [read, h.unique (overlays_of_decode texts distinct read)]

end Decoding

namespace Config

/-- **Documents overlay the defaults.** A file whose document has tables in the place of the
sections and texts at the keys of the items is loaded just when every text can be given to its
item. Each item is then what the document gives to it, in its own section and at its own key, or
else the default. Whatever else is in the document changes nothing: another one that gives the
same to the items describes the same configuration. -/
theorem load_overlays_defaults {e : Environment} {t : FileTree} {p : Path} {text : List Char}
    {d : Fields} (file : t.readText p = .ok text) (document : Reader.document text = .ok d)
    (texts : TextsOnly d) :
    ((∃ c, loadFrom e t p = .ok c) ↔ ∀ (i : Item) x, i.given? d = some x → i.Admits x) ∧
      (∀ c, loadFrom e t p = .ok c ↔ Overlays d (default e) c) ∧
      ∀ d' : Fields, d'.Distinct → TextsOnly d' → (∀ i : Item, i.given? d' = i.given? d) →
        ∀ c, decode (default e) d' = .ok c ↔ loadFrom e t p = .ok c := by
  have distinct := Reader.distinct_document document
  -- the file is read as the document, and a document has distinct keys
  have loaded : ∀ c, loadFrom e t p = .ok c ↔ Overlays d (default e) c := by
    intro c
    rw [← decode_eq_ok_iff texts distinct, loadFrom, file]
    dsimp only
    rw [read, document]
    dsimp only
    split <;> simp_all
  refine ⟨⟨?_, fun admits => ?_⟩, loaded, ?_⟩
  · rintro ⟨c, h⟩ i x given
    exact (((loaded c).1 h).given given).admits
  · obtain ⟨c, read⟩ := decode_ok texts distinct admits (default e)
    exact ⟨c, (loaded c).2 (overlays_of_decode texts distinct read)⟩
  · intro d' distinct' texts' same c
    rw [loaded, decode_eq_ok_iff texts' distinct']
    exact Overlays.congr same

/-- A text in which one setting has that name for its value, another section has nothing but a table
of its own, and names of settings stand where they mean nothing. -/
def sparseText (mode : String) : List Char :=
  ("log_level = \"Trace\"\n[emulation]\ncpu_mode = \"" ++ mode ++ "\"\n"
    ++ "working_dir = [1, \x7b a = 2 \x7d]\n[debug.more]\nlog_level = 3\n"
    ++ "[[extra]]\ncpu_mode = true\n").toList

/-- A file with that text. -/
def sparseFile (mode : String) : FileTree :=
  FileTree.empty.put [[0x66]] (.file (Utf8.encode (sparseText mode)))

/-- Nothing of it counts but the name, which has to be in the right spelling. -/
theorem load_overlays_defaults_sparse :
    (sparseFile "Interpreter").readText ⟨[0x2F, 0x66]⟩ = .ok (sparseText "Interpreter") ∧
    (∃ d, Reader.document (sparseText "Interpreter") = .ok d ∧ TextsOnly d ∧
      Overlays d (default {}) { default {} with modes := { cpu := .interpreter } }) ∧
    loadFrom {} (sparseFile "Interpreter") ⟨[0x2F, 0x66]⟩ =
      .ok { default {} with modes := { cpu := .interpreter } } ∧
    ¬∃ c, loadFrom {} (sparseFile "interpreter") ⟨[0x2F, 0x66]⟩ = .ok c := by
  have file : ∀ mode, (sparseFile mode).readText ⟨[0x2F, 0x66]⟩ = .ok (sparseText mode) := by
    intro mode
    have bytes : (sparseFile mode).readBytes ⟨[0x2F, 0x66]⟩ = .ok (Utf8.encode (sparseText mode)) :=
      rfl
    rw [FileTree.readText, bytes]
    simp only [Utf8.decode_eq_some_iff.2 rfl]
  -- the document is evaluated once; what is in it is then asked of the result
  have document : ∀ mode ∈ ["Interpreter", "interpreter"], ∃ d,
      Reader.document (sparseText mode) = .ok d ∧ TextsOnly d ∧
        (Item.mode .cpu).given? d = some mode := by
    intro mode there
    have fits : (Reader.document (sparseText mode)).toOption.any
        (fun d => decide (TextsOnly d ∧ (Item.mode .cpu).given? d = some mode)) = true := by
      simp only [List.mem_cons, List.not_mem_nil, or_false] at there
      obtain rfl | rfl := there <;> decide +kernel
    cases read : Reader.document (sparseText mode) with
    | ok d =>
      rw [read] at fits
      exact ⟨d, rfl, of_decide_eq_true fits⟩
    | error r =>
      rw [read] at fits
      cases fits
  have loaded : loadFrom {} (sparseFile "Interpreter") ⟨[0x2F, 0x66]⟩ =
      .ok { default {} with modes := { cpu := .interpreter } } := by decide +kernel
  obtain ⟨d, read, texts, -⟩ := document "Interpreter" (by simp)
  obtain ⟨d', read', texts', given⟩ := document "interpreter" (by simp)
  refine ⟨file _, ⟨d, read, texts, ?_⟩, loaded, fun success => ?_⟩
  · exact ((load_overlays_defaults (file _) read texts).2.1 _).1 loaded
  · obtain ⟨m, -, named⟩ :=
      (load_overlays_defaults (file _) read' texts').1.1 success (.mode .cpu) "interpreter" given
    cases m with
    | renderer v | soundCore v | cpu v | soundSync v => cases v <;> exact absurd named (by decide)

end Config
end EmuScheduler
