import EmuScheduler.Toml.Reader
import Mathlib.Data.List.Nodup

/-!
# The keys of a document are distinct

In no table of a document that was read do two fields have one name (`distinct_document`), so the
order of its fields decides nothing that is asked of it by name (`get?_of_mem`).

A field is added to a table only where `Fields.get?` finds none of its name, or where the one of its
name is replaced or removed. Everything else that changes a document goes through `Fields.within`,
which does such a change somewhere in the tree and rebuilds the tables on the way to it. So the
proof has two parts: the changes (`distinct_within` and its leaves), and the readers, which only
ever put values together that have been read (`distinct_value`).
-/

namespace EmuScheduler

section Results

variable {ε ε' α β : Type} {x : Except ε α} {a : α} {b : β}

/-- What succeeds in two parts has succeeded in the first, and in the second with what that gave. -/
theorem bind_eq_ok {f : α → Except ε β} : x >>= f = .ok b ↔ ∃ a, x = .ok a ∧ f a = .ok b := by
  cases x <;> simp [bind, Except.bind]

/-- To change a result does not change whether there is one. -/
theorem map_eq_ok {f : α → β} : x.map f = .ok b ↔ ∃ a, x = .ok a ∧ f a = b := by
  cases x <;> simp [Except.map]

/-- To change an error does not touch a result. -/
theorem mapError_eq_ok {f : ε → ε'} : x.mapError f = .ok a ↔ x = .ok a := by
  cases x <;> simp [Except.mapError]

end Results

namespace Toml

/-- In no table of the value do two fields have one name. -/
inductive Value.Distinct : Value → Prop where
  | scalar (place : Span) (s : Scalar) : Distinct (.scalar place s)
  | array {place : Span} {items : List Value} (each : ∀ v ∈ items, Distinct v) :
    Distinct (.array place items)
  | elements {tables : List Value} (each : ∀ v ∈ tables, Distinct v) : Distinct (.elements tables)
  | table {origin : Origin} {place? : Option Span} {fields : Fields}
    (names : (fields.map (·.1.name)).Nodup) (each : ∀ f ∈ fields, Distinct f.2) :
    Distinct (.table origin place? fields)

namespace Fields

/-- No two fields have one name, nor do those in a table below. -/
structure Distinct (fs : Fields) : Prop where
  names : (fs.map (·.1.name)).Nodup
  each : ∀ f ∈ fs, f.2.Distinct

variable {fs fs' : Fields} {name : String} {key : Key} {v : Value} {origin : Origin}
  {place? : Option Span}

/-- The keys of a table are those of its fields. -/
theorem distinct_table : (Value.table origin place? fs).Distinct ↔ fs.Distinct :=
  ⟨fun | .table names each => ⟨names, each⟩, fun ⟨names, each⟩ => .table names each⟩

/-- An array of tables has distinct keys if its tables have. -/
theorem distinct_elements {tables : List Value} :
    (Value.elements tables).Distinct ↔ ∀ v ∈ tables, v.Distinct :=
  ⟨fun | .elements each => each, .elements⟩

theorem distinct_nil : Distinct [] :=
  ⟨List.nodup_nil, nofun⟩

/-! ## What is found by a name -/

/-- Nothing is found by a name that no field has. -/
theorem get?_eq_none_iff : get? name fs = none ↔ name ∉ fs.map (·.1.name) := by
  simp [get?]

/-- What is found by a name is a field of that name. -/
theorem mem_of_get? (found : get? name fs = some v) :
    ∃ key : Key, key.name = name ∧ (key, v) ∈ fs := by
  obtain ⟨⟨key, w⟩, first, rfl⟩ := Option.map_eq_some_iff.1 found
  exact ⟨key, by simpa using List.find?_some first, List.mem_of_find?_eq_some first⟩

/-- What is found in a table is as the table is. -/
theorem Distinct.get? (h : Distinct fs) (found : get? name fs = some v) : v.Distinct := by
  obtain ⟨key, -, there⟩ := mem_of_get? found
  exact h.each _ there

/-- Where names are distinct, every field is the one that is found by its name. -/
theorem get?_of_mem (names : (fs.map (·.1.name)).Nodup) (there : (key, v) ∈ fs) :
    get? key.name fs = some v := by
  induction fs with
  | nil => cases there
  | cons f fs ih =>
    obtain ⟨new, names⟩ := List.nodup_cons.1 names
    -- a field of that name before this one would have the name twice
    obtain rfl | there := List.mem_cons.1 there
    · simp [Fields.get?]
    · have other : f.1.name ≠ key.name := fun same =>
        new (List.mem_map.2 ⟨_, there, same.symm⟩)
      simpa [Fields.get?, other] using ih names there

/-! ## Changes -/

/-- A field of a new name can be added. -/
theorem Distinct.concat (h : Distinct fs) (new : Fields.get? key.name fs = none)
    (value : v.Distinct) : Distinct (fs ++ [(key, v)]) where
  names := by
    rw [List.map_append, List.map_singleton, ← List.concat_eq_append]
    exact h.names.concat (get?_eq_none_iff.1 new)
  each := List.forall_mem_append.2 ⟨h.each, List.forall_mem_singleton.2 value⟩

/-- To replace a value leaves the names as they are. -/
theorem names_replace : (replace name v fs).map (·.1.name) = fs.map (·.1.name) := by
  rw [replace, List.map_map]
  refine List.map_congr_left fun f _ => ?_
  dsimp only [Function.comp]
  split <;> rfl

theorem Distinct.replace (h : Distinct fs) (value : v.Distinct) :
    Distinct (replace name v fs) where
  names := by
    rw [names_replace]
    exact h.names
  each := by
    refine List.forall_mem_map.2 fun f there => ?_
    split
    · exact value
    · exact h.each f there

/-- A field can be taken away. -/
theorem Distinct.remove (h : Distinct fs) : Distinct (remove name fs) where
  names := h.names.sublist (List.filter_sublist.map _)
  each f there := h.each f (List.mem_of_mem_filter there)

/-- What was removed is not found any more. -/
theorem get?_remove : Fields.get? name (remove name fs) = none := by
  simp [get?_eq_none_iff, Fields.remove]

/-- A change somewhere in the tree keeps names distinct, if it does so in the table it is made
in. -/
theorem distinct_within {route : Route} {leaf : Origin → Fields → Except Objection Fields}
    (keeps : ∀ {origin fs fs'}, leaf origin fs = .ok fs' → Distinct fs → Distinct fs')
    {walked : List String} {path : List Key}
    (changed : within route leaf walked path origin fs = .ok fs') (h : Distinct fs) :
    Distinct fs' := by
  -- along the path, where each table on the way is rebuilt with the changed one below it
  induction path generalizing walked origin fs fs' with
  | nil => exact keeps changed h
  | cons key path ih =>
    rw [within] at changed
    split at changed
    · next new =>
      -- a table that is missing on the way comes into being, with what is made of no fields
      obtain ⟨inner, within, rfl⟩ := map_eq_ok.1 changed
      exact h.concat new (distinct_table.2 (ih within distinct_nil))
    · next found =>
      split_ifs at changed
      obtain ⟨inner', within, rfl⟩ := map_eq_ok.1 changed
      exact h.replace (distinct_table.2 (ih within (distinct_table.1 (h.get? found))))
    · next tables found =>
      split at changed
      · next reversed =>
        -- of an array of tables it is the last one that changes
        obtain ⟨inner', within, rfl⟩ := map_eq_ok.1 changed
        have each := distinct_elements.1 (h.get? found)
        rw [List.reverse_eq_cons_iff.1 reversed, List.forall_mem_append,
          List.forall_mem_singleton] at each
        refine h.replace (distinct_elements.2 (List.forall_mem_append.2 ⟨each.1, ?_⟩))
        exact List.forall_mem_singleton.2
          (distinct_table.2 (ih within (distinct_table.1 each.2)))
      · cases changed
    · cases changed

/-- An assignment adds a field where there was none of its name. -/
theorem distinct_assign {route : Route} {table? : Option (List String)} {path : List Key}
    (value : v.Distinct) (assigned : assign route table? path key v origin fs = .ok fs')
    (h : Distinct fs) : Distinct fs' := by
  refine distinct_within (fun {origin fs fs'} added h => ?_) assigned h
  split_ifs at added with made taken
  cases added
  exact h.concat (by simpa using taken) value

/-- A header makes an empty table, or takes one that was only implied. -/
theorem distinct_openTable {objection : Objection} {place : Span}
    (opened : openTable objection key place origin fs = .ok fs') (h : Distinct fs) :
    Distinct fs' := by
  unfold openTable at opened
  split at opened
  · next new =>
    cases opened
    exact h.concat new (distinct_table.2 distinct_nil)
  · next found =>
    -- a table that was only implied so far moves to the end
    cases opened
    exact h.remove.concat get?_remove (distinct_table.2 (distinct_table.1 (h.get? found)))
  · cases opened

/-- A header of an array adds an empty table to it. -/
theorem distinct_openElement {objection : Objection} {place : Span}
    (opened : openElement objection key place origin fs = .ok fs') (h : Distinct fs) :
    Distinct fs' := by
  have element : (Value.table .header (some place) []).Distinct := distinct_table.2 distinct_nil
  unfold openElement at opened
  dsimp only at opened
  split at opened
  · next new =>
    cases opened
    exact h.concat new (distinct_elements.2 (List.forall_mem_singleton.2 element))
  · next tables found =>
    cases opened
    have each := distinct_elements.1 (h.get? found)
    exact h.replace (distinct_elements.2
      (List.forall_mem_append.2 ⟨each, List.forall_mem_singleton.2 element⟩))
  · cases opened

/-- The fields of an inline table are assigned one by one. -/
theorem distinct_ofAssignments {pairs : List ((List Key × Key) × Value)}
    (values : ∀ p ∈ pairs, p.2.Distinct) (made : ofAssignments pairs = .ok fs) : Distinct fs := by
  -- for any fields to begin with, as long as those are distinct
  suffices folded : ∀ {fs₀ : Fields}, Distinct fs₀ →
      pairs.foldlM (fun fs p => assign .inline none p.1.1 p.1.2 p.2 .inline fs) fs₀ = .ok fs →
      Distinct fs from folded distinct_nil made
  clear made
  induction pairs with
  | nil =>
    rintro fs₀ h ⟨⟩
    exact h
  | cons p pairs ih =>
    obtain ⟨value, values⟩ := List.forall_mem_cons.1 values
    intro fs₀ h made
    rw [List.foldlM_cons] at made
    obtain ⟨fs₁, assigned, made⟩ := bind_eq_ok.1 made
    exact ih values (distinct_assign value assigned h) made

end Fields

/-! ## Statements -/

/-- The value of an assignment is such that names are distinct in it. -/
def Statement.Distinct : Statement → Prop
  | .assign _ _ v => v.Distinct
  | .header _ _ _ | .elementHeader _ _ _ => True

/-- Headers that are added have no values. -/
theorem distinct_withSections {ss : List Statement} (h : ∀ s ∈ ss, s.Distinct) :
    ∀ s ∈ Statement.withSections ss, s.Distinct := by
  induction ss with
  | nil => exact nofun
  | cons s ss ih =>
    obtain ⟨first, rest⟩ := List.forall_mem_cons.1 h
    cases s with
    | assign | header | elementHeader => exact List.forall_mem_cons.2 ⟨first, ih rest⟩

namespace Draft

/-- Each statement makes one of the changes above, in the table that the last header has opened. -/
theorem distinct_extend {d d' : Draft} {s : Statement} (extended : d.extend s = .ok d')
    (value : s.Distinct) (h : d.fields.Distinct) : d'.fields.Distinct := by
  cases s with
  | assign path key v =>
    obtain ⟨fs, changed, rfl⟩ := map_eq_ok.1 extended
    exact Fields.distinct_within (Fields.distinct_assign value) changed h
  | header path key place =>
    obtain ⟨fs, changed, rfl⟩ := map_eq_ok.1 extended
    exact Fields.distinct_within Fields.distinct_openTable changed h
  | elementHeader path key place =>
    obtain ⟨fs, changed, rfl⟩ := map_eq_ok.1 extended
    exact Fields.distinct_within Fields.distinct_openElement changed h

/-- A document is made by its statements, one after the other. -/
theorem distinct_extendAll {d d' : Draft} {ss : List Statement}
    (extended : d.extendAll ss = .ok d') (values : ∀ s ∈ ss, s.Distinct)
    (h : d.fields.Distinct) : d'.fields.Distinct := by
  induction ss generalizing d with
  | nil =>
    cases extended
    exact h
  | cons s ss ih =>
    obtain ⟨value, values⟩ := List.forall_mem_cons.1 values
    rw [extendAll] at extended
    split at extended
    · next d₁ first => exact ih extended values (distinct_extend first value h)
    · cases extended

end Draft

/-! ## Readers -/

namespace Reader

variable {count depth : Nat} {cs rest : List Char} {v : Value}

theorem distinct_scalar (read : scalar cs = .ok (v, rest)) : v.Distinct := by
  obtain ⟨_, -, eq⟩ := map_eq_ok.1 read
  cases eq
  exact .scalar _ _

section Parts

variable {value : List Char → Taken Value}
  (distinct : ∀ {cs v rest}, value cs = .ok (v, rest) → v.Distinct)
include distinct

/-- An item of an array is a value with blanks around it. -/
theorem distinct_item (read : item value cs = .ok (v, rest)) : v.Distinct := by
  obtain ⟨cs₁, -, read⟩ := bind_eq_ok.1 read
  obtain ⟨⟨w, cs₂⟩, first, read⟩ := bind_eq_ok.1 read
  obtain ⟨cs₃, -, read⟩ := bind_eq_ok.1 read
  cases read
  exact distinct first

/-- The items of an array were each read as a value. -/
theorem distinct_items {vs : List Value} (read : items value count cs = .ok (vs, rest)) :
    ∀ v ∈ vs, v.Distinct := by
  induction count generalizing cs vs rest with
  | zero =>
    cases read
    exact nofun
  | succ count ih =>
    rw [items] at read
    split at read
    · split_ifs at read
      cases read
      exact nofun
    · next first =>
      obtain ⟨⟨vs, rest'⟩, more, eq⟩ := map_eq_ok.1 read
      cases eq
      exact List.forall_mem_cons.2 ⟨distinct_item distinct first, ih more⟩
    · next first =>
      cases read
      exact List.forall_mem_singleton.2 (distinct_item distinct first)

/-- So were the items of an array in its brackets. -/
theorem distinct_array {vs : List Value} (read : array value cs = .ok (vs, rest)) :
    ∀ v ∈ vs, v.Distinct := by
  obtain ⟨⟨ws, cs₁⟩, all, read⟩ := bind_eq_ok.1 read
  obtain ⟨cs₂, -, read⟩ := bind_eq_ok.1 read
  split at read <;> cases read
  exact distinct_items distinct all

/-- The value of a pair was read as one. -/
theorem distinct_keyValue {p : (List Key × Key) × Value}
    (read : keyValue value cs = .ok (p, rest)) : p.2.Distinct := by
  obtain ⟨⟨k, cs₁⟩, -, read⟩ := bind_eq_ok.1 read
  obtain ⟨⟨w, cs₂⟩, given, read⟩ := bind_eq_ok.1 read
  cases read
  have given := mapError_eq_ok.1 given
  unfold assigned at given
  split at given
  · exact distinct given
  · cases given

/-- So were the values of all pairs in braces. -/
theorem distinct_pairs {ps : List ((List Key × Key) × Value)}
    (read : pairs value count cs = .ok (ps, rest)) : ∀ p ∈ ps, p.2.Distinct := by
  induction count generalizing cs ps rest with
  | zero =>
    cases read
    exact nofun
  | succ count ih =>
    rw [pairs] at read
    split at read
    · split_ifs at read
      cases read
      exact nofun
    · next first =>
      have value := distinct_keyValue distinct first
      split at read
      · -- behind the comma there may be no pair, and then the comma is left unread
        split at read
        · cases read
        · cases read
          exact List.forall_mem_singleton.2 value
        · next more =>
          cases read
          exact List.forall_mem_cons.2 ⟨value, ih more⟩
      · cases read
        exact List.forall_mem_singleton.2 value

/-- An inline table is made of its pairs. -/
theorem distinct_inlineTable {fs : Fields} (read : inlineTable value cs = .ok (fs, rest)) :
    fs.Distinct := by
  obtain ⟨⟨ps, cs₁⟩, all, read⟩ := bind_eq_ok.1 read
  obtain ⟨fs', made, read⟩ := bind_eq_ok.1 read
  split at read <;> cases read
  exact Fields.distinct_ofAssignments (distinct_pairs distinct all) (mapError_eq_ok.1 made)

end Parts

/-- In a value that was read names are distinct, however deep it is. -/
theorem distinct_value (read : value depth cs = .ok (v, rest)) : v.Distinct := by
  -- on the depth: what brackets and braces hold is read with one less
  induction depth generalizing cs v rest with
  | zero =>
    unfold Reader.value at read
    split at read
    · cases read
    · cases read
    · exact distinct_scalar read
  | succ depth ih =>
    unfold Reader.value at read
    -- the first character says whether it is an array, a table or a scalar
    split at read
    · obtain ⟨⟨vs, rest'⟩, all, eq⟩ := map_eq_ok.1 read
      cases eq
      exact .array (distinct_array ih all)
    · obtain ⟨⟨fs, rest'⟩, all, eq⟩ := map_eq_ok.1 read
      cases eq
      exact Fields.distinct_table.2 (distinct_inlineTable ih all)
    · exact distinct_scalar read

/-- A statement that was read is a header or assigns a value that was read. -/
theorem distinct_statement {s : Statement} (read : statement cs = .ok (s, rest)) :
    s.Distinct := by
  unfold statement at read
  split at read
  · -- a header has no value
    have read := mapError_eq_ok.1 read
    unfold header at read
    split at read
    · cases read
    · obtain ⟨_, -, read⟩ := bind_eq_ok.1 read
      obtain ⟨_, -, read⟩ := bind_eq_ok.1 read
      cases read
      trivial
    · obtain ⟨_, -, read⟩ := bind_eq_ok.1 read
      obtain ⟨_, -, read⟩ := bind_eq_ok.1 read
      cases read
      trivial
  · obtain ⟨⟨⟨k, v⟩, cs₁⟩, given, read⟩ := bind_eq_ok.1 read
    obtain ⟨_, -, read⟩ := bind_eq_ok.1 read
    cases read
    exact distinct_keyValue distinct_value given

/-- So are all statements up to the first that cannot be read. -/
theorem distinct_statements : ∀ s ∈ (statements count cs).1, s.Distinct := by
  induction count generalizing cs with
  | zero => exact nofun
  | succ count ih =>
    rw [statements]
    -- what is neither blank nor a comment is read as a statement
    split
    · exact nofun
    · split
      · exact ih
      · exact nofun
    · split
      · exact ih
      · exact nofun
    · split
      · exact ih
      · exact nofun
    · split
      · exact nofun
      · next first => exact List.forall_mem_cons.2 ⟨distinct_statement first, ih⟩

/-- **The keys of a document are distinct**, in every table of it. -/
theorem distinct_document {d : Fields} (read : document cs = .ok d) : d.Distinct := by
  unfold document at read
  dsimp only at read
  split at read
  · cases read
  · cases read
  · next extended _ =>
    cases read
    exact Draft.distinct_extendAll extended (distinct_withSections distinct_statements)
      Fields.distinct_nil

end Reader
end Toml
end EmuScheduler
