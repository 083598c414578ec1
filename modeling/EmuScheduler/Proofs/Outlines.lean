import EmuScheduler.Config.File
import EmuScheduler.Proofs.QuotedStrings
import Mathlib.Data.List.Forall2

/-!
# Outlines of documents

A text of headings with settings below them is read as its outline: every heading is a table and
every setting a string in it, whatever the strings hold (`document_lines`).

The proof goes the way of the reader.

* A line is read as a statement that says the same, and what follows the line is left
  (`statement_line`). Names are `Bare` here, so only the texts are written in quotes, and a line
  break follows them, which is all that `Quoted.read_write` asks for. Folded along the lines this is
  `statements_lines`.
* `Drafted o d` says that the document in the making `d` holds the outline `o` and has its last
  heading open. One statement more makes it hold the outline with one clause more
  (`drafted_extend`), as long as no name is taken; `Outline.add?` says when that is so.

Places are left open throughout (`Clause.StatedBy`, `Holds`): where a thing is written depends on
all that follows it, and no configuration depends on it.
-/

namespace EmuScheduler
namespace Toml

/-- A line that says something: a heading, or the setting of a key to a text. -/
inductive Clause where
  | heading (name : String)
  | setting (key : String) (text : List Char)

namespace Clause

/-- The name in a clause. -/
def name : Clause → String
  | heading name => name
  | setting key _ => key

/-- The line of a clause. -/
def line : Clause → List Char
  | heading name => '[' :: name.toList ++ [']', '\n']
  | setting key text => Config.line key text

/-- The statement says what the clause says, wherever it is written. -/
def StatedBy : Clause → Statement → Prop
  | heading name, st => ∃ key place, st = .header [] key place ∧ key.name = name
  | setting name text, st => ∃ key place,
    st = .assign [] key (.scalar place (.string (String.ofList text))) ∧ key.name = name

end Clause

/-! ## Lines -/

/-- A name that is written without quotes. -/
def Bare (name : String) : Prop :=
  name.toList ≠ [] ∧ name.toList.all Key.isBare = true

instance (name : String) : Decidable (Bare name) :=
  inferInstanceAs (Decidable (_ ∧ _))

/-- A character that may stand in a bare key is not one that may not. -/
theorem ne_of_isBare {c d : Char} (h : Key.isBare c = true) (h' : Key.isBare d = false) :
    c ≠ d := by
  rintro rfl
  exact absurd h (Bool.eq_false_iff.1 h')

theorem isBlank_of_isBare {c : Char} (h : Key.isBare c = true) : isBlank c = false := by
  rw [isBlank, decide_eq_false (ne_of_isBare h rfl), decide_eq_false (ne_of_isBare h rfl)]
  rfl

theorem Bare.isBare {name : String} (h : Bare name) : ∀ c ∈ name.toList, Key.isBare c = true :=
  List.all_eq_true.1 h.2

/-- A bare key is not empty. -/
theorem Bare.front {name : String} (h : Bare name) :
    ∃ c cs, name.toList = c :: cs ∧ Key.isBare c = true := by
  cases eq : name.toList with
  | nil => exact absurd eq h.1
  | cons c cs => exact ⟨c, cs, rfl, h.isBare c (eq ▸ List.mem_cons_self)⟩

/-- A bare key is read up to the first character that cannot belong to it. -/
theorem readPart_bare {name : String} (h : Bare name) {x : Char} (stop : Key.isBare x = false)
    (rest : List Char) :
    ∃ key, Key.readPart (name.toList ++ x :: rest) = .ok (key, x :: rest) ∧ key.name = name := by
  have taken : (name.toList ++ x :: rest).takeWhile Key.isBare = name.toList := by
    rw [List.takeWhile_append_of_pos h.isBare, List.takeWhile_cons_of_neg (by simp [stop]),
      List.append_nil]
  have left : (name.toList ++ x :: rest).dropWhile Key.isBare = x :: rest := by
    rw [List.dropWhile_append_of_pos h.isBare, List.dropWhile_cons_of_neg (by simp [stop])]
  -- its first character is no quote, so it is not taken for a quoted key
  obtain ⟨c, cs, eq, bare⟩ := h.front
  refine ⟨⟨name, .between (name.toList ++ x :: rest) (x :: rest)⟩, ?_, rfl⟩
  unfold Key.readPart
  dsimp only
  split
  · next quoted => exact absurd (by simp_all) (ne_of_isBare bare (d := '"') rfl)
  · next quoted => exact absurd (by simp_all) (ne_of_isBare bare (d := '\'') rfl)
  · rw [taken, left, eq, ← String.ofList_toList (s := name), eq]

/-- A key that is a bare name is read up to the next character that cannot belong to it. -/
theorem read_bare {name : String} (h : Bare name) {x y : Char} {rest rest' : List Char}
    (stop : Key.isBare x = false) (after : Key.skipBlanks (x :: rest) = y :: rest')
    (dot : y ≠ '.') :
    ∃ key, Key.read (name.toList ++ x :: rest) = .ok (([], key), y :: rest') ∧
      key.name = name := by
  obtain ⟨key, part, called⟩ := readPart_bare h stop rest
  obtain ⟨c, cs, eq, bare⟩ := h.front
  have front : Key.skipBlanks (name.toList ++ x :: rest) = name.toList ++ x :: rest := by
    rw [eq, List.cons_append, Key.skipBlanks,
      List.dropWhile_cons_of_neg (by simp [isBlank_of_isBare bare])]
  refine ⟨key, ?_, called⟩
  simp [Key.read, Key.readParts, front, part, after, dot, Key.limit]

/-- A written string begins with a quote. -/
theorem write_front (s : List Char) : ∃ q w, Quoted.write s = q :: w ∧ Quoted.IsQuote q := by
  have quote := (Quoted.delimiterFor_fits s).1
  cases multi : (Quoted.delimiterFor s).multiline <;>
    exact ⟨_, _, by simp only [Quoted.write, Quoted.writeWith, Delimiter.marks, multi]; rfl, quote⟩

/-- A text that was written is read back as the value of a setting. -/
theorem value_write (s rest : List Char) :
    ∃ place, Reader.value Reader.depthLimit (Quoted.write s ++ '\n' :: rest) =
      .ok (.scalar place (.string (String.ofList s)), '\n' :: rest) := by
  have read := Quoted.read_write s ('\n' :: rest) (by simp) (by simp)
  obtain ⟨q, w, eq, quote⟩ := write_front s
  refine ⟨.between (Quoted.write s ++ '\n' :: rest) ('\n' :: rest), ?_⟩
  rw [eq, List.cons_append] at read ⊢
  obtain rfl | rfl := quote <;>
    simp [Reader.value, Reader.depthLimit, Reader.scalar, Reader.bareScalar, read, Except.map]

/-- A header of a table does not begin with two brackets. -/
theorem header_single {c : Char} {cs : List Char} (h : c ≠ '[') :
    Reader.header ('[' :: c :: cs) = (Reader.bracketed 1 ('[' :: c :: cs)).bind fun r =>
      (Reader.statementEnd r.2).map fun rest => (.header r.1.1.1 r.1.1.2 r.1.2, rest) := by
  unfold Reader.header
  split
  · next eq => simp at eq
  · next eq => simp_all
  · rfl

/-- A line with a heading is read as one. -/
theorem header_line {name : String} (bare : Bare name) (rest : List Char) :
    ∃ key place, Reader.statement ('[' :: (name.toList ++ ']' :: '\n' :: rest)) =
      .ok (.header [] key place, rest) ∧ key.name = name := by
  have after : Key.skipBlanks (']' :: '\n' :: rest) = ']' :: '\n' :: rest := rfl
  obtain ⟨key, read, called⟩ := read_bare bare rfl after (by decide)
  have ⟨place, bracketed⟩ : ∃ place, Reader.bracketed 1
      ('[' :: (name.toList ++ ']' :: '\n' :: rest)) = .ok ((([], key), place), '\n' :: rest) := by
    simp [Reader.bracketed, read, List.isPrefixOf, bind, Except.bind, pure, Except.pure]
  obtain ⟨c, cs, eq, front⟩ := bare.front
  rw [eq, List.cons_append] at bracketed ⊢
  refine ⟨key, place, ?_, called⟩
  rw [Reader.statement, header_single (ne_of_isBare front rfl), bracketed]
  rfl

/-- A line with a setting is read as one. -/
theorem setting_line {name : String} (bare : Bare name) (text rest : List Char) :
    ∃ key place,
      Reader.statement (name.toList ++ ' ' :: '=' :: ' ' :: (Quoted.write text ++ '\n' :: rest)) =
        .ok (.assign [] key (.scalar place (.string (String.ofList text))), rest) ∧
      key.name = name := by
  obtain ⟨q, w, written, quote⟩ := write_front text
  -- the value begins with a quote, so no blank is skipped of it
  have front : Key.skipBlanks (' ' :: (Quoted.write text ++ '\n' :: rest)) =
      Quoted.write text ++ '\n' :: rest := by
    rw [written]
    obtain rfl | rfl := quote <;> rfl
  have after : Key.skipBlanks (' ' :: '=' :: ' ' :: (Quoted.write text ++ '\n' :: rest)) =
      '=' :: ' ' :: (Quoted.write text ++ '\n' :: rest) := rfl
  obtain ⟨key, read, called⟩ := read_bare bare rfl after (by decide)
  obtain ⟨place, value⟩ := value_write text rest
  have keyValue : Reader.keyValue (Reader.value Reader.depthLimit)
      (name.toList ++ ' ' :: '=' :: ' ' :: (Quoted.write text ++ '\n' :: rest)) =
      .ok ((([], key), .scalar place (.string (String.ofList text))), '\n' :: rest) := by
    simp [Reader.keyValue, read, Reader.assigned, front, value, bind, Except.bind, pure,
      Except.pure, Except.mapError]
  -- the line does not begin as a heading does
  obtain ⟨c, cs, eq, bareFront⟩ := bare.front
  rw [eq, List.cons_append] at keyValue ⊢
  refine ⟨key, place, ?_, called⟩
  unfold Reader.statement
  split
  · next eq => exact absurd (List.cons.inj eq).1 (ne_of_isBare bareFront rfl)
  · rw [keyValue]
    rfl

/-- A clause is read as a statement that says the same. -/
theorem statement_line {e : Clause} (bare : Bare e.name) (rest : List Char) :
    ∃ st, e.StatedBy st ∧ Reader.statement (e.line ++ rest) = .ok (st, rest) := by
  cases e with
  | heading name =>
    obtain ⟨key, place, read, called⟩ := header_line bare rest
    refine ⟨_, ⟨key, place, rfl, called⟩, ?_⟩
    simpa [Clause.line, Clause.name] using read
  | setting name text =>
    obtain ⟨key, place, read, called⟩ := setting_line bare text rest
    refine ⟨_, ⟨key, place, rfl, called⟩, ?_⟩
    simpa [Clause.line, Clause.name, Config.line] using read

/-- A line with a clause begins with a bracket or with the first character of a name. -/
theorem line_front {e : Clause} (bare : Bare e.name) :
    ∃ c cs, e.line = c :: cs ∧ (c = '[' ∨ Key.isBare c = true) := by
  cases e with
  | heading name => exact ⟨_, _, rfl, .inl rfl⟩
  | setting name text =>
    obtain ⟨c, cs, eq, front⟩ := bare.front
    refine ⟨c, cs ++ (" = ".toList ++ Quoted.write text ++ ['\n']), ?_, .inr front⟩
    simp [Clause.line, Config.line, show name.toList = c :: cs from eq]

/-- The characters of a line, which is a clause or blank. -/
def lineText : Option Clause → List Char
  | none => ['\n']
  | some e => e.line

/-- A blank line says nothing. -/
theorem statements_blank (count : Nat) (cs : List Char) :
    Reader.statements (count + 1) ('\n' :: cs) = Reader.statements count cs := by
  rfl

/-- A line with a clause adds its statement. -/
theorem statements_clause {e : Clause} (bare : Bare e.name) (count : Nat) (cs : List Char) :
    ∃ st, e.StatedBy st ∧ Reader.statements (count + 1) (e.line ++ cs) =
      (st :: (Reader.statements count cs).1, (Reader.statements count cs).2) := by
  obtain ⟨st, stated, read⟩ := statement_line bare cs
  obtain ⟨c, line, eq, front⟩ := line_front bare
  refine ⟨st, stated, ?_⟩
  rw [eq, List.cons_append] at read ⊢
  -- the line is neither blank nor a comment
  have plain : isBlank c = false ∧ c ≠ '#' ∧ c ≠ '\n' ∧ c ≠ '\r' := by
    obtain rfl | bare := front
    · decide
    · exact ⟨isBlank_of_isBare bare, ne_of_isBare bare rfl, ne_of_isBare bare rfl,
        ne_of_isBare bare rfl⟩
  have start : Key.skipBlanks (c :: (line ++ cs)) = c :: (line ++ cs) := by
    simp [Key.skipBlanks, plain]
  simp [Reader.statements, start, plain, read]

/-- Each line takes one from the count, so a count above their number reads them all. -/
theorem statements_lines {lines : List (Option Clause)}
    (bare : ∀ e ∈ lines.filterMap id, Bare e.name) {count : Nat} (enough : lines.length < count) :
    ∃ ss, List.Forall₂ Clause.StatedBy (lines.filterMap id) ss ∧
      Reader.statements count (lines.flatMap lineText) = (ss, none) := by
  -- every line takes one round of the reader, and the count is enough for all
  induction lines generalizing count with
  | nil =>
    obtain ⟨count, rfl⟩ := Nat.exists_eq_add_of_lt enough
    exact ⟨[], .nil, rfl⟩
  | cons line lines ih =>
    obtain ⟨count, rfl⟩ : ∃ n, count = n + 1 := ⟨count - 1, by omega⟩
    have enough' : lines.length < count := Nat.lt_of_succ_lt_succ enough
    cases line with
    | none =>
      obtain ⟨ss, stated, read⟩ := ih bare enough'
      exact ⟨ss, stated, (statements_blank count _).trans read⟩
    | some e =>
      obtain ⟨ss, stated, read⟩ := ih (fun e' h => bare e' (List.mem_cons_of_mem _ h)) enough'
      obtain ⟨st, statedFirst, readFirst⟩ :=
        statements_clause (bare e List.mem_cons_self) count (lines.flatMap lineText)
      exact ⟨st :: ss, .cons statedFirst stated, by simpa [lineText, read] using readFirst⟩

/-! ## Assembling the statements -/

/-- The headings of a text, each with the settings below it. -/
abbrev Outline := List (String × List (String × List Char))

/-- The outline with one more clause, unless its name is taken or a setting has no heading. -/
def Outline.add? (o : Outline) : Clause → Option Outline
  | .heading name => if name ∈ o.map Prod.fst then none else some (o ++ [(name, [])])
  | .setting key text =>
    match o.getLast? with
    | none => none
    | some (name, settings) =>
      if key ∈ settings.map Prod.fst then none
      else some (o.dropLast ++ [(name, settings ++ [(key, text)])])

/-- The fields have these names, in this order, and values that are as they should be. -/
def Holds {α : Type} (P : Value → α → Prop) (fs : Fields) (ps : List (String × α)) : Prop :=
  List.Forall₂ (fun f p => f.1.name = p.1 ∧ P f.2 p.2) fs ps

/-- The value is that text. -/
def IsText (v : Value) (text : List Char) : Prop :=
  ∃ place, v = .scalar place (.string (String.ofList text))

/-- The value is a table with these settings. -/
def IsTable (v : Value) (settings : List (String × List Char)) : Prop :=
  ∃ origin place? inner, v = .table origin place? inner ∧ Holds IsText inner settings

section Holds

variable {α : Type} {P : Value → α → Prop} {fs : Fields} {ps : List (String × α)}

/-- The fields have the names in order. -/
theorem Holds.names (h : Holds P fs ps) : fs.map (·.1.name) = ps.map Prod.fst := by
  unfold Holds at h
  induction h with
  | nil => rfl
  | cons same _ ih => rw [List.map_cons, List.map_cons, same.1, ih]

theorem Holds.concat {key : Key} {v : Value} {a : α} (h : Holds P fs ps) (value : P v a) :
    Holds P (fs ++ [(key, v)]) (ps ++ [(key.name, a)]) :=
  List.rel_append h (.cons ⟨rfl, value⟩ .nil)

/-- The first field holds the first value. -/
theorem Holds.of_cons {name : String} {a : α} (h : Holds P fs ((name, a) :: ps)) :
    ∃ place v fs', fs = (⟨name, place⟩, v) :: fs' ∧ P v a ∧ Holds P fs' ps := by
  obtain _ | @⟨⟨⟨called, place⟩, v⟩, _, fs', _, ⟨rfl, value⟩, rest⟩ := h
  exact ⟨place, v, fs', rfl, value, rest⟩

/-- A name that is not taken is not found, and leads to the field that is added under it. -/
theorem Holds.get?_eq_none (h : Holds P fs ps) {name : String} (new : name ∉ ps.map Prod.fst) :
    Fields.get? name fs = none := by
  rw [← h.names] at new
  simpa [Fields.get?] using new

/-- A field that was put last under a new name is found by it. -/
theorem Holds.get?_concat (h : Holds P fs ps) {key : Key} (new : key.name ∉ ps.map Prod.fst)
    (v : Value) : Fields.get? key.name (fs ++ [(key, v)]) = some v := by
  rw [← h.names] at new
  simp only [Fields.get?, List.find?_append]
  rw [List.find?_eq_none.2 (by simpa using new)]
  simp

/-- To replace that field leaves the others as they are. -/
theorem Holds.replace_concat (h : Holds P fs ps) {key : Key} (new : key.name ∉ ps.map Prod.fst)
    (v v' : Value) : Fields.replace key.name v' (fs ++ [(key, v)]) = fs ++ [(key, v')] := by
  rw [← h.names] at new
  have others : ∀ f ∈ fs, (if f.1.name = key.name then (f.1, v') else f) = f := by
    intro f mem
    refine if_neg fun (same : f.1.name = key.name) => new ?_
    exact same ▸ List.mem_map.2 ⟨f, mem, rfl⟩
  simp [Fields.replace, List.map_congr_left others]

end Holds

/-- A document in the making that holds an outline, and has the last heading open. -/
inductive Drafted : Outline → Draft → Prop where
  | start : Drafted [] {}
  | under {o : Outline} {before inner : Fields} {key : Key} {place? : Option Span}
    {settings : List (String × List Char)} : Holds IsTable before o →
    key.name ∉ o.map Prod.fst → Holds IsText inner settings →
    Drafted (o ++ [(key.name, settings)]) ⟨before ++ [(key, .table .header place? inner)], [key]⟩

/-- The tables of a draft are those of its outline. -/
theorem Drafted.holds {o : Outline} {d : Draft} (h : Drafted o d) : Holds IsTable d.fields o := by
  cases h with
  | start => exact .nil
  | under tables _ settings => exact tables.concat ⟨_, _, _, rfl, settings⟩

/-- A clause that may be added to the outline may be added to the draft. -/
theorem drafted_extend {o o' : Outline} {d : Draft} {e : Clause} {st : Statement} (h : Drafted o d)
    (stated : e.StatedBy st) (added : o.add? e = some o') :
    ∃ d', d.extend st = .ok d' ∧ Drafted o' d' := by
  -- a heading begins a table under a new name, and a setting goes into the last one
  cases e with
  | heading name =>
    obtain ⟨key, place, rfl, rfl⟩ := stated
    simp only [Outline.add?] at added
    split at added
    · cases added
    · next new =>
      cases added
      refine ⟨⟨d.fields ++ [(key, .table .header (some place) [])], [key]⟩, ?_,
        .under h.holds new .nil⟩
      simp [Draft.extend, Fields.within, Fields.openTable, h.holds.get?_eq_none new, Except.map]
  | setting name text =>
    obtain ⟨key, place, rfl, rfl⟩ := stated
    cases h with
    | start => cases added
    | @under o before inner heading place? settings tables new values =>
      simp only [Outline.add?, List.getLast?_concat, List.dropLast_concat] at added
      split at added
      · cases added
      · next free =>
        cases added
        refine ⟨⟨before ++ [(heading, .table .header place? (inner ++ [_]))], [heading]⟩, ?_,
          .under tables new (values.concat ⟨place, rfl⟩)⟩
        simp [Draft.extend, Fields.within, tables.get?_concat new, Route.mayPass, Fields.assign,
          values.get?_eq_none free, tables.replace_concat new, Except.map]

/-- So with several clauses. -/
theorem drafted_extendAll {o o' : Outline} {d : Draft} {es : List Clause} {ss : List Statement}
    (h : Drafted o d) (stated : List.Forall₂ Clause.StatedBy es ss)
    (added : es.foldlM Outline.add? o = some o') :
    ∃ d', d.extendAll ss = .ok d' ∧ Drafted o' d' := by
  -- one statement for each clause, in the same order
  induction stated generalizing o d with
  | nil =>
    cases added
    exact ⟨d, rfl, h⟩
  | @cons e st es ss first _ ih =>
    rw [List.foldlM_cons] at added
    obtain ⟨o₁, addedFirst, added⟩ := Option.bind_eq_some_iff.1 added
    obtain ⟨d₁, extended, h₁⟩ := drafted_extend h first addedFirst
    obtain ⟨d', extendedAll, h'⟩ := ih h₁ added
    exact ⟨d', by rw [Draft.extendAll, extended]; exact extendedAll, h'⟩

/-- Where a section ends does not change what the statements say. -/
theorem stated_withSections {es : List Clause} {ss : List Statement}
    (stated : List.Forall₂ Clause.StatedBy es ss) :
    List.Forall₂ Clause.StatedBy es (Statement.withSections ss) := by
  induction stated with
  | nil => exact .nil
  | @cons e st es ss first _ ih =>
    cases e with
    | heading name =>
      obtain ⟨key, place, rfl, called⟩ := first
      exact .cons ⟨key, _, rfl, called⟩ ih
    | setting name text =>
      obtain ⟨key, place, rfl, called⟩ := first
      exact .cons ⟨key, place, rfl, called⟩ ih

/-- Lines that were written do not begin with a byte order mark. -/
theorem skipByteOrderMark_lines {lines : List (Option Clause)}
    (bare : ∀ e ∈ lines.filterMap id, Bare e.name) :
    Reader.skipByteOrderMark (lines.flatMap lineText) = lines.flatMap lineText := by
  have other {c : Char} {cs : List Char} (h : c ≠ '\uFEFF') :
      Reader.skipByteOrderMark (c :: cs) = c :: cs := by
    unfold Reader.skipByteOrderMark
    split
    · next eq => exact absurd (List.cons.inj eq).1 h
    · rfl
  cases lines with
  | nil => rfl
  | cons line lines =>
    cases line with
    | none => exact other (by decide)
    | some e =>
      obtain ⟨c, cs, eq, front⟩ := line_front (bare e List.mem_cons_self)
      rw [List.flatMap_cons, lineText, eq, List.cons_append]
      -- the mark is neither a bracket nor a character of a bare key
      refine other fun mark => ?_
      subst mark
      exact absurd front (by decide)

/-- Every line has a character. -/
theorem length_le_lines {lines : List (Option Clause)}
    (bare : ∀ e ∈ lines.filterMap id, Bare e.name) :
    lines.length ≤ (lines.flatMap lineText).length := by
  induction lines with
  | nil => exact Nat.le_refl 0
  | cons line lines ih =>
    rw [List.flatMap_cons, List.length_append, List.length_cons, Nat.add_comm]
    cases line with
    | none => exact Nat.add_le_add (Nat.le_refl 1) (ih bare)
    | some e =>
      obtain ⟨c, cs, eq, -⟩ := line_front (bare e List.mem_cons_self)
      have front : 1 ≤ (lineText (some e)).length := by simp [lineText, eq]
      exact Nat.add_le_add front (ih fun e' h => bare e' (List.mem_cons_of_mem _ h))

/-- **A document of headings and settings is read as its outline**, whatever the texts are. -/
theorem document_lines {lines : List (Option Clause)} {o : Outline}
    (bare : ∀ e ∈ lines.filterMap id, Bare e.name)
    (outline : (lines.filterMap id).foldlM Outline.add? [] = some o) :
    ∃ fields, Reader.document (lines.flatMap lineText) = .ok fields ∧ Holds IsTable fields o := by
  obtain ⟨ss, stated, read⟩ := statements_lines bare (Nat.lt_succ_of_le (length_le_lines bare))
  obtain ⟨d, extended, drafted⟩ := drafted_extendAll .start (stated_withSections stated) outline
  refine ⟨d.fields, ?_, drafted.holds⟩
  rw [Reader.document, skipByteOrderMark_lines bare, read]
  simp [extended]

end Toml
end EmuScheduler
