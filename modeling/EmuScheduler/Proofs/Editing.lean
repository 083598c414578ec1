import EmuScheduler.Cheats.Editor
import Mathlib.Logic.Function.Basic

/-!
# Editors beside each other

Any number of editors can work on one cheat list. Each carries out one edit after the other, and an
edit is a program of store calls (`Edit.program`), so between two calls of one editor those of the
others may come in any order. A `Desk` is a store with its editors: for each of them what is left of
the edit that it is in, and the calls that all of them have made so far.

`Desk.Step` is the next thing that one of the editors does, and `Desk.Reachable` what a desk can
come to. Its log tells its store (`store_reachable`), so the moments of a run are the suffixes of
the log in the end. `Reachable.called`, `Reachable.ran` and `Reachable.edited` let one editor make a
call, go to the end of its edit, or make a whole edit; the calls of a program that nobody disturbs
are its `journal`.

`StoreCall.place?` follows a cheat through a call, and `cheat_answer` says what the call makes of
it: its kind stays, and its text stays but for a write at its position.
-/

namespace EmuScheduler

/-! ### Programs one after another -/

namespace EditProgram

variable {α β γ : Type}

/-- The calls of a program that has the store for itself, newest first, each with the store that it
finds. -/
def journal : EditProgram α → CheatStore → List (StoreCall × CheatStore)
  | .done _, _ => []
  | .call c next, s => (next (s.answer c).1).journal (s.answer c).2 ++ [(c, s)]

/-- To go on with nothing changes nothing. -/
theorem andThen_done (p : EditProgram α) : p.andThen .done = p := by
  -- the programs are trees: a call and, for each reply, what follows
  induction p with
  | done a => rfl
  | call c next ih => exact congrArg (EditProgram.call c) (funext ih)

/-- Three programs one after another. -/
theorem andThen_assoc (p : EditProgram α) (f : α → EditProgram β) (g : β → EditProgram γ) :
    (p.andThen f).andThen g = p.andThen fun a => (f a).andThen g := by
  induction p with
  | done a => rfl
  | call c next ih => exact congrArg (EditProgram.call c) (funext ih)

/-- The second program runs on what the first one leaves, with its result. -/
theorem run_andThen (p : EditProgram α) (f : α → EditProgram β) (s : CheatStore) :
    (p.andThen f).run s = (f (p.run s).1).run (p.run s).2 := by
  induction p generalizing s with
  | done a => rfl
  | call c next ih => exact ih _ _

/-- The calls of the second program are newer than those of the first. -/
theorem journal_andThen (p : EditProgram α) (f : α → EditProgram β) (s : CheatStore) :
    (p.andThen f).journal s = (f (p.run s).1).journal (p.run s).2 ++ p.journal s := by
  induction p generalizing s with
  | done a => exact (List.append_nil _).symm
  | call c next ih =>
    change ((next (s.answer c).1).andThen f).journal (s.answer c).2 ++ [(c, s)] = _
    rw [ih, List.append_assoc]
    rfl

end EditProgram

/-- The store after some calls, newest first. -/
def CheatStore.after {ι : Type} (s : CheatStore) (log : List (ι × StoreCall)) : CheatStore :=
  log.foldr (fun entry t => (t.answer entry.2).2) s

/-! ### Editors -/

/-- What an editor can be asked to do. -/
inductive Edit where
  | length
  | get (index : Nat)
  | list
  | add (description code : String)
  | update (index : Nat) (description code : String)
  | delete (index : Nat)
  | setEnabled (index : Nat) (enabled : Bool)
  | save
  deriving DecidableEq, Repr

namespace Edit

/-- What an edit comes to. -/
abbrev Result : Edit → Type
  | .length => Nat
  | .get _ => Except CheatError Cheat
  | .list => List Cheat
  | _ => Except CheatError Unit

/-- The store calls of an edit. -/
def program : (o : Edit) → EditProgram o.Result
  | .length => CheatEditor.length
  | .get index => CheatEditor.get index
  | .list => CheatEditor.list
  | .add description code => CheatEditor.add description code
  | .update index description code => CheatEditor.update index description code
  | .delete index => CheatEditor.delete index
  | .setEnabled index enabled => CheatEditor.setEnabled index enabled
  | .save => CheatEditor.save

end Edit

/-- An edit that is going on, with what is left of it. -/
structure Task where
  edit : Edit
  rest : EditProgram edit.Result

/-- A cheat store and the editors that work on it. -/
structure Desk (ι : Type) where
  store : CheatStore
  /-- The edit that an editor is in, if it is in one. -/
  task? : ι → Option Task
  /-- The calls so far, newest first, each with the editor that made it. -/
  log : List (ι × StoreCall)

namespace Desk

variable {ι : Type}

/-- Before anybody edits. -/
def start (store : CheatStore) : Desk ι where
  store := store
  task? _ := none
  log := []

variable [DecidableEq ι]

/-- The desk after an editor has made its next call, with `rest` left to do. -/
def called (d : Desk ι) (i : ι) (c : StoreCall) (rest : Task) : Desk ι where
  store := (d.store.answer c).2
  task? := Function.update d.task? i (some rest)
  log := (i, c) :: d.log

/-- **The steps of the editors.** -/
inductive Step : Desk ι → Desk ι → Prop
  | begin {d : Desk ι} (i : ι) (o : Edit) (idle : d.task? i = none) :
      Step d { d with task? := Function.update d.task? i (some ⟨o, o.program⟩) }
  | call {d : Desk ι} {i : ι} {o : Edit} {c : StoreCall} {next : c.Reply → EditProgram o.Result}
      (busy : d.task? i = some ⟨o, .call c next⟩) :
      Step d (d.called i c ⟨o, next (d.store.answer c).1⟩)
  | finish {d : Desk ι} {i : ι} {o : Edit} {result : o.Result}
      (busy : d.task? i = some ⟨o, .done result⟩) :
      Step d { d with task? := Function.update d.task? i none }

/-- **What a desk that began as `d₀` can come to**, in any order of steps. -/
inductive Reachable (d₀ : Desk ι) : Desk ι → Prop
  | start : Reachable d₀ d₀
  | step {d d' : Desk ι} (hr : Reachable d₀ d) (hs : Step d d') : Reachable d₀ d'

/-- What is reached from a desk that is reached. -/
theorem Reachable.trans {d₀ d₁ d : Desk ι} (h : Reachable d₀ d₁) (h' : Reachable d₁ d) :
    Reachable d₀ d := by
  induction h' with
  | start => exact h
  | step _ hs ih => exact ih.step hs

/-- The log tells what the store holds. -/
theorem store_reachable {store : CheatStore} {d : Desk ι} (hr : Reachable (.start store) d) :
    d.store = store.after d.log := by
  induction hr with
  | start => rfl
  | step _ hs ih =>
    cases hs with
    | begin | finish => exact ih
    | call busy => exact congrArg (fun s => (CheatStore.answer s _).2) ih

/-- The log only grows. -/
theorem suffix_reachable {d₀ d : Desk ι} (hr : Reachable d₀ d) : d₀.log <:+ d.log := by
  induction hr with
  | start => exact List.suffix_refl _
  | step _ hs ih =>
    cases hs with
    | begin | finish => exact ih
    | call busy => exact ih.trans (List.suffix_cons _ _)

/-- How an editor comes to what is left of its edit with a step: it has begun, or made a call, or
another editor has made one, or none was made. -/
inductive TaskStep (d : Desk ι) (i : ι) : Desk ι → Task → Prop
  | begun (o : Edit) (task? : ι → Option Task) : TaskStep d i { d with task? } ⟨o, o.program⟩
  | called {o : Edit} {c : StoreCall} {next : c.Reply → EditProgram o.Result}
      (busy : d.task? i = some ⟨o, .call c next⟩) :
      TaskStep d i (d.called i c ⟨o, next (d.store.answer c).1⟩) ⟨o, next (d.store.answer c).1⟩
  | beside {t rest : Task} {k : ι} {c : StoreCall} (busy : d.task? i = some t) (other : k ≠ i) :
      TaskStep d i (d.called k c rest) t
  | kept {t : Task} (busy : d.task? i = some t) (task? : ι → Option Task) :
      TaskStep d i { d with task? } t

/-- Every step leaves an editor with its edit in one of these ways. -/
theorem Step.taskStep {d d' : Desk ι} (hs : Step d d') {i : ι} {t : Task}
    (ht : d'.task? i = some t) : TaskStep d i d' t := by
  -- the step is one of the editor, which then is left with what the step says, or of another one
  cases hs with
  | begin k o idle =>
    dsimp only at ht
    by_cases hi : i = k
    · subst hi
      rw [Function.update_self] at ht
      obtain rfl := Option.some.inj ht
      exact .begun o _
    · rw [Function.update_of_ne hi] at ht
      exact .kept ht _
  | @call k o c next busy =>
    have left := ht
    unfold Desk.called at left
    dsimp only at left
    by_cases hi : i = k
    · subst hi
      rw [Function.update_self] at left
      obtain rfl := Option.some.inj left
      exact .called busy
    · rw [Function.update_of_ne hi] at left
      exact .beside left (Ne.symm hi)
  | @finish k o result busy =>
    dsimp only at ht
    by_cases hi : i = k
    · subst hi
      rw [Function.update_self] at ht
      exact absurd ht nofun
    · rw [Function.update_of_ne hi] at ht
      exact .kept ht _

section Undisturbed

variable {d₀ : Desk ι} {s : CheatStore} {task? : ι → Option Task} {log : List (ι × StoreCall)}
  {i : ι} {o : Edit}

/-- One call more of an editor. -/
theorem Reachable.called {c : StoreCall} {next : c.Reply → EditProgram o.Result}
    (hr : Reachable d₀ ⟨s, Function.update task? i (some ⟨o, .call c next⟩), log⟩) :
    Reachable d₀ ⟨(s.answer c).2,
      Function.update task? i (some ⟨o, next (s.answer c).1⟩), (i, c) :: log⟩ := by
  have called := hr.step (.call (Function.update_self ..))
  unfold Desk.called at called
  rw [Function.update_idem] at called
  exact called

/-- All that is left of an edit, with the result still to be given back. -/
theorem Reachable.ran {p : EditProgram o.Result}
    (hr : Reachable d₀ ⟨s, Function.update task? i (some ⟨o, p⟩), log⟩) :
    Reachable d₀ ⟨(p.run s).2, Function.update task? i (some ⟨o, .done (p.run s).1⟩),
      (p.journal s).map (fun entry => (i, entry.1)) ++ log⟩ := by
  -- one call after the other, each on the store that the last one left
  induction p generalizing s log with
  | done result => exact hr
  | call c next ih =>
    have ran := ih _ hr.called
    unfold EditProgram.journal
    rw [List.map_append, List.append_assoc]
    exact ran

/-- A whole edit of an editor that is in none. -/
theorem Reachable.edited (hr : Reachable d₀ ⟨s, task?, log⟩) (idle : task? i = none) (o : Edit) :
    Reachable d₀ ⟨(o.program.run s).2, task?,
      (o.program.journal s).map (fun entry => (i, entry.1)) ++ log⟩ := by
  have ran := (hr.step (.begin i o idle)).ran
  have finished := ran.step (.finish (Function.update_self ..))
  -- in the end the editor is in no edit again, as before
  rw [Function.update_idem, ← idle, Function.update_eq_self] at finished
  exact finished

/-- An editor that nobody disturbs brings its edit to the end. -/
theorem Reachable.alone {d : Desk ι} (hr : Reachable d₀ d) {p : EditProgram o.Result}
    (busy : d.task? i = some ⟨o, p⟩) :
    ∃ log, Reachable d₀
      { store := (p.run d.store).2, task? := Function.update d.task? i none, log } := by
  have begun : Reachable d₀ ⟨d.store, Function.update d.task? i (some ⟨o, p⟩), d.log⟩ := by
    rw [← busy, Function.update_eq_self]
    exact hr
  have finished := begun.ran.step (.finish (Function.update_self ..))
  rw [Function.update_idem] at finished
  exact ⟨_, finished⟩

end Undisturbed

/-- An editor that looks at a cheat that is shown goes on with that cheat. -/
theorem Reachable.looked {d₀ d : Desk ι} (hr : Reachable d₀ d) {i : ι} {o : Edit} {index : Nat}
    {f : Except CheatError Cheat → EditProgram o.Result} {x : Cheat}
    (busy : d.task? i = some ⟨o, (CheatEditor.get index).andThen f⟩)
    (hx : d.store.get? index = some x) :
    ∃ log, Reachable d₀
      { store := d.store, task? := Function.update d.task? i (some ⟨o, f (.ok x)⟩), log } := by
  -- a look is two calls: the position, and the length for the error that is not needed here
  have shown := hr.step (.call busy)
  have counted := shown.step (.call (Function.update_self ..))
  unfold Desk.called at counted
  dsimp only at counted
  rw [Function.update_idem] at counted
  simp only [CheatStore.answer, EditProgram.andThen, hx] at counted
  exact ⟨_, counted⟩

end Desk

/-! ### Edits on their own -/

section Run

variable {s : CheatStore}

/-- To write the list out does not change the live one. -/
theorem cheats_persist (s : CheatStore) : s.persist.2.cheats = s.cheats := by
  unfold CheatStore.persist
  split <;> rfl

/-- A program that begins with a look at a cheat that is shown goes on with that cheat. -/
theorem run_get {α : Type} {index : Nat} {x : Cheat} (hx : s.get? index = some x)
    (f : Except CheatError Cheat → EditProgram α) :
    ((CheatEditor.get index).andThen f).run s = (f (.ok x)).run s := by
  simp only [CheatEditor.get, EditProgram.andThen, EditProgram.run, CheatStore.answer, hx]

/-- A removal of a cheat that is shown. -/
theorem cheats_run_delete {index : Nat} {x : Cheat} (hx : s.get? index = some x) :
    ((Edit.delete index).program.run s).2.cheats = s.cheats.eraseIdx index := by
  change (((CheatEditor.get index).andThen _).run s).2.cheats = _
  rw [run_get hx]
  exact cheats_persist _

/-- A call does not change what is shown. -/
theorem hidden_answer (s : CheatStore) (c : StoreCall) : (s.answer c).2.hidden = s.hidden := by
  cases c with
  | persist =>
    change s.persist.2.hidden = _
    unfold CheatStore.persist
    split <;> rfl
  | _ => rfl

/-- Nor does a program. -/
theorem hidden_run {α : Type} (p : EditProgram α) (s : CheatStore) :
    (p.run s).2.hidden = s.hidden := by
  induction p generalizing s with
  | done a => rfl
  | call c next ih => exact (ih _ _).trans (hidden_answer s c)

theorem hidden_after {ι : Type} (s : CheatStore) (log : List (ι × StoreCall)) :
    (s.after log).hidden = s.hidden := by
  induction log with
  | nil => rfl
  | cons entry log ih => exact (hidden_answer _ _).trans ih

/-- What is shown at a position is there. -/
theorem getElem?_of_get? {index : Nat} {x : Cheat} (hx : s.get? index = some x) :
    s.cheats[index]? = some x := by
  unfold CheatStore.get? at hx
  split at hx
  · exact absurd hx nofun
  · exact hx

/-- Where nothing is hidden the list is what is shown. -/
theorem get?_of_shown (shown : s.hidden = []) (j : Nat) : s.get? j = s.cheats[j]? := by
  unfold CheatStore.get?
  rw [shown]
  rfl

end Run

/-! ### What a call makes of a cheat -/

/-- Description and code of a cheat. -/
def Cheat.text (x : Cheat) : String × String :=
  (x.description, x.code)

/-- Where a call moves the cheat at a position; there is no such place if the call removes it. -/
def StoreCall.place? : StoreCall → Nat → Option Nat
  | .delete index, j => if j = index then none else some (if index < j then j - 1 else j)
  | _, j => some j

/-- A cheat that a removal does not remove is found at the place that it gets. -/
theorem getElem?_eraseIdx_place {xs : List Cheat} {index j k : Nat}
    (hk : (StoreCall.delete index).place? j = some k) : (xs.eraseIdx index)[k]? = xs[j]? := by
  unfold StoreCall.place? at hk
  dsimp only at hk
  split at hk
  · exact absurd hk nofun
  · next other =>
    obtain rfl := Option.some.inj hk
    rw [List.getElem?_eraseIdx]
    split
    · next after =>
      -- the cheats behind the removed one have moved up
      rw [if_neg (by omega), Nat.sub_add_cancel (by omega)]
    · next before => rw [if_pos (by omega)]

/-- **What a call makes of a cheat** that it does not remove. -/
theorem cheat_answer {s : CheatStore} {c : StoreCall} {j k : Nat} {x : Cheat}
    (hx : s.cheats[j]? = some x) (hk : c.place? j = some k) :
    ∃ y, (s.answer c).2.cheats[k]? = some y ∧ y.kind = x.kind ∧
      (y.text = x.text ∨ ∃ description code, c = .update j description code) := by
  have modified (index : Nat) (f : Cheat → Cheat) :
      (s.modify index f).cheats[j]? = some (if index = j then f x else x) := by
    change (s.cheats.modify index f)[j]? = _
    rw [List.getElem?_modify, hx]
    rfl
  cases c with
  | delete index =>
    refine ⟨x, ?_, rfl, .inl rfl⟩
    exact (getElem?_eraseIdx_place hk).trans hx
  | add description code =>
    obtain rfl := Option.some.inj hk
    refine ⟨x, ?_, rfl, .inl rfl⟩
    change (s.cheats ++ [_])[j]? = _
    rw [List.getElem?_append_left (List.getElem?_eq_some_iff.mp hx).1]
    exact hx
  | update index description code =>
    obtain rfl := Option.some.inj hk
    -- the write changes texts only, and only at its position
    refine ⟨_, modified _ _, ?_, ?_⟩
    · split <;> rfl
    · by_cases here : index = j
      · exact .inr ⟨description, code, by rw [here]⟩
      · exact .inl (by rw [if_neg here])
  | setEnabled index enabled =>
    obtain rfl := Option.some.inj hk
    refine ⟨_, modified _ _, ?_, .inl ?_⟩ <;> split <;> rfl
  | persist =>
    obtain rfl := Option.some.inj hk
    refine ⟨x, ?_, rfl, .inl rfl⟩
    change s.persist.2.cheats[j]? = some x
    rw [cheats_persist]
    exact hx
  | count | get =>
    obtain rfl := Option.some.inj hk
    exact ⟨x, hx, rfl, .inl rfl⟩

/-! ### A list to try things with -/

/-- Two cheats, of which only the first may be edited. -/
def mixedCheats : CheatStore where
  cheats := [⟨"Max money", "0213D9F4 0098967F", .actionReplay, true⟩,
    ⟨"Walk through walls", "0x0211A8C4 1", .internal, true⟩]

end EmuScheduler
