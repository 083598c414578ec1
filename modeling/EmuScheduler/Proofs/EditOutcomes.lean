import EmuScheduler.Proofs.Editing

/-!
# What an edit comes to

An edit that has the store for itself is refused, or it makes at most one change to the list
(`Edit.change?`) and then writes the list out, if it is of a sort that does (`Edit.persists`). The
reasons for a refusal are read off the store as the edit finds it (`Edit.refusal?`), and
`run_of_refused` and `run_of_admitted` say that this is all there is to any edit.

`failed_edit` says what an error leaves behind. A refusal leaves the store as it was. Where the list
could not be written out, the written list stays and the live one has the change all the same, for
the change comes first and is not taken back. So what completes the edit once the fault is gone is
to save. To make the edit again (`Edit.again`) does no harm if it is an update or a save
(`again_iff`). An addition is then made twice (`again_of_add`, `failed_addition_stays`), and a
removal takes away what stood behind the removed cheat, or is refused (`again_of_delete`).
-/

namespace EmuScheduler

/-- The error in a result, if it is one. -/
def errorOf? {α : Type} : Except CheatError α → Option CheatError
  | .ok _ => none
  | .error error => some error

namespace Edit

/-- The position that an edit is about. -/
def index? : Edit → Option Nat
  | .get index | .update index _ _ | .delete index | .setEnabled index _ => some index
  | .length | .list | .add _ _ | .save => none

/-- The error that an edit reports. -/
def error? : (o : Edit) → o.Result → Option CheatError
  | .length, _ | .list, _ => none
  | .get _, r => errorOf? r
  | .add _ _, r | .update _ _ _, r | .delete _, r | .setEnabled _ _, r | .save, r => errorOf? r

/-- Whether an edit gives a cheat another text. -/
def rewords : Edit → Bool
  | .update _ _ _ => true
  | _ => false

/-- Why an edit is refused, on the store that it finds. -/
def refusal? (o : Edit) (s : CheatStore) : Option CheatError :=
  match o.index? with
  | none => none
  | some index =>
    match s.get? index with
    | none => some (.invalidIndex index s.count)
    | some cheat =>
      if o.rewords = true ∧ cheat.kind ≠ .actionReplay then some (.notEditable index cheat.kind)
      else none

/-- The call with which an edit changes the list. -/
def change? : Edit → Option StoreCall
  | .add description code => some (.add description code)
  | .update index description code => some (.update index description code)
  | .delete index => some (.delete index)
  | .setEnabled index enabled => some (.setEnabled index enabled)
  | .length | .get _ | .list | .save => none

/-- Whether an edit ends with writing the list out. -/
def persists : Edit → Bool
  | .add _ _ | .update _ _ _ | .delete _ | .save => true
  | .length | .get _ | .list | .setEnabled _ _ => false

/-- Whether an edit puts a cheat in or takes one away. -/
def resizes : Edit → Bool
  | .add _ _ | .delete _ => true
  | _ => false

/-- The store with the change that an edit makes, not written out. -/
def changed (o : Edit) (s : CheatStore) : CheatStore :=
  match o.change? with
  | some c => (s.answer c).2
  | none => s

end Edit

/-- The store without the fault that keeps it from being written out. -/
def CheatStore.working (s : CheatStore) : CheatStore :=
  { s with fault? := none }

/-- An edit that is made again after the fault, if there was one, is gone. -/
def Edit.again (o : Edit) (s : CheatStore) : o.Result × CheatStore :=
  o.program.run (o.program.run s).2.working

/-! ### Refusals -/

section Outcome

variable {o : Edit} {s : CheatStore} {error : CheatError} {index : Nat}

/-- Nothing is shown at a hidden position and beyond the end. -/
theorem get?_eq_none_iff : s.get? index = none ↔ index ∈ s.hidden ∨ s.count ≤ index := by
  unfold CheatStore.get? CheatStore.count
  by_cases hidden : index ∈ s.hidden
  · simp [hidden]
  · simp [hidden]

/-- An edit is refused for its position, or because it would give a cheat that is not an Action
Replay one another text. -/
theorem refusal?_eq_some_iff : o.refusal? s = some error ↔
    ∃ index, o.index? = some index ∧
      (s.get? index = none ∧ error = .invalidIndex index s.count ∨
        ∃ x, s.get? index = some x ∧ o.rewords = true ∧ x.kind ≠ .actionReplay ∧
          error = .notEditable index x.kind) := by
  unfold Edit.refusal?
  cases o.index? with
  | none => simp
  | some index =>
    cases hx : s.get? index with
    | none => simp only [Option.some.injEq, exists_eq_left', hx, true_and, reduceCtorEq,
        false_and, exists_false, or_false, eq_comm]
    | some x =>
      simp only [hx, Option.some.injEq, exists_eq_left', reduceCtorEq, false_and, false_or]
      -- a shown cheat is refused just for its kind, and only to an edit that gives another text
      by_cases foreign : o.rewords = true ∧ x.kind ≠ .actionReplay
      · rw [if_pos foreign, Option.some.injEq]
        exact ⟨fun eq => ⟨foreign.1, foreign.2, eq.symm⟩, fun refused => refused.2.2.symm⟩
      · rw [if_neg foreign]
        exact ⟨nofun, fun refused => absurd ⟨refused.1, refused.2.1⟩ foreign⟩

/-- A refusal is never for want of a place to write to. -/
theorem ne_notPersisted_of_refusal (h : o.refusal? s = some error) (text : String) :
    error ≠ .notPersisted text := by
  obtain ⟨index, -, ⟨-, rfl⟩ | ⟨x, -, -, -, rfl⟩⟩ := refusal?_eq_some_iff.mp h
  · exact nofun
  · exact nofun

/-- Of a position that is shown the edit goes on with the cheat. -/
theorem get?_of_admitted (h : o.refusal? s = none) (hi : o.index? = some index) :
    ∃ x, s.get? index = some x ∧ (o.rewords = true → x.kind = .actionReplay) := by
  unfold Edit.refusal? at h
  rw [hi] at h
  dsimp only at h
  split at h
  · exact absurd h nofun
  · next x hx =>
    refine ⟨x, hx, fun rewords => ?_⟩
    -- otherwise the edit would be refused for the kind of the cheat
    by_contra foreign
    rw [if_pos ⟨rewords, foreign⟩] at h
    exact absurd h nofun

/-! ### An edit on its own -/

/-- A look at a position where nothing is shown reports that. -/
theorem run_look_none (hx : s.get? index = none) :
    (CheatEditor.get index).run s = (.error (.invalidIndex index s.count), s) := by
  simp only [CheatEditor.get, EditProgram.run, CheatStore.answer, hx]

/-- To look changes nothing. -/
theorem run_collect_store (index remaining : Nat) (s : CheatStore) :
    ((CheatEditor.collect index remaining).run s).2 = s := by
  -- every call is a look, and what was found is put before what is found later
  induction remaining generalizing index with
  | zero => rfl
  | succ remaining ih =>
    unfold CheatEditor.collect EditProgram.run
    rw [EditProgram.run_andThen]
    exact ih _

/-- **A refused edit** reports why, and does nothing. -/
theorem run_of_refused (h : o.refusal? s = some error) :
    ∃ r, o.program.run s = (r, s) ∧ o.error? r = some error := by
  obtain ⟨index, hi, ⟨hx, rfl⟩ | ⟨x, hx, rewords, foreign, rfl⟩⟩ := refusal?_eq_some_iff.mp h
  · cases o with
    | get =>
      obtain rfl := Option.some.inj hi
      exact ⟨.error _, run_look_none hx, rfl⟩
    | update | delete | setEnabled =>
      -- the look comes first, and nothing comes after it
      obtain rfl := Option.some.inj hi
      refine ⟨.error _, ?_, rfl⟩
      change ((CheatEditor.get _).andThen _).run s = _
      rw [EditProgram.run_andThen, run_look_none hx]
      rfl
    | length | list | add | save => exact absurd hi nofun
  · cases o with
    | update i description code =>
      obtain rfl := Option.some.inj hi
      refine ⟨.error _, ?_, rfl⟩
      change ((CheatEditor.get i).andThen _).run s = _
      rw [run_get hx]
      dsimp only
      rw [if_neg foreign]
      rfl
    | _ => exact absurd rewords Bool.false_ne_true

/-- To write the list out fails just where the store has a fault, and then it changes nothing. -/
theorem persist_cases (s : CheatStore) :
    (∃ text, s.fault? = some text ∧ s.persist = (.error (.notPersisted text), s)) ∨
      s.fault? = none ∧ s.persist = (.ok (), { s with persisted := s.cheats }) := by
  unfold CheatStore.persist
  cases hf : s.fault? with
  | none => exact .inr ⟨rfl, rfl⟩
  | some text => exact .inl ⟨text, rfl, rfl⟩

/-- **An edit that is admitted** makes its change, and then writes the list out if it is of that
sort; only that can fail. -/
theorem run_of_admitted (h : o.refusal? s = none) :
    ∃ r, o.program.run s = (r, if o.persists then (o.changed s).persist.2 else o.changed s) ∧
      o.error? r = if o.persists then errorOf? (o.changed s).persist.1 else none := by
  cases o with
  | length => exact ⟨_, rfl, rfl⟩
  | list => exact ⟨_, Prod.ext rfl (run_collect_store 0 _ s), rfl⟩
  | get index =>
    obtain ⟨x, hx, -⟩ := get?_of_admitted h rfl
    -- a look on its own goes on with nothing
    refine ⟨.ok x, ?_, rfl⟩
    change (CheatEditor.get index).run s = _
    rw [← EditProgram.andThen_done (CheatEditor.get index), run_get hx]
    rfl
  | add description code => exact ⟨_, rfl, rfl⟩
  | update index description code =>
    obtain ⟨x, hx, ours⟩ := get?_of_admitted h rfl
    refine ⟨_, ?_, rfl⟩
    change ((CheatEditor.get index).andThen _).run s = _
    rw [run_get hx]
    dsimp only
    -- the kind is checked before the write, and here it is the right one
    rw [if_pos (ours rfl)]
    rfl
  | delete index =>
    obtain ⟨x, hx, -⟩ := get?_of_admitted h rfl
    refine ⟨_, ?_, rfl⟩
    change ((CheatEditor.get index).andThen _).run s = _
    rw [run_get hx]
    rfl
  | setEnabled index enabled =>
    obtain ⟨x, hx, -⟩ := get?_of_admitted h rfl
    refine ⟨.ok (), ?_, rfl⟩
    change ((CheatEditor.get index).andThen _).run s = _
    rw [run_get hx]
    rfl
  | save => exact ⟨_, rfl, rfl⟩

/-! ### Edits that fail -/

/-- A change does not ask whether it can be written out. -/
theorem changed_working : o.changed s.working = (o.changed s).working := by
  cases o <;> rfl

/-- A change touches the live list only. -/
theorem persisted_changed : (o.changed s).persisted = s.persisted := by
  cases o <;> rfl

/-- What is idempotent at a cheat is so in the list. -/
theorem modify_modify {f : Cheat → Cheat} (again : ∀ x, f (f x) = f x) (s : CheatStore) (i : Nat) :
    (s.modify i f).modify i f = s.modify i f := by
  have once : f ∘ f = f := funext again
  unfold CheatStore.modify
  dsimp only
  rw [List.modify_modify_eq, once]

/-- A change that takes no cheat away and adds none can be made again, with nothing to show for
it. -/
theorem changed_changed (same : o.resizes = false) : o.changed (o.changed s) = o.changed s := by
  cases o with
  | add | delete => exact absurd same.symm Bool.false_ne_true
  | update index description code =>
    exact modify_modify (f := fun c => { c with description, code }) (fun _ => rfl) s index
  | setEnabled index enabled =>
    exact modify_modify (f := fun c => { c with enabled }) (fun _ => rfl) s index
  | length | get | list | save => rfl

/-- A write at a position changes what is shown there, and does not show what is hidden. -/
theorem get?_modify (s : CheatStore) (i : Nat) (f : Cheat → Cheat) (j : Nat) :
    (s.modify i f).get? j = (s.get? j).map fun x => if i = j then f x else x := by
  unfold CheatStore.get? CheatStore.modify
  dsimp only
  split
  · rfl
  · rw [List.getElem?_modify]
    rfl

/-- Whether an edit is refused is a matter of where there are cheats, and of which kinds. -/
theorem refusal?_modify {f : Cheat → Cheat} (kind : ∀ x, (f x).kind = x.kind) (i : Nat) :
    o.refusal? (s.modify i f) = o.refusal? s := by
  have count : (s.modify i f).count = s.count := List.length_modify ..
  unfold Edit.refusal?
  cases o.index? with
  | none => rfl
  | some index =>
    dsimp only
    rw [get?_modify, count]
    cases s.get? index with
    | none => rfl
    | some x =>
      have same : (if i = index then f x else x).kind = x.kind := by
        split
        · exact kind x
        · rfl
      rw [Option.map_some]
      dsimp only
      rw [same]

/-- After its change an edit is refused, or not, as before, if no cheat came or went. -/
theorem refusal?_changed (same : o.resizes = false) :
    o.refusal? (o.changed s) = o.refusal? s := by
  cases o with
  | add | delete => exact absurd same.symm Bool.false_ne_true
  | update index description code =>
    exact refusal?_modify (f := fun c => { c with description, code }) (fun _ => rfl) index
  | setEnabled index enabled =>
    exact refusal?_modify (f := fun c => { c with enabled }) (fun _ => rfl) index
  | length | get | list | save => rfl

/-- An edit that is admitted and would write the list out fails just where that fails, after its
change; with nothing in the way it writes out the changed list. -/
theorem run_of_persists (h : o.refusal? s = none) (writes : o.persists = true) :
    (o.error? (o.program.run s).1 = s.fault?.map .notPersisted) ∧
      (s.fault? ≠ none → (o.program.run s).2 = o.changed s) ∧
      (s.fault? = none →
        (o.program.run s).2 = { o.changed s with persisted := (o.changed s).cheats }) := by
  obtain ⟨r, ran, reports⟩ := run_of_admitted h
  -- the change leaves the fault as it is, so the write meets the one that was there before
  have fault : s.fault? = (o.changed s).fault? := by cases o <;> rfl
  rw [if_pos writes] at ran reports
  rw [ran, reports, fault]
  obtain ⟨text, broken, persists⟩ | ⟨works, persists⟩ := persist_cases (o.changed s)
  · rw [persists, broken]
    exact ⟨rfl, fun _ => rfl, nofun⟩
  · refine ⟨?_, fun broken => absurd works broken, fun _ => ?_⟩
    · rw [persists, works]
      rfl
    · rw [persists]

/-- An edit that is admitted and fails could not write the list out. -/
theorem notPersisted_of_admitted (h : o.refusal? s = none)
    (failed : o.error? (o.program.run s).1 = some error) :
    o.persists = true ∧ ∃ text, s.fault? = some text ∧ error = .notPersisted text := by
  cases writes : o.persists with
  | false =>
    obtain ⟨r, ran, reports⟩ := run_of_admitted h
    -- an edit that does not write the list out has nothing to report
    rw [ran, reports, if_neg (ne_true_of_eq_false writes)] at failed
    exact absurd failed nofun
  | true =>
    rw [(run_of_persists h writes).1] at failed
    obtain ⟨text, broken, same⟩ := Option.map_eq_some_iff.mp failed
    exact ⟨rfl, text, broken, same.symm⟩

/-- Only an edit that is admitted can fail to write the list out, and it has made its change. -/
theorem of_notPersisted {text : String}
    (failed : o.error? (o.program.run s).1 = some (.notPersisted text)) :
    o.refusal? s = none ∧ o.persists = true ∧ (o.program.run s).2 = o.changed s := by
  cases hr : o.refusal? s with
  | some reason =>
    obtain ⟨r, ran, reports⟩ := run_of_refused hr
    rw [ran, reports] at failed
    -- a refused edit reports its refusal, and that is another error
    exact absurd (Option.some.inj failed) (ne_notPersisted_of_refusal hr text)
  | none =>
    obtain ⟨writes, text, broken, -⟩ := notPersisted_of_admitted hr failed
    have faulty : s.fault? ≠ none := broken ▸ Option.some_ne_none text
    exact ⟨rfl, writes, (run_of_persists hr writes).2.1 faulty⟩

/-- An addition and a removal change the number of cheats. -/
theorem length_changed_ne (h : o.refusal? s = none) (resizes : o.resizes = true) :
    (o.changed s).cheats.length ≠ s.cheats.length := by
  cases o with
  | add description code =>
    change (s.cheats ++ [_]).length ≠ _
    rw [List.length_append, List.length_singleton]
    exact Nat.succ_ne_self _
  | delete index =>
    obtain ⟨x, hx, -⟩ := get?_of_admitted h rfl
    have inside : index < s.cheats.length := (List.getElem?_eq_some_iff.mp (getElem?_of_get? hx)).1
    change (s.cheats.eraseIdx index).length ≠ _
    rw [List.length_eraseIdx_of_lt inside]
    omega
  | length | get | list | update | setEnabled | save => exact absurd resizes nofun

/-- Without an error the edit was admitted. -/
theorem admitted_of_error?_eq_none (h : o.error? (o.program.run s).1 = none) :
    o.refusal? s = none := by
  cases hr : o.refusal? s with
  | none => rfl
  | some error =>
    obtain ⟨r, ran, reports⟩ := run_of_refused hr
    rw [ran, reports] at h
    exact absurd h nofun

/-- An edit that could not write the list out can be made again once that works, if it is of a sort
that puts no cheat in and takes none away. -/
theorem again_iff {text : String}
    (failed : o.error? (o.program.run s).1 = some (.notPersisted text)) :
    (o.error? (o.again s).1 = none ∧ (o.again s).2 = (o.program.run s.working).2) ↔
      o.resizes = false := by
  obtain ⟨admitted, writes, stays⟩ := of_notPersisted failed
  obtain ⟨-, -, once⟩ := run_of_persists (s := s.working) admitted writes
  have twice (again : o.refusal? (o.changed s).working = none) :=
    (run_of_persists again writes).2.2 rfl
  unfold Edit.again
  rw [stays, once rfl, changed_working]
  constructor
  · rintro ⟨succeeds, same⟩
    by_contra resizes
    have again := admitted_of_error?_eq_none succeeds
    rw [twice again] at same
    have longer := congrArg (fun t : CheatStore => t.cheats.length) same
    exact length_changed_ne again (eq_true_of_ne_false resizes) longer
  · intro same
    have again : o.refusal? (o.changed s).working = none :=
      (refusal?_changed same).trans admitted
    refine ⟨(run_of_persists again writes).1, ?_⟩
    rw [twice again, changed_working, changed_changed same]

/-- An addition that is made again leaves the cheat in the list twice. -/
theorem again_of_add {description code text : String}
    (failed : (Edit.add description code).error? ((Edit.add description code).program.run s).1 =
      some (.notPersisted text)) :
    (Edit.add description code).error? ((Edit.add description code).again s).1 = none ∧
      ((Edit.add description code).again s).2.cheats =
        s.cheats ++ List.replicate 2 ⟨description, code, .actionReplay, true⟩ := by
  obtain ⟨-, -, stays⟩ := of_notPersisted failed
  unfold Edit.again
  rw [stays]
  refine ⟨rfl, ?_⟩
  change s.cheats ++ [_] ++ [_] = _
  rw [List.append_assoc]
  rfl

/-- After a removal the same one is admitted if there is a cheat at the position still, and refused
if the last one was removed. -/
theorem refusal?_delete_changed (admitted : (Edit.delete index).refusal? s = none) :
    index + 1 < s.count ∧
        (Edit.delete index).refusal? ((Edit.delete index).changed s).working = none ∨
      index + 1 = s.count ∧
        (Edit.delete index).refusal? ((Edit.delete index).changed s).working =
          some (.invalidIndex index index) := by
  obtain ⟨x, hx, -⟩ := get?_of_admitted admitted rfl
  have inside : index < s.count := (List.getElem?_eq_some_iff.mp (getElem?_of_get? hx)).1
  have shown : index ∉ s.hidden := fun hidden =>
    absurd (hx.symm.trans (get?_eq_none_iff.mpr (.inl hidden))) nofun
  have fewer : ((Edit.delete index).changed s).working.count = s.count - 1 :=
    List.length_eraseIdx_of_lt inside
  obtain more | last := Nat.lt_or_eq_of_le (Nat.succ_le_of_lt inside)
  · left
    refine ⟨more, Option.eq_none_iff_forall_ne_some.mpr fun error refused => ?_⟩
    obtain ⟨_, ⟨⟩, ⟨none, -⟩ | ⟨-, -, rewords, -⟩⟩ := refusal?_eq_some_iff.mp refused
    · -- what is hidden is a matter of the position, and this one is shown
      obtain hidden | beyond := get?_eq_none_iff.mp none
      · exact shown hidden
      · omega
    · exact absurd rewords nofun
  · right
    refine ⟨last, refusal?_eq_some_iff.mpr ⟨index, rfl, ?_⟩⟩
    left
    refine ⟨get?_eq_none_iff.mpr (.inr ?_), ?_⟩
    · omega
    · rw [fewer, ← last, Nat.succ_sub_one]

/-- A removal that is made again removes what stood behind the cheat that it was to remove; if
nothing did, it is refused. -/
theorem again_of_delete {text : String}
    (failed : (Edit.delete index).error? ((Edit.delete index).program.run s).1 =
      some (.notPersisted text)) :
    (index + 1 < s.count ∧ (Edit.delete index).error? ((Edit.delete index).again s).1 = none ∧
        ((Edit.delete index).again s).2.cheats =
          s.cheats.take index ++ s.cheats.drop (index + 2)) ∨
      (index + 1 = s.count ∧
        (Edit.delete index).error? ((Edit.delete index).again s).1 =
          some (.invalidIndex index index) ∧
        ((Edit.delete index).again s).2 = ((Edit.delete index).program.run s).2.working) := by
  obtain ⟨admitted, writes, stays⟩ := of_notPersisted failed
  unfold Edit.again
  rw [stays]
  obtain ⟨more, again⟩ | ⟨last, refused⟩ := refusal?_delete_changed admitted
  · left
    obtain ⟨succeeds, -, twice⟩ := run_of_persists again writes
    refine ⟨more, succeeds, ?_⟩
    rw [twice rfl]
    change (s.cheats.eraseIdx index).eraseIdx index = _
    have before : (s.cheats.take index).length = index :=
      List.length_take_of_le (Nat.le_of_lt (Nat.lt_of_succ_lt more))
    rw [List.eraseIdx_eq_take_drop_succ s.cheats,
      List.eraseIdx_append_of_length_le (Nat.le_of_eq before), before, Nat.sub_self,
      List.eraseIdx_zero, List.tail_drop]
  · right
    obtain ⟨r, ran, reports⟩ := run_of_refused refused
    rw [ran]
    exact ⟨last, reports, rfl⟩

/-- **What an edit that fails leaves behind.** The list as it was written out stays. A refusal
leaves the live list too, and where the list cannot be written out, which is never for switching a
cheat on or off, the change is in it. Then the edit would succeed without the fault, and to save
once the fault is gone makes of the store what the edit would have made of it.

To make the edit again does so just if it puts no cheat in and takes none away. What was added is
then there twice, and a removal takes away the cheat behind the removed one, or is refused. -/
theorem failed_edit (failed : o.error? (o.program.run s).1 = some error) :
    (o.program.run s).2.persisted = s.persisted ∧
      ((∀ text, error ≠ .notPersisted text) → (o.program.run s).2 = s) ∧
      ∀ text, error = .notPersisted text →
        s.fault? = some text ∧
          (o.program.run s).2.cheats = (o.program.run s.working).2.cheats ∧
          o.error? (o.program.run s.working).1 = none ∧
          CheatEditor.save.run (o.program.run s).2.working = (.ok (), (o.program.run s.working).2) ∧
          ((o.error? (o.again s).1 = none ∧ (o.again s).2 = (o.program.run s.working).2) ↔
            o.resizes = false) ∧
          (∀ description code, o = .add description code →
            o.error? (o.again s).1 = none ∧
              (o.again s).2.cheats =
                s.cheats ++ List.replicate 2 ⟨description, code, .actionReplay, true⟩) ∧
          (∀ index, o = .delete index →
            (index + 1 < s.count ∧ o.error? (o.again s).1 = none ∧
                (o.again s).2.cheats = s.cheats.take index ++ s.cheats.drop (index + 2)) ∨
              (index + 1 = s.count ∧
                o.error? (o.again s).1 = some (.invalidIndex index index) ∧
                (o.again s).2 = (o.program.run s).2.working)) ∧
          ∀ index enabled, o ≠ .setEnabled index enabled := by
  cases hr : o.refusal? s with
  | some reason =>
    obtain ⟨r, ran, reports⟩ := run_of_refused hr
    rw [ran, reports] at failed
    obtain rfl := Option.some.inj failed
    rw [ran]
    refine ⟨rfl, fun _ => rfl, fun text unwritten => ?_⟩
    exact absurd unwritten (ne_notPersisted_of_refusal hr text)
  | none =>
    obtain ⟨writes, text, broken, rfl⟩ := notPersisted_of_admitted hr failed
    obtain ⟨-, -, stays⟩ := of_notPersisted failed
    obtain ⟨reports, -, once⟩ := run_of_persists (s := s.working) hr writes
    refine ⟨by rw [stays, persisted_changed], fun other => absurd rfl (other text), ?_⟩
    rintro _ ⟨⟩
    refine ⟨broken, ?_, reports, ?_, again_iff failed, ?_, ?_, ?_⟩
    · -- the change that was made is the one that would have been written out
      rw [stays, once rfl, changed_working]
      rfl
    · rw [stays, once rfl, changed_working]
      rfl
    · rintro description code rfl
      exact again_of_add failed
    · rintro index rfl
      exact again_of_delete failed
    · rintro index enabled rfl
      exact absurd writes nofun

end Outcome

/-- The first cheat is removed and the list cannot be written out: the cheat is gone, and removed
again it takes the other one with it. -/
theorem failed_removal :
    let s : CheatStore := { mixedCheats with fault? := some "disk full" }
    (Edit.delete 0).error? ((Edit.delete 0).program.run s).1 = some (.notPersisted "disk full") ∧
      ((Edit.delete 0).program.run s).2.cheats = mixedCheats.cheats.drop 1 ∧
      ¬((Edit.delete 0).error? ((Edit.delete 0).again s).1 = none ∧
        ((Edit.delete 0).again s).2 = ((Edit.delete 0).program.run s.working).2) ∧
      ((Edit.delete 0).again s).2.cheats = [] := by
  intro s
  have failed : (Edit.delete 0).error? ((Edit.delete 0).program.run s).1 =
      some (.notPersisted "disk full") := rfl
  obtain ⟨-, made, -, -, again, -, removal, -⟩ := (failed_edit failed).2.2 "disk full" rfl
  refine ⟨failed, made, fun same => absurd (again.mp same) nofun, ?_⟩
  obtain ⟨-, -, twice⟩ | ⟨last, -⟩ := removal 0 rfl
  · exact twice
  · exact absurd last (by decide)

/-- **A failed addition stays**: the cheat is in the list although an error was reported, and once
the list can be written out it is there twice if it is added again. -/
theorem failed_addition_stays :
    (¬∀ (s : CheatStore) (o : Edit) (error : CheatError),
      o.error? (o.program.run s).1 = some error →
        (o.program.run s).2.cheats = s.cheats ∧ (o.program.run s).2.persisted = s.persisted ∧
          (o.again s).2 = (o.program.run s.working).2) ∧
      ((Edit.add "Max money" "0213D9F4 0098967F").again
          { fault? := some "disk full" }).2.persisted =
        List.replicate 2 ⟨"Max money", "0213D9F4 0098967F", .actionReplay, true⟩ := by
  refine ⟨fun kept => ?_, rfl⟩
  let s : CheatStore := { fault? := some "disk full" }
  let o := Edit.add "Max money" "0213D9F4 0098967F"
  obtain ⟨same, -⟩ := kept s o (.notPersisted "disk full") rfl
  revert same
  decide

end EmuScheduler
