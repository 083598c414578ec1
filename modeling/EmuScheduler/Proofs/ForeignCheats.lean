import EmuScheduler.Proofs.Editing

/-!
# Which cheats are rewritten

Only Action Replay cheats can be edited. An update looks at the cheat at its position and writes
there afterwards, and these are two calls. `foreign_kept_unless_shifted` says what comes of that. In
every order of the calls of any number of editors a cheat of another kind keeps its text with every
call, with one exception: the write of an update at a position at which, or before which, another
editor has removed a cheat since this one looked there (`shifted`). As long as there was no such
write (`Undisturbed`), the cheats of the other kinds (`foreign`) are those of the start, without the
removed ones. And the exception happens: whatever stands behind an Action Replay cheat can be
rewritten by one editor, if another one removes that cheat at the right moment.

The proof has two halves. `Careful` says of a program that it writes only where it has just seen an
Action Replay cheat; all edits are careful (`careful_program`). What was seen at a position is there
as long as nothing was removed at the position or before it (`Standing`), because no call changes
the kind of a cheat.
-/

namespace EmuScheduler

open Desk

/-! ### Programs that look before they write -/

/-- The position of which a program knows that an Action Replay cheat is there: that of its last
look, if one was shown. -/
def knownAfter (known : Option Nat) : (c : StoreCall) → c.Reply → Option Nat
  | .get index, found => if found.any (·.kind = .actionReplay) then some index else none
  | .count, _ => known
  | _, _ => none

/-- A program writes only where it knows that there is an Action Replay cheat. -/
def Careful {α : Type} : Option Nat → EditProgram α → Prop
  | _, .done _ => True
  | known, .call c next =>
    (∀ index description code, c = .update index description code → known = some index) ∧
      ∀ r, Careful (knownAfter known c r) (next r)

section Careful

variable {α β : Type} {known : Option Nat}

/-- What is known at the end of the first program is not relied on in the second one. -/
theorem Careful.andThen {p : EditProgram α} {f : α → EditProgram β} (hp : Careful known p)
    (hf : ∀ known a, Careful known (f a)) : Careful known (p.andThen f) := by
  induction p generalizing known with
  | done a => exact hf known a
  | call c next ih => exact ⟨hp.1, fun r => ih r (hp.2 r)⟩

theorem careful_persist : Careful known EditProgram.persist :=
  ⟨nofun, fun _ => trivial⟩

theorem careful_get (index : Nat) : Careful known (CheatEditor.get index) :=
  ⟨nofun, fun _ => ⟨nofun, fun _ => trivial⟩⟩

/-- To list the cheats is to look at them one by one. -/
theorem careful_collect (index remaining : Nat) :
    Careful known (CheatEditor.collect index remaining) := by
  induction remaining generalizing known index with
  | zero => trivial
  | succ remaining ih => exact ⟨nofun, fun _ => (ih _).andThen fun _ _ => trivial⟩

/-- An update writes only where its look has found an Action Replay cheat. -/
theorem careful_update (index : Nat) (description code : String) :
    Careful known (CheatEditor.update index description code) := by
  refine ⟨nofun, fun found => ⟨nofun, fun count => ?_⟩⟩
  cases found with
  | none => trivial
  | some cheat =>
    change Careful (if (some cheat).any (·.kind = .actionReplay) then some index else none)
      (if cheat.kind = .actionReplay then .call (.update index description code) _ else .done _)
    by_cases ours : cheat.kind = .actionReplay
    · -- the write comes right after the look, with only the length asked in between
      rw [if_pos ours, if_pos (by simpa using ours)]
      refine ⟨?_, fun _ => careful_persist⟩
      rintro _ _ _ ⟨⟩
      rfl
    · rw [if_neg ours]
      trivial

/-- **Every edit is careful.** -/
theorem careful_program (o : Edit) : Careful none o.program := by
  -- only an update writes, and it does so where it has looked
  cases o with
  | length => exact ⟨nofun, fun _ => trivial⟩
  | get index => exact careful_get index
  | list => exact ⟨nofun, fun count => careful_collect 0 count⟩
  | add description code => exact ⟨nofun, fun _ => careful_persist⟩
  | update index description code => exact careful_update index description code
  | delete index =>
    refine (careful_get index).andThen fun known r => ?_
    cases r with
    | error error => trivial
    | ok cheat => exact ⟨nofun, fun _ => careful_persist⟩
  | setEnabled index enabled =>
    refine (careful_get index).andThen fun known r => ?_
    cases r with
    | error error => trivial
    | ok cheat => exact ⟨nofun, fun _ => trivial⟩
  | save => exact careful_persist

end Careful

/-! ### What was seen is still there -/

variable {ι : Type} [DecidableEq ι]

/-- Whether another editor has removed a cheat at a position or before it, since an editor last
looked there. -/
def shifted (i : ι) (index : Nat) : List (ι × StoreCall) → Bool
  | [] => false
  | (k, c) :: older =>
    match c with
    | .get j => if k = i ∧ j = index then false else shifted i index older
    | .delete j => decide (k ≠ i ∧ j ≤ index) || shifted i index older
    | _ => shifted i index older

/-- At a position there is an Action Replay cheat, or the position was shifted since an editor
looked. -/
def Standing (d : Desk ι) (i : ι) (index : Nat) : Prop :=
  (∃ x, d.store.cheats[index]? = some x ∧ x.kind = .actionReplay) ∨ shifted i index d.log = true

/-- What an editor is left with writes only where an Action Replay cheat still stands. -/
def Backed (d : Desk ι) (i : ι) (t : Task) : Prop :=
  ∃ known, Careful known t.rest ∧ ∀ index, known = some index → Standing d i index

section Standing

variable {d d' : Desk ι} {i k : ι} {index : Nat} {c : StoreCall} {t : Task}

/-- A call of another editor takes nothing away without a trace in the log, and to ask for the
length takes nothing away. -/
theorem Standing.called (h : Standing d i index) (hc : k ≠ i ∨ c = .count) :
    Standing (d.called k c t) i index := by
  -- a removal at the position or before it is in the log, and otherwise the cheat stays in place
  cases hs : shifted i index ((k, c) :: d.log) with
  | true => exact .inr hs
  | false =>
    have before : shifted i index d.log = false := by
      cases c with
      | get j =>
        have other : k ≠ i := hc.resolve_right nofun
        exact (if_neg fun hn => other hn.1).symm.trans hs
      | delete j => exact (Bool.or_eq_false_iff.mp hs).2
      | _ => exact hs
    obtain ⟨x, hx, ours⟩ := h.resolve_right (ne_true_of_eq_false before)
    have place : c.place? index = some index := by
      cases c with
      | delete j =>
        have other : k ≠ i := hc.resolve_right nofun
        have behind : ¬(k ≠ i ∧ j ≤ index) := of_decide_eq_false (Bool.or_eq_false_iff.mp hs).1
        change (if index = j then none else some (if j < index then index - 1 else index)) = _
        rw [if_neg fun hn => behind ⟨other, Nat.le_of_eq hn.symm⟩,
          if_neg fun hn => behind ⟨other, Nat.le_of_lt hn⟩]
      | _ => rfl
    obtain ⟨y, hy, kind, -⟩ := cheat_answer hx place
    exact .inl ⟨y, hy, kind.trans ours⟩

/-- A look that is shown an Action Replay cheat finds it where it looks. -/
theorem standing_of_get {found : Option Cheat} (hf : found = d.store.get? index)
    (ours : found.any (·.kind = .actionReplay) = true) :
    Standing (d.called i (.get index) t) i index := by
  obtain ⟨x, hx, kind⟩ := (Option.any_eq_true _ _).mp ours
  exact .inl ⟨x, getElem?_of_get? (hf ▸ hx), of_decide_eq_true kind⟩

/-- The next call of a program leaves the editor with one that is backed too. -/
theorem Backed.next {o : Edit} {next : c.Reply → EditProgram o.Result}
    (h : Backed d i ⟨o, .call c next⟩) :
    Backed (d.called i c ⟨o, next (d.store.answer c).1⟩) i ⟨o, next (d.store.answer c).1⟩ := by
  obtain ⟨known, ⟨-, careful⟩, standing⟩ := h
  refine ⟨knownAfter known c (d.store.answer c).1, careful _, fun index hk => ?_⟩
  -- only a look makes a position known, and only asking for the length leaves it known
  cases c with
  | get j =>
    change (if (d.store.get? j).any (·.kind = .actionReplay) then some j else none) = _ at hk
    split at hk
    · next ours =>
      obtain rfl := Option.some.inj hk
      exact standing_of_get rfl ours
    · exact absurd hk nofun
  | count => exact (standing index hk).called (.inr rfl)
  | _ => exact absurd hk nofun

/-- Every step keeps what an editor relies on. -/
theorem backed_step (h : ∀ i t, d.task? i = some t → Backed d i t) (hs : Desk.Step d d') :
    ∀ i t, d'.task? i = some t → Backed d' i t := by
  intro i t ht
  cases hs.taskStep ht with
  | begun o task? => exact ⟨none, careful_program o, nofun⟩
  | called busy => exact (h i _ busy).next
  | beside busy other =>
    -- an editor that has not called knows what it knew
    obtain ⟨known, careful, standing⟩ := h i t busy
    exact ⟨known, careful, fun index hk => (standing index hk).called (.inl other)⟩
  | kept busy task? => exact h i t busy

/-- What an editor relies on holds at all times. -/
theorem backed_reachable {store : CheatStore} (hr : Reachable (.start store) d) :
    ∀ i t, d.task? i = some t → Backed d i t := by
  induction hr with
  | start => exact fun _ _ ht => absurd ht nofun
  | step _ hs ih => exact backed_step ih hs

end Standing

/-! ### The cheats of the other kinds -/

/-- Kind and text of the cheats that are not to be edited. -/
def foreign (xs : List Cheat) : List (CheatKind × String × String) :=
  (xs.filter (·.kind ≠ .actionReplay)).map fun x => (x.kind, x.text)

/-- No update has written at a position that was shifted since it looked. -/
def Undisturbed : List (ι × StoreCall) → Prop
  | [] => True
  | (i, c) :: older =>
    (∀ index description code, c = .update index description code → shifted i index older = false) ∧
      Undisturbed older

section Foreign

variable {d d' : Desk ι}

/-- A write that keeps kinds, and texts where they are not to be edited, leaves the foreign cheats
alone. -/
theorem foreign_modify {xs : List Cheat} {index : Nat} {f : Cheat → Cheat}
    (kind : ∀ x, (f x).kind = x.kind)
    (kept : ∀ x, xs[index]? = some x → x.kind = .actionReplay ∨ (f x).text = x.text) :
    foreign (xs.modify index f) = foreign xs := by
  unfold foreign
  induction xs generalizing index with
  | nil => rw [List.modify_nil]
  | cons x rest ih =>
    cases index with
    | zero =>
      -- the kind stays, and the text does unless the filter drops the cheat
      rw [List.modify_zero_cons]
      by_cases ours : x.kind = .actionReplay
      · have : (f x).kind = .actionReplay := (kind x).trans ours
        simp [ours, this]
      · have same := (kept x rfl).resolve_left ours
        simp [ours, kind x, same]
    | succ index =>
      rw [List.modify_succ_cons, List.filter_cons, List.filter_cons]
      split
      · rw [List.map_cons, List.map_cons, ih kept]
      · exact ih kept

/-- **What a call leaves of the cheats of the other kinds**, if it is no write at a place where
there is no Action Replay cheat. -/
theorem foreign_answer {s : CheatStore} {c : StoreCall}
    (ours : ∀ index description code, c = .update index description code →
      ∃ x, s.cheats[index]? = some x ∧ x.kind = .actionReplay) :
    (foreign (s.answer c).2.cheats).Sublist (foreign s.cheats) := by
  have same {xs : List Cheat} (h : foreign xs = foreign s.cheats) :
      (foreign xs).Sublist (foreign s.cheats) := h ▸ .refl _
  -- only an update could touch the text of a foreign cheat, and it writes to another one
  cases c with
  | count | get => exact same rfl
  | add description code =>
    change (foreign (s.cheats ++ [_])).Sublist _
    exact same (by simp [foreign])
  | update index description code =>
    obtain ⟨x, hx, kind⟩ := ours index description code rfl
    refine same (foreign_modify (fun _ => rfl) fun y hy => .inl ?_)
    rw [hx] at hy
    exact Option.some.inj hy ▸ kind
  | delete index => exact ((List.eraseIdx_sublist ..).filter _).map _
  | setEnabled index enabled =>
    exact same (foreign_modify (fun _ => rfl) fun _ _ => .inr rfl)
  | persist => exact same (congrArg foreign (cheats_persist s))

/-- The next call of an edit writes where an Action Replay cheat is, if the place was not
shifted. -/
theorem ours_of_write {store : CheatStore} (hr : Reachable (.start store) d) {i : ι} {o : Edit}
    {c : StoreCall} {next : c.Reply → EditProgram o.Result}
    (busy : d.task? i = some ⟨o, .call c next⟩) {index : Nat} {description code : String}
    (write : c = .update index description code) (still : shifted i index d.log = false) :
    ∃ x, d.store.cheats[index]? = some x ∧ x.kind = .actionReplay := by
  obtain ⟨known, ⟨careful, -⟩, standing⟩ := backed_reachable hr i _ busy
  exact (standing index (careful _ _ _ write)).resolve_right (ne_true_of_eq_false still)

/-- **In a run without shifted writes the cheats of the other kinds are those of the start**, but
for the removed ones. -/
theorem foreign_sublist {store : CheatStore} (hr : Reachable (.start store) d)
    (still : Undisturbed d.log) : (foreign d.store.cheats).Sublist (foreign store.cheats) := by
  -- by the last call; the log of the rest is that of an undisturbed run too
  induction hr with
  | start => exact .refl _
  | step hr hs ih =>
    cases hs with
    | begin | finish => exact ih still
    | call busy =>
      refine .trans (foreign_answer fun _ _ _ write => ?_) (ih still.2)
      exact ours_of_write hr busy write (still.1 _ _ _ write)

/-- An editor that is the only one shifts nothing under its own feet. -/
theorem undisturbed_alone [Subsingleton ι] (log : List (ι × StoreCall)) : Undisturbed log := by
  have still (i : ι) (index : Nat) (log : List (ι × StoreCall)) : shifted i index log = false := by
    induction log with
    | nil => rfl
    | cons entry older ih =>
      have own : entry.1 = i := Subsingleton.elim ..
      unfold shifted
      split <;> simp [own, ih]
  induction log with
  | nil => trivial
  | cons _ older ih => exact ⟨fun index _ _ _ => still _ index older, ih⟩

/-- **A single editor changes no text of a cheat of another kind.** -/
theorem foreign_alone [Subsingleton ι] {store : CheatStore} (hr : Reachable (.start store) d) :
    (foreign d.store.cheats).Sublist (foreign store.cheats) :=
  foreign_sublist hr (undisturbed_alone d.log)

end Foreign

/-! ### The order in which a cheat is overwritten -/

/-- While one editor is between its look and its write, another removes the cheat that the first one
has seen; then what stood behind that cheat is overwritten. -/
theorem overwritten {store : CheatStore} {i k : ι} (hik : k ≠ i) {index : Nat} {ours x : Cheat}
    (description code : String) (hours : store.get? index = some ours)
    (kind : ours.kind = .actionReplay) (hx : store.cheats[index + 1]? = some x) :
    ∃ d : Desk ι, Reachable (.start store) d ∧ (∀ l, d.task? l = none) ∧
      d.store.cheats[index]? = some { x with description, code } := by
  let o := Edit.update index description code
  let write : EditProgram o.Result := .call (.update index description code) fun _ => .persist
  let tasks : ι → Option Task := Function.update (fun _ => none) i (some ⟨o, write⟩)
  have busy : tasks i = some ⟨o, write⟩ := Function.update_self ..
  have idle {l : ι} (hl : l ≠ i) : tasks l = none := Function.update_of_ne hl ..
  -- one editor looks
  obtain ⟨log, looked⟩ : ∃ log, Reachable (.start store) ⟨store, tasks, log⟩ := by
    have fresh : Reachable (.start store : Desk ι) (.start store) := .start
    obtain ⟨log, looked⟩ := (fresh.step (.begin i o rfl)).looked (Function.update_self ..) hours
    dsimp only at looked
    rw [Function.update_idem, if_pos kind] at looked
    exact ⟨log, looked⟩
  -- the other removes what the first one has seen
  obtain ⟨log, deleted⟩ :=
    (looked.step (.begin k (.delete index) (idle hik))).alone (Function.update_self ..)
  rw [Function.update_idem, ← idle hik, Function.update_eq_self] at deleted
  -- and the first one goes on to write
  obtain ⟨log, written⟩ := deleted.alone busy
  refine ⟨_, written, fun l => ?_, ?_⟩
  · by_cases hl : l = i
    · rw [hl]
      exact Function.update_self ..
    · exact (Function.update_of_ne hl ..).trans (idle hl)
  · let s := ((Edit.delete index).program.run store).2
    change ((s.update index description code).persist.2.cheats)[index]? = _
    rw [cheats_persist]
    have shown : s.cheats[index]? = some x := by
      rw [cheats_run_delete hours, List.getElem?_eraseIdx, if_neg (Nat.lt_irrefl index), hx]
    change (s.cheats.modify index _)[index]? = _
    rw [List.getElem?_modify, shown]
    exact congrArg some (if_pos rfl)

/-- **Only a shifted write changes the text of a cheat of another kind, and such writes happen.** -/
theorem foreign_kept_unless_shifted (store : CheatStore) :
    (∀ d : Desk ι, Reachable (.start store) d →
      (∀ i o c next, d.task? i = some ⟨o, .call c next⟩ →
        ∀ j k x, d.store.cheats[j]? = some x → x.kind ≠ .actionReplay → c.place? j = some k →
          ∃ y, (d.store.answer c).2.cheats[k]? = some y ∧ y.kind = x.kind ∧
            (y.text = x.text ∨
              (∃ description code, c = .update j description code) ∧ shifted i j d.log = true)) ∧
      (Undisturbed d.log → (foreign d.store.cheats).Sublist (foreign store.cheats))) ∧
    (∀ i k : ι, k ≠ i → ∀ index ours x description code, store.get? index = some ours →
      ours.kind = .actionReplay → store.cheats[index + 1]? = some x →
        ∃ d : Desk ι, Reachable (.start store) d ∧ (∀ l, d.task? l = none) ∧
          d.store.cheats[index]? = some { x with description, code }) := by
  refine ⟨fun d hr => ⟨fun i o c next busy j k x hx other place => ?_, foreign_sublist hr⟩, ?_⟩
  · obtain ⟨y, hy, kind, kept | ⟨description, code, write⟩⟩ := cheat_answer hx place
    · exact ⟨y, hy, kind, .inl kept⟩
    · refine ⟨y, hy, kind, .inr ⟨⟨description, code, write⟩, ?_⟩⟩
      by_contra still
      obtain ⟨z, hz, ours⟩ := ours_of_write hr busy write (eq_false_of_ne_true still)
      rw [hx] at hz
      exact other (Option.some.inj hz ▸ ours)
  · exact fun i k other _ _ _ description code shown kind behind =>
      overwritten other description code shown kind behind

/-- One editor writes the first cheat while another is in the middle of the removal of the third,
which stands behind it. So the write finds what was looked at, and the cheat between the two keeps
its text. -/
theorem foreign_kept_after_removal :
    let store := mixedCheats.add "Infinite health" "02000000 00000063"
    ∃ d : Desk Bool, Reachable (.start store) d ∧ (∀ i, d.task? i = none) ∧
      (true, .update 0 "Less money" "0213D9F4 00000001") ∈ d.log ∧ (false, .delete 2) ∈ d.log ∧
      d.store.cheats.map (·.description) = ["Less money", "Walk through walls"] ∧
      (foreign d.store.cheats).Sublist (foreign store.cheats) := by
  intro store
  have fresh : Reachable (.start store : Desk Bool) (.start store) := .start
  -- both look
  have begun := fresh.step (.begin true (.update 0 "Less money" "0213D9F4 00000001") rfl)
  have seen := (begun.step (.call (i := true) rfl)).step (.call (i := true) rfl)
  have joined := seen.step (.begin false (.delete 2) rfl)
  have shown := (joined.step (.call (i := false) rfl)).step (.call (i := false) rfl)
  -- one removes what it has seen, and then the other writes
  have removed := shown.step (.call (i := false) rfl)
  have written := removed.step (.call (i := true) rfl)
  have persisted := (written.step (.call (i := false) rfl)).step (.call (i := true) rfl)
  have finished := (persisted.step (.finish (i := false) rfl)).step (.finish (i := true) rfl)
  refine ⟨_, finished, Bool.forall_bool.mpr ⟨rfl, rfl⟩, by decide, by decide, rfl,
    ((foreign_kept_unless_shifted store).1 _ finished).2 ?_⟩
  -- the removal is not at the position that is written, nor before it
  simp [Undisturbed, shifted, Desk.called, Desk.start]

/-- **Two editors can change the text of a cheat that is not to be edited.** -/
theorem foreign_cheat_overwritten :
    ¬∀ (store : CheatStore) (d : Desk Bool), Reachable (.start store) d →
      ∀ x ∈ d.store.cheats, x.kind ≠ .actionReplay →
        ∃ z ∈ store.cheats, z.kind = x.kind ∧ z.text = x.text := by
  intro kept
  obtain ⟨d, hr, -, hd⟩ := overwritten Bool.false_ne_true "Infinite health" "02000000 00000063"
    (rfl : mixedCheats.get? 0 = some _) rfl (rfl : mixedCheats.cheats[0 + 1]? = some _)
  obtain ⟨z, hz, kind, text⟩ := kept mixedCheats d hr _ (List.mem_of_getElem? hd) (by decide)
  revert kind text z
  decide

end EmuScheduler
