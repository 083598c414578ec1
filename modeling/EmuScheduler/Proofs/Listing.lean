import EmuScheduler.Proofs.Editing
import Mathlib.Data.List.Basic

/-!
# Listing cheats beside other editors

To list the cheats an editor asks for the length and then looks at one position after the other,
and others may change the list in between. `list_snapshot_unless_changed` says what the result is.
Whatever the others do, each position shows what stood there at the moment of its own look
(`Looks`, `gathered`). If nobody has changed, removed or switched a cheat between the question for
the length and the looks, that is the list of the moment at which the length was asked for; others
may have added to it. But the result can be one that the store held at no moment: from every list
that begins with two different cheats, a removal of the first behind the back of the list makes it
show the first one and not the second (`list_skips`).

What an editor has left of its list is a `Listing`, whoever calls in between (`listing_step`). The
moments of a run are the suffixes of its log.
-/

namespace EmuScheduler

open Desk

variable {ι : Type}

/-! ### What was shown when -/

/-- The cheats that a store shows at its first `n` positions, if each is looked at after some calls
of its own. -/
def gathered (store : CheatStore) (looked : Nat → List (ι × StoreCall)) (n : Nat) : List Cheat :=
  (List.range n).filterMap fun j => (store.after (looked j)).get? j

/-- In a log that grew from `first` to `last` an editor has asked for the length, after the calls
`counted`, and then looked at `n` positions, one after the other: at position `j` after the calls
`looked j`. -/
structure Looks (i : ι) (first last counted : List (ι × StoreCall))
    (looked : Nat → List (ι × StoreCall)) (n : Nat) : Prop where
  begun : first <:+ counted
  counts : (i, .count) :: counted <:+ last
  later : ∀ j < n, (i, .count) :: counted <:+ looked j
  ordered : ∀ j k, j < k → k < n → (i, .get j) :: looked j <:+ looked k
  looks : ∀ j < n, (i, .get j) :: looked j <:+ last

section Looks

variable {i : ι} {first last counted : List (ι × StoreCall)}
  {looked : Nat → List (ι × StoreCall)} {n : Nat}

/-- Looks that were made stay in the log. -/
theorem Looks.mono (h : Looks i first last counted looked n) {last' : List (ι × StoreCall)}
    (grown : last <:+ last') : Looks i first last' counted looked n :=
  { h with
    counts := h.counts.trans grown
    looks := fun j hj => (h.looks j hj).trans grown }

/-- One look more. -/
theorem Looks.look (h : Looks i first last counted looked n) :
    Looks i first ((i, .get n) :: last) counted (Function.update looked n last) (n + 1) := by
  have grown : last <:+ (i, .get n) :: last := List.suffix_cons _ _
  have old {j : Nat} (hj : j < n) : Function.update looked n last j = looked j :=
    Function.update_of_ne (Nat.ne_of_lt hj) ..
  have new : Function.update looked n last n = last := Function.update_self ..
  -- each clause speaks of earlier looks, which are known, or of the new one
  refine ⟨h.begun, h.counts.trans grown, fun j hj => ?_, fun j k hjk hk => ?_, fun j hj => ?_⟩
  · obtain hj | rfl := Nat.lt_succ_iff_lt_or_eq.mp hj
    · rw [old hj]
      exact h.later j hj
    · rw [new]
      exact h.counts
  · obtain hk | rfl := Nat.lt_succ_iff_lt_or_eq.mp hk
    · rw [old (Nat.lt_trans hjk hk), old hk]
      exact h.ordered j k hjk hk
    · rw [old hjk, new]
      exact h.looks j hjk
  · obtain hj | rfl := Nat.lt_succ_iff_lt_or_eq.mp hj
    · rw [old hj]
      exact (h.looks j hj).trans grown
    · rewrite [new]
      exact List.suffix_refl _

/-- One look more adds what was shown at its position, if anything was. -/
theorem gathered_update (store : CheatStore) (looked : Nat → List (ι × StoreCall)) (n : Nat)
    (log : List (ι × StoreCall)) :
    gathered store (Function.update looked n log) (n + 1) =
      gathered store looked n ++ ((store.after log).get? n).toList := by
  unfold gathered
  rw [List.range_succ, List.filterMap_append]
  congr 1
  · refine List.filterMap_congr fun j hj => ?_
    rw [Function.update_of_ne (Nat.ne_of_lt (List.mem_range.mp hj))]
  · rw [List.filterMap_cons, Function.update_self]
    cases (store.after log).get? n <;> rfl

end Looks

/-! ### Making a list -/

/-- What is left of a list that an editor makes, in a log that has grown since `first`: all of it,
or the looks at the positions from `n` on. -/
def Listing (store : CheatStore) (first log : List (ι × StoreCall)) (i : ι)
    (p : EditProgram (List Cheat)) : Prop :=
  p = CheatEditor.list ∨
    ∃ counted looked n remaining, (store.after counted).count = n + remaining ∧
      Looks i first log counted looked n ∧
      p = (CheatEditor.collect n remaining).andThen fun rest =>
        .done (gathered store looked n ++ rest)

section Listing

variable {store : CheatStore} {first log : List (ι × StoreCall)} {i : ι}

/-- So does a listing that has come so far. -/
theorem Listing.mono {p : EditProgram (List Cheat)} (h : Listing store first log i p)
    {log' : List (ι × StoreCall)} (grown : log <:+ log') : Listing store first log' i p := by
  obtain rfl | ⟨counted, looked, n, remaining, count, looks, rfl⟩ := h
  · exact .inl rfl
  · exact .inr ⟨counted, looked, n, remaining, count, looks.mono grown, rfl⟩

/-- The next call of an editor that makes a list. -/
theorem Listing.call {c : StoreCall} {next : c.Reply → EditProgram (List Cheat)}
    (h : Listing store first log i (.call c next)) (begun : first <:+ log) :
    Listing store first ((i, c) :: log) i (next ((store.after log).answer c).1) := by
  obtain asked | ⟨counted, looked, n, remaining, count, looks, left⟩ := h
  · -- it asks for the length, and is to look at every position
    unfold CheatEditor.list at asked
    obtain ⟨rfl, heq⟩ := EditProgram.call.inj asked
    obtain rfl := eq_of_heq heq
    refine .inr ⟨log, fun _ => log, 0, (store.after log).count, (Nat.zero_add _).symm, ?_, ?_⟩
    · exact ⟨begun, List.suffix_refl _, nofun, nofun, nofun⟩
    · exact (EditProgram.andThen_done _).symm
  · cases remaining with
    | zero => exact absurd left nofun
    | succ remaining =>
      obtain ⟨rfl, heq⟩ := EditProgram.call.inj left
      obtain rfl := eq_of_heq heq
      refine .inr ⟨counted, Function.update looked n log, n + 1, remaining, ?_, looks.look, ?_⟩
      · rw [count]
        omega
      · -- what the look has shown goes to the end of what was gathered
        dsimp only
        rw [EditProgram.andThen_assoc, gathered_update]
        simp only [EditProgram.andThen, List.append_assoc]
        rfl

/-- A list that is made shows what was found at its looks. -/
theorem Listing.done {result : List Cheat} (h : Listing store first log i (.done result)) :
    ∃ counted looked, Looks i first log counted looked (store.after counted).count ∧
      result = gathered store looked (store.after counted).count := by
  obtain asked | ⟨counted, looked, n, remaining, count, looks, left⟩ := h
  · exact absurd asked nofun
  · cases remaining with
    | succ remaining => exact absurd left nofun
    | zero =>
      rw [Nat.add_zero] at count
      refine ⟨counted, looked, count ▸ looks, ?_⟩
      rw [count, EditProgram.done.inj left, List.append_nil]

variable [DecidableEq ι]

/-- Every step keeps what is known of a listing that goes on. -/
theorem listing_step {d d' : Desk ι} (hr : Reachable (.start store) d) (hs : Desk.Step d d')
    (begun : first <:+ d.log)
    (h : ∀ p, d.task? i = some ⟨.list, p⟩ → Listing store first d.log i p) :
    ∀ p, d'.task? i = some ⟨.list, p⟩ → Listing store first d'.log i p := by
  intro p hp
  cases hs.taskStep hp with
  | begun => exact .inl rfl
  | called busy =>
    rw [store_reachable hr]
    exact (h _ busy).call begun
  | beside busy other =>
    -- the call of another editor comes between two of its own
    exact (h p busy).mono (List.suffix_cons _ _)
  | kept busy task? => exact h p busy

/-- What a listing has gathered was shown in looks that came one after the other. -/
theorem listing_reachable {d₁ d : Desk ι} (hr₁ : Reachable (.start store) d₁)
    (begun : d₁.task? i = some ⟨.list, Edit.list.program⟩) (hr : Reachable d₁ d) :
    ∀ p, d.task? i = some ⟨.list, p⟩ → Listing store d₁.log d.log i p := by
  induction hr with
  | start =>
    intro p hp
    rw [begun] at hp
    cases hp
    exact .inl rfl
  | step hr hs ih => exact listing_step (hr₁.trans hr) hs (suffix_reachable hr) ih

end Listing

/-! ### While nothing is changed -/

/-- Whether a call changes or removes what stands at a position. -/
def StoreCall.changes : StoreCall → Bool
  | .update _ _ _ | .delete _ | .setEnabled _ _ => true
  | _ => false

/-- In a log that grew from `first` to `last` nobody has changed or removed a cheat in between. -/
def Unchanged (first last : List (ι × StoreCall)) : Prop :=
  ∀ new, last = new ++ first → ∀ entry ∈ new, entry.2.changes = false

section Unchanged

variable {s store : CheatStore} {log new : List (ι × StoreCall)}

/-- A call that does not change the list may still add to it. -/
theorem prefix_answer {c : StoreCall} (kept : c.changes = false) :
    s.cheats <+: (s.answer c).2.cheats := by
  cases c with
  | add description code => exact List.prefix_append ..
  | persist =>
    change s.cheats <+: s.persist.2.cheats
    rewrite [cheats_persist]
    exact List.prefix_refl _
  | count | get => exact List.prefix_refl _
  | _ => exact absurd kept.symm Bool.false_ne_true

/-- So may several. -/
theorem prefix_after (kept : ∀ entry ∈ new, entry.2.changes = false) :
    (store.after log).cheats <+: (store.after (new ++ log)).cheats := by
  induction new with
  | nil => exact List.prefix_refl _
  | cons entry new ih =>
    have before := ih fun x hx => kept x (List.mem_cons_of_mem _ hx)
    exact before.trans (prefix_answer (kept entry List.mem_cons_self))

/-- To look at the first positions one by one is to take as many. -/
theorem filterMap_range_getElem? {α : Type} (xs : List α) (n : Nat) :
    (List.range n).filterMap (xs[·]?) = xs.take n := by
  induction n with
  | zero => rfl
  | succ n ih =>
    rw [List.range_succ, List.filterMap_append, ih, List.take_add_one]
    congr 1

/-- **A list that is made while nothing is changed** shows what the store held when the length was
asked for. -/
theorem gathered_of_unchanged {counted : List (ι × StoreCall)} {looked : Nat → List (ι × StoreCall)}
    (shown : store.hidden = []) (later : ∀ j < (store.after counted).count, counted <:+ looked j)
    (kept : ∀ j < (store.after counted).count, Unchanged counted (looked j)) :
    gathered store looked (store.after counted).count = (store.after counted).cheats := by
  -- every look finds what was there at the counting, for the list was at most added to
  have same : ∀ j ∈ List.range (store.after counted).count,
      (store.after (looked j)).get? j = (store.after counted).cheats[j]? := by
    intro j hj
    have hj := List.mem_range.mp hj
    obtain ⟨new, heq⟩ := later j hj
    have grown : (store.after counted).cheats <+: (store.after (looked j)).cheats := by
      rw [← heq]
      exact prefix_after (kept j hj new heq.symm)
    rw [get?_of_shown ((hidden_after _ _).trans shown)]
    exact (List.prefix_iff_getElem?.mp grown j hj).trans (List.getElem?_eq_getElem hj).symm
  unfold gathered
  rw [List.filterMap_congr same, filterMap_range_getElem?]
  exact List.take_length

end Unchanged

/-! ### While a cheat is removed -/

/-- Whether a call can only look at the list or write it out. -/
def StoreCall.isIdle : StoreCall → Bool
  | .count | .get _ | .persist => true
  | _ => false

section Idle

variable {s store : CheatStore} {idle old moment : List (ι × StoreCall)}

/-- A call that is idle leaves the list as it was. -/
theorem cheats_answer_of_isIdle {c : StoreCall} (hc : c.isIdle = true) :
    (s.answer c).2.cheats = s.cheats := by
  cases c with
  | count | get => rfl
  | persist => exact cheats_persist s
  | _ => exact absurd hc Bool.false_ne_true

/-- Calls that only look or write out leave the cheats as they are. -/
theorem cheats_after_of_isIdle (hidle : ∀ entry ∈ idle, entry.2.isIdle = true) :
    (store.after (idle ++ old)).cheats = (store.after old).cheats := by
  induction idle with
  | nil => rfl
  | cons entry idle ih =>
    exact (cheats_answer_of_isIdle (hidle entry List.mem_cons_self)).trans
      (ih fun x hx => hidle x (List.mem_cons_of_mem _ hx))

/-- A moment in a log that ends with idle calls is before these, or finds the cheats as they are
before these. -/
theorem suffix_or_cheats (hidle : ∀ entry ∈ idle, entry.2.isIdle = true)
    (hm : moment <:+ idle ++ old) :
    moment <:+ old ∨ (store.after moment).cheats = (store.after old).cheats := by
  induction idle with
  | nil => exact .inl hm
  | cons entry idle ih =>
    obtain rfl | hm := List.suffix_cons_iff.mp hm
    · exact .inr (cheats_after_of_isIdle hidle)
    · exact ih (fun x hx => hidle x (List.mem_cons_of_mem _ hx)) hm

/-- At every moment around a removal the cheats are those of before it or those that it leaves. -/
theorem cheats_of_removal {k : ι} {index : Nat} {later before : List (ι × StoreCall)}
    (hlater : ∀ entry ∈ later, entry.2.isIdle = true)
    (hbefore : ∀ entry ∈ before, entry.2.isIdle = true)
    (hm : moment <:+ later ++ (k, .persist) :: (k, .delete index) :: before) :
    (store.after moment).cheats = store.cheats ∨
      (store.after moment).cheats = store.cheats.eraseIdx index := by
  have unchanged {log : List (ι × StoreCall)} (hs : log <:+ before) :
      (store.after log).cheats = store.cheats := by
    rw [← List.append_nil log]
    exact cheats_after_of_isIdle fun entry hentry => hbefore entry (hs.subset hentry)
  have removed : (store.after ((k, .delete index) :: before)).cheats =
      store.cheats.eraseIdx index :=
    congrArg (List.eraseIdx · index) (unchanged (List.suffix_refl _))
  have written : ∀ entry ∈ later ++ [(k, .persist)], entry.2.isIdle = true := by
    intro entry hentry
    obtain hentry | hentry := List.mem_append.mp hentry
    · exact hlater entry hentry
    · rw [List.mem_singleton.mp hentry]
      rfl
  rw [List.append_cons] at hm
  -- behind the removal the list stays, and before it the list is the one that was there
  have either : moment <:+ (k, .delete index) :: before ∨ (store.after moment).cheats =
      (store.after ((k, .delete index) :: before)).cheats := suffix_or_cheats written hm
  obtain hm | same := either
  · obtain rfl | hm := List.suffix_cons_iff.mp hm
    · exact .inr removed
    · exact .inl (unchanged hm)
  · exact .inr (same.trans removed)

end Idle

section Skipping

variable {s store : CheatStore}

/-- To list is to look only. -/
theorem journal_collect (index remaining : Nat) (s : CheatStore) :
    ∀ entry ∈ (CheatEditor.collect index remaining).journal s, entry.1.isIdle = true := by
  induction remaining generalizing index with
  | zero => nofun
  | succ remaining ih =>
    intro entry hentry
    unfold CheatEditor.collect EditProgram.journal at hentry
    rw [EditProgram.journal_andThen] at hentry
    simp only [EditProgram.journal, List.nil_append, List.mem_append, List.mem_singleton] at hentry
    obtain hentry | rfl := hentry
    · exact ih _ _ hentry
    · rfl

/-- The looks of an editor that nobody disturbs. -/
theorem run_collect (shown : s.hidden = []) (index remaining : Nat) :
    (CheatEditor.collect index remaining).run s = ((s.cheats.drop index).take remaining, s) := by
  induction remaining generalizing index with
  | zero =>
    rw [List.take_zero]
    rfl
  | succ remaining ih =>
    unfold CheatEditor.collect EditProgram.run
    rw [EditProgram.run_andThen, CheatStore.answer, ih, get?_of_shown shown]
    refine Prod.ext ?_ rfl
    simp only [EditProgram.run]
    by_cases inside : index < s.cheats.length
    · rw [List.drop_eq_getElem_cons inside, List.take_succ_cons, List.getElem?_eq_getElem inside]
      rfl
    · -- past the end nothing is shown
      rw [List.getElem?_eq_none (Nat.le_of_not_lt inside),
        List.drop_eq_nil_of_le (Nat.le_of_not_lt inside), List.drop_eq_nil_of_le (by omega)]
      simp

variable [DecidableEq ι]

/-- **A cheat is removed behind the back of a list** that has looked at the first position, where it
stood. The list then shows that cheat and not the next one, which has moved up to the first
position. The store held that at no moment if the two differ. -/
theorem list_skips {i k : ι} (hik : k ≠ i) (shown : store.hidden = []) {x y : Cheat}
    {rest : List Cheat} (hc : store.cheats = x :: y :: rest) (hxy : x ≠ y) :
    ∃ d₁ d : Desk ι, Reachable (.start store) d₁ ∧
      d₁.task? i = some ⟨.list, Edit.list.program⟩ ∧ Reachable d₁ d ∧
      d.task? i = some ⟨.list, .done (x :: rest)⟩ ∧
      ∀ moment, d₁.log <:+ moment → moment <:+ d.log → (store.after moment).cheats ≠ x :: rest := by
  let tasks (p : EditProgram (List Cheat)) : ι → Option Task :=
    Function.update (fun _ => none) i (some ⟨.list, p⟩)
  have begun : Reachable (.start store) ⟨store, tasks CheatEditor.list, []⟩ :=
    .step .start (.begin i .list rfl)
  -- the list asks for the length and looks at the first position
  have counted : Reachable ⟨store, tasks CheatEditor.list, []⟩ _ := Reachable.called .start
  have length : store.count = rest.length + 1 + 1 := by
    unfold CheatStore.count
    rw [hc]
    rfl
  dsimp only [CheatStore.answer] at counted
  rw [length] at counted
  have looked := counted.called
  have first : store.get? 0 = some x := by
    rw [get?_of_shown shown, hc]
    rfl
  dsimp only [CheatStore.answer] at looked
  rw [first] at looked
  -- the other editor removes what is there, and the list goes on
  have removed := looked.edited (Function.update_of_ne hik ..) (.delete 0)
  have ended := removed.ran
  have left : ((Edit.delete 0).program.run store).2.cheats = y :: rest := by
    rw [cheats_run_delete first, hc]
    rfl
  have stillShown := (hidden_run (Edit.delete 0).program store).trans shown
  have calls : (Edit.delete 0).program.journal store =
      [(.persist, store.delete 0), (.delete 0, store), (.count, store), (.get 0, store)] := by
    unfold Edit.program CheatEditor.delete CheatEditor.get
    simp only [EditProgram.andThen, EditProgram.journal, CheatStore.answer, first,
      EditProgram.persist]
    rfl
  refine ⟨_, _, begun, ?_, ended, ?_, fun moment _ hm => ?_⟩
  · exact Function.update_self i (some (⟨.list, CheatEditor.list⟩ : Task)) fun _ => none
  · dsimp only
    rw [Function.update_self, EditProgram.run_andThen, run_collect stillShown, left]
    simp [EditProgram.run, List.take_of_length_le]
  · dsimp only at hm
    rw [calls, EditProgram.journal_andThen] at hm
    have looks : ∀ entry ∈ ((CheatEditor.collect 1 (rest.length + 1)).journal
        ((Edit.delete 0).program.run store).2).map fun entry => (i, entry.1),
        entry.2.isIdle = true := by
      intro entry hentry
      obtain ⟨call, hcall, rfl⟩ := List.mem_map.mp hentry
      exact journal_collect _ _ _ call hcall
    -- before the removal there was one cheat more, and after it the first is another
    obtain same | same := cheats_of_removal looks (by simp [StoreCall.isIdle]) hm
    · rw [same, hc]
      exact fun h => by simpa using congrArg List.length h
    · rw [same, hc]
      exact fun h => hxy (List.cons.inj h).1.symm

end Skipping

/-! ### What a list shows -/

variable [DecidableEq ι]

/-- **A list shows each position at the moment of its own look**, and so the list of one moment if
nothing is changed between the question for the length and the looks; if something is, it can show
what the store held at no moment. -/
theorem list_snapshot_unless_changed (store : CheatStore) (shown : store.hidden = []) :
    (∀ (d₁ d : Desk ι) (i : ι) (result : List Cheat), Reachable (.start store) d₁ →
      d₁.task? i = some ⟨.list, Edit.list.program⟩ → Reachable d₁ d →
      d.task? i = some ⟨.list, .done result⟩ →
        ∃ counted looked, Looks i d₁.log d.log counted looked (store.after counted).count ∧
          result = gathered store looked (store.after counted).count ∧
          ((∀ j < (store.after counted).count, Unchanged counted (looked j)) →
            result = (store.after counted).cheats)) ∧
    (∀ i k : ι, k ≠ i → ∀ x y rest, store.cheats = x :: y :: rest → x ≠ y →
      ∃ d₁ d : Desk ι, Reachable (.start store) d₁ ∧
        d₁.task? i = some ⟨.list, Edit.list.program⟩ ∧ Reachable d₁ d ∧
        d.task? i = some ⟨.list, .done (x :: rest)⟩ ∧
        ∀ moment, d₁.log <:+ moment → moment <:+ d.log →
          (store.after moment).cheats ≠ x :: rest) := by
  refine ⟨fun d₁ d i result hr₁ begun hr ended => ?_, fun i k other x y rest hc hxy => ?_⟩
  · obtain ⟨counted, looked, looks, rfl⟩ := (listing_reachable hr₁ begun hr _ ended).done
    refine ⟨counted, looked, looks, rfl, gathered_of_unchanged shown fun j hj => ?_⟩
    exact (List.suffix_cons _ _).trans (looks.later j hj)
  · exact list_skips other shown hc hxy

/-- A list during which another editor adds a cheat: it shows the two of the beginning. -/
theorem list_snapshot_beside_addition :
    ∃ d₁ d : Desk Bool, Reachable (.start mixedCheats) d₁ ∧ Reachable d₁ d ∧
      d.store.cheats.length = 3 ∧ d.task? true = some ⟨.list, .done mixedCheats.cheats⟩ ∧
      ∃ counted, d₁.log <:+ counted ∧ counted <:+ d.log ∧
        mixedCheats.cheats = (mixedCheats.after counted).cheats := by
  let d₁ : Desk Bool :=
    ⟨mixedCheats, Function.update (fun _ => none) true (some ⟨.list, CheatEditor.list⟩), []⟩
  have begun : Reachable (.start mixedCheats) d₁ := .step .start (.begin true .list rfl)
  have looked := (Reachable.start : Reachable d₁ d₁).called.called
  have ended := (looked.edited (i := false) rfl (.add "Run" "1")).ran
  obtain ⟨counted, moments, looks, -, snapshot⟩ :=
    (list_snapshot_unless_changed mixedCheats rfl).1 _ _ true mixedCheats.cheats begun rfl ended rfl
  refine ⟨_, _, begun, ended, rfl, rfl, counted, looks.begun, ?_, snapshot fun j hj new heq => ?_⟩
  · exact (List.suffix_cons _ _).trans looks.counts
  · -- nobody has changed anything in the whole run
    have early : moments j <:+ _ := (List.suffix_cons _ _).trans (looks.looks j hj)
    have calm : ∀ entry ∈ [(true, StoreCall.get 1), (false, .persist), (false, .add "Run" "1"),
        (true, .get 0), (true, .count)], entry.2.changes = false := by decide
    intro entry hentry
    refine calm entry (early.subset ?_)
    rw [heq]
    exact List.mem_append_left _ hentry

/-- **A list need not be one that the store held at any moment of it.** -/
theorem list_never_stored :
    ¬∀ (store : CheatStore) (d₁ d : Desk Bool) (i : Bool) (result : List Cheat),
      store.hidden = [] → Reachable (.start store) d₁ →
      d₁.task? i = some ⟨.list, Edit.list.program⟩ → Reachable d₁ d →
      d.task? i = some ⟨.list, .done result⟩ →
        ∃ moment, d₁.log <:+ moment ∧ moment <:+ d.log ∧
          result = (store.after moment).cheats := by
  intro snapshot
  have shown : mixedCheats.hidden = [] := rfl
  obtain ⟨d₁, d, hr₁, begun, hr, ended, never⟩ :=
    list_skips Bool.false_ne_true shown rfl (by decide)
  obtain ⟨moment, first, last, same⟩ := snapshot mixedCheats d₁ d true _ rfl hr₁ begun hr ended
  exact never moment first last same.symm

end EmuScheduler
