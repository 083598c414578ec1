import EmuScheduler.Proofs.Editing

/-!
# What is written out

An edit changes the list with one call and writes it out with the next, and the calls of other
editors may come between the two. `persisted_follows` says that the written list follows the live
one all the same. In every order of the calls of any number of editors, whenever nobody is in an
edit, the written list has the cheats of the live one in the same order, and a switch can stand
differently only at a position that was switched since the list was last written out.

The proof has two halves. The written list is the list of the moment of the last writing
(`persisted_after`). And while the list has changed since then, in more than its switches, somebody
is about to write it out (`Owed`): every edit that changes the list goes on with that at once
(`Prompt`), and whoever else writes it out in between has written the change too.

If writing out can fail, an edit can leave a change behind that is not written. What is written then
is the list of the last moment at which that worked; this is shown for edits one after the other, in
which it can begin and cease to work at any moment (`InTurn`).
-/

namespace EmuScheduler

open Desk

/-- What there is to a cheat but its switch. -/
def Cheat.label (x : Cheat) : CheatKind × String × String :=
  (x.kind, x.text)

/-- Whether a call changes the list in more than its switches. -/
def StoreCall.isStructural : StoreCall → Bool
  | .add _ _ | .update _ _ _ | .delete _ => true
  | _ => false

/-- The calls since the list was last written out, of a newest first log. -/
def sincePersist {ι : Type} (log : List (ι × StoreCall)) : List (ι × StoreCall) :=
  log.takeWhile (·.2 ≠ .persist)

/-! ### The last writing -/

section Written

variable {ι : Type} {s store : CheatStore}

/-- A call neither makes nor removes a fault of the store. -/
theorem fault_answer (s : CheatStore) (c : StoreCall) : (s.answer c).2.fault? = s.fault? := by
  cases c with
  | persist =>
    change s.persist.2.fault? = _
    unfold CheatStore.persist
    split <;> rfl
  | _ => rfl

theorem fault_after (s : CheatStore) (log : List (ι × StoreCall)) :
    (s.after log).fault? = s.fault? := by
  induction log with
  | nil => rfl
  | cons entry log ih => exact (fault_answer _ _).trans ih

/-- Only one call touches what is written. -/
theorem persisted_answer {c : StoreCall} (hc : c ≠ .persist) :
    (s.answer c).2.persisted = s.persisted := by
  cases c with
  | persist => exact absurd rfl hc
  | _ => rfl

/-- It writes the live list, if nothing is in the way. -/
theorem persisted_persist (works : s.fault? = none) : s.persist.2.persisted = s.cheats := by
  unfold CheatStore.persist
  rw [works]

/-- **What is written is the list of the last writing**, or of the beginning. -/
theorem persisted_after (works : store.fault? = none) (written : store.persisted = store.cheats)
    (log : List (ι × StoreCall)) :
    (store.after log).persisted = (store.after (log.dropWhile (·.2 ≠ .persist))).cheats := by
  induction log with
  | nil => exact written
  | cons entry log ih =>
    by_cases now : entry.2 = .persist
    · rw [List.dropWhile_cons_of_neg (by simpa using now)]
      change ((store.after log).answer entry.2).2.persisted =
        ((store.after log).answer entry.2).2.cheats
      rw [now]
      exact (persisted_persist ((fault_after store log).trans works)).trans (cheats_persist _).symm
    · rw [List.dropWhile_cons_of_pos (by simpa using now)]
      exact (persisted_answer now).trans ih

end Written

/-! ### Since the last writing -/

section Switches

variable {ι : Type} {s store : CheatStore} {new old : List (ι × StoreCall)} {j : Nat}

/-- To enable or disable a cheat, like any call that is not structural, leaves the labels alone. -/
theorem labels_answer {c : StoreCall} (hc : c.isStructural = false) :
    (s.answer c).2.cheats.map Cheat.label = s.cheats.map Cheat.label := by
  cases c with
  | setEnabled index enabled =>
    change (s.cheats.modify index _).map Cheat.label = _
    -- position by position: the cheat there has its label, whether or not it is the one that
    -- changes
    refine List.ext_getElem? fun k => ?_
    rw [List.getElem?_map, List.getElem?_map, List.getElem?_modify]
    cases s.cheats[k]? with
    | none => rfl
    | some x => by_cases here : index = k <;> simp [here, Cheat.label, Cheat.text]
  | persist =>
    change s.persist.2.cheats.map Cheat.label = _
    rw [cheats_persist]
  | count | get => rfl
  | _ => exact absurd hc.symm Bool.false_ne_true

/-- Only a call for a position switches the cheat there. -/
theorem getElem?_answer {c : StoreCall} (hc : c.isStructural = false)
    (other : ∀ enabled, c ≠ .setEnabled j enabled) :
    (s.answer c).2.cheats[j]? = s.cheats[j]? := by
  cases c with
  | setEnabled index enabled =>
    have elsewhere : index ≠ j := fun here => other enabled (here ▸ rfl)
    exact List.getElem?_modify_ne _ _ elsewhere
  | persist =>
    change s.persist.2.cheats[j]? = _
    rw [cheats_persist]
  | count | get => rfl
  | _ => exact absurd hc.symm Bool.false_ne_true

/-- So do several calls. -/
theorem labels_after (hnew : ∀ entry ∈ new, entry.2.isStructural = false) :
    (store.after (new ++ old)).cheats.map Cheat.label =
      (store.after old).cheats.map Cheat.label := by
  induction new with
  | nil => rfl
  | cons entry new ih =>
    exact (labels_answer (hnew entry List.mem_cons_self)).trans
      (ih fun x hx => hnew x (List.mem_cons_of_mem _ hx))

/-- A cheat stays as it is while no call is structural and none is about it. -/
theorem getElem?_after (hnew : ∀ entry ∈ new, entry.2.isStructural = false)
    (other : ∀ i enabled, (i, .setEnabled j enabled) ∉ new) :
    (store.after (new ++ old)).cheats[j]? = (store.after old).cheats[j]? := by
  induction new with
  | nil => rfl
  | cons entry new ih =>
    have last : ∀ enabled, entry.2 ≠ .setEnabled j enabled := by
      intro enabled heq
      exact other entry.1 enabled (heq ▸ List.mem_cons_self)
    exact (getElem?_answer (hnew entry List.mem_cons_self) last).trans
      (ih (fun x hx => hnew x (List.mem_cons_of_mem _ hx))
        fun i enabled hmem => other i enabled (List.mem_cons_of_mem _ hmem))

end Switches

/-! ### Programs that write out what they change -/

/-- A program that goes on to write the list out wherever it has changed more than a switch. -/
def Prompt {α : Type} : EditProgram α → Prop
  | .done _ => True
  | .call c next =>
    (c.isStructural = true → ∀ r, ∃ after, next r = .call .persist after) ∧ ∀ r, Prompt (next r)

section Prompt

variable {α β : Type}

/-- A prompt program goes on to another one with nothing unwritten. -/
theorem Prompt.andThen {p : EditProgram α} {f : α → EditProgram β} (hp : Prompt p)
    (hf : ∀ a, Prompt (f a)) : Prompt (p.andThen f) := by
  induction p with
  | done a => exact hf a
  | call c next ih =>
    refine ⟨fun hc r => ?_, fun r => ih r (hp.2 r)⟩
    obtain ⟨after, heq⟩ := hp.1 hc r
    dsimp only
    rw [heq]
    exact ⟨_, rfl⟩

theorem prompt_persist : Prompt EditProgram.persist :=
  ⟨nofun, fun _ => trivial⟩

theorem prompt_get (index : Nat) : Prompt (CheatEditor.get index) :=
  ⟨nofun, fun _ => ⟨nofun, fun _ => trivial⟩⟩

theorem prompt_collect (index remaining : Nat) : Prompt (CheatEditor.collect index remaining) := by
  induction remaining generalizing index with
  | zero => trivial
  | succ remaining ih => exact ⟨nofun, fun _ => (ih _).andThen fun _ => trivial⟩

/-- A change with the writing after it. -/
theorem prompt_change (c : StoreCall) : Prompt (.call c fun _ => EditProgram.persist) :=
  ⟨fun _ _ => ⟨_, rfl⟩, fun _ => prompt_persist⟩

/-- **Every edit writes out what it changes**, but for switches. -/
theorem prompt_program (o : Edit) : Prompt o.program := by
  -- every edit that is structural makes its change and writes it out with the next call
  cases o with
  | length => exact ⟨nofun, fun _ => trivial⟩
  | get index => exact prompt_get index
  | list => exact ⟨nofun, fun count => prompt_collect 0 count⟩
  | add description code => exact prompt_change _
  | update index description code =>
    refine (prompt_get index).andThen fun r => ?_
    cases r with
    | error error => trivial
    | ok cheat =>
      dsimp only
      split
      · exact prompt_change _
      · trivial
  | delete index =>
    refine (prompt_get index).andThen fun r => ?_
    cases r with
    | error error => trivial
    | ok cheat => exact prompt_change _
  | setEnabled index enabled =>
    refine (prompt_get index).andThen fun r => ?_
    cases r with
    | error error => trivial
    | ok cheat => exact ⟨nofun, fun _ => trivial⟩
  | save => exact prompt_persist

end Prompt

/-! ### Somebody is about to write -/

section Owed

variable {ι : Type} [DecidableEq ι] {d d' : Desk ι}

/-- What is left of a prompt program is prompt. -/
theorem prompt_step (hs : Desk.Step d d') (h : ∀ i t, d.task? i = some t → Prompt t.rest) :
    ∀ i t, d'.task? i = some t → Prompt t.rest := by
  intro i t ht
  cases hs.taskStep ht with
  | begun o task? => exact prompt_program o
  | called busy => exact (h i _ busy).2 _
  | beside busy other => exact h i t busy
  | kept busy task? => exact h i t busy

/-- Since the last writing nothing has changed but switches, or somebody is about to write. -/
def Owed (d : Desk ι) : Prop :=
  (∀ entry ∈ sincePersist d.log, entry.2.isStructural = false) ∨
    ∃ i o next, d.task? i = some ⟨o, .call .persist next⟩

/-- Whoever is about to write still is after a step of another editor. -/
theorem Owed.beside {i k : ι} {task : Option Task} {o : Edit}
    {next : StoreCall.persist.Reply → EditProgram o.Result}
    (due : d.task? i = some ⟨o, .call .persist next⟩)
    (hd : d'.task? = Function.update d.task? k task)
    (other : i ≠ k) : Owed d' := by
  refine .inr ⟨i, o, next, ?_⟩
  rw [hd, Function.update_of_ne other]
  exact due

/-- A structural change is followed by a write of the editor that made it. -/
theorem owed_step (prompt : ∀ i t, d.task? i = some t → Prompt t.rest) (hs : Desk.Step d d')
    (h : Owed d) : Owed d' := by
  -- an editor begins, makes a call, or finishes
  cases hs with
  | begin k o idle =>
    obtain calm | ⟨i, o', next, due⟩ := h
    · exact .inl calm
    · refine Owed.beside due rfl fun same => ?_
      rw [same, idle] at due
      exact absurd due nofun
  | @call k o c next busy =>
    unfold Owed sincePersist Desk.called
    by_cases now : c = .persist
    · -- what has changed is written with this call
      rw [List.takeWhile_cons_of_neg (by simpa using now)]
      exact .inl nofun
    rw [List.takeWhile_cons_of_pos (by simpa using now)]
    cases hc : c.isStructural with
    | true =>
      obtain ⟨after, heq⟩ := (prompt k _ busy).1 hc (d.store.answer c).1
      refine .inr ⟨k, o, after, ?_⟩
      dsimp only
      rw [Function.update_self, heq]
    | false =>
      obtain calm | ⟨i, o', next', due⟩ := h
      · refine .inl fun entry hentry => ?_
        obtain rfl | hentry := List.mem_cons.mp hentry
        · exact hc
        · exact calm entry hentry
      · refine .inr ⟨i, o', next', ?_⟩
        -- the call of this step is not the one that is due
        have other : i ≠ k := by
          rintro rfl
          rw [busy] at due
          cases due
          exact now rfl
        dsimp only
        rw [Function.update_of_ne other]
        exact due
  | @finish k o result busy =>
    obtain calm | ⟨i, o', next, due⟩ := h
    · exact .inl calm
    · refine Owed.beside due rfl fun same => ?_
      rw [same, busy] at due
      cases due

/-- So it is at all times. -/
theorem owed_reachable {store : CheatStore} (hr : Reachable (.start store) d) :
    Owed d ∧ ∀ i t, d.task? i = some t → Prompt t.rest := by
  induction hr with
  | start => exact ⟨.inl nofun, nofun⟩
  | step _ hs ih => exact ⟨owed_step ih.2 hs ih.1, prompt_step hs ih.2⟩

end Owed

/-! ### One edit after the other -/

/-- **One edit after the other on a store that cannot always be written out**: what the store comes
to, what is left of the edit that is going on, and the calls so far, newest first, each with the
store that it found. -/
inductive InTurn (store : CheatStore) :
    CheatStore → Option Task → List (StoreCall × CheatStore) → Prop
  | start : InTurn store store none []
  | begin {s : CheatStore} {journal : List (StoreCall × CheatStore)} (o : Edit)
      (h : InTurn store s none journal) : InTurn store s (some ⟨o, o.program⟩) journal
  | trouble {s : CheatStore} {task? : Option Task} {journal : List (StoreCall × CheatStore)}
      (fault? : Option String) (h : InTurn store s task? journal) :
      InTurn store { s with fault? } task? journal
  | call {s : CheatStore} {o : Edit} {c : StoreCall} {next : c.Reply → EditProgram o.Result}
      {journal : List (StoreCall × CheatStore)}
      (h : InTurn store s (some ⟨o, .call c next⟩) journal) :
      InTurn store (s.answer c).2 (some ⟨o, next (s.answer c).1⟩) ((c, s) :: journal)
  | finish {s : CheatStore} {o : Edit} {result : o.Result}
      {journal : List (StoreCall × CheatStore)}
      (h : InTurn store s (some ⟨o, .done result⟩) journal) : InTurn store s none journal

/-- The store at the last moment at which it was written out. -/
def lastPersist? (journal : List (StoreCall × CheatStore)) : Option CheatStore :=
  (journal.find? fun entry => entry.1 = .persist ∧ entry.2.fault? = none).map (·.2)

section InTurn

variable {store s : CheatStore} {task? : Option Task} {journal : List (StoreCall × CheatStore)}

/-- What is written is what the last write found. -/
theorem InTurn.persisted (h : InTurn store s task? journal) :
    s.persisted = ((lastPersist? journal).map CheatStore.cheats).getD store.persisted := by
  induction h with
  | start => rfl
  | begin | trouble | finish => assumption
  | @call s o c next journal h ih =>
    unfold lastPersist?
    by_cases works : c = .persist ∧ s.fault? = none
    · rw [List.find?_cons_of_pos (by simpa using works)]
      obtain ⟨rfl, works⟩ := works
      exact persisted_persist works
    · rw [List.find?_cons_of_neg (by simpa using works)]
      refine Eq.trans ?_ ih
      by_cases hc : c = .persist
      · -- a writing that fails leaves what is written as it is
        subst hc
        change s.persist.2.persisted = _
        unfold CheatStore.persist
        split
        · rfl
        · next works' => exact absurd ⟨rfl, works'⟩ works
      · exact persisted_answer hc

/-- All that is left of an edit. -/
theorem InTurn.ran {o : Edit} {p : EditProgram o.Result}
    (h : InTurn store s (some ⟨o, p⟩) journal) :
    InTurn store (p.run s).2 none (p.journal s ++ journal) := by
  induction p generalizing s journal with
  | done result => exact h.finish
  | call c next ih =>
    unfold EditProgram.journal
    rw [List.append_assoc]
    exact ih _ h.call

end InTurn

/-! ### What is written -/

variable {ι : Type} [DecidableEq ι]

/-- **The written list follows the live one.** Whenever no edit is going on, it has the same cheats
in the same order, but for switches that were operated since it was written. If writing out can
fail, it is the list of the last time that it did not. -/
theorem persisted_follows (store : CheatStore) :
    (store.fault? = none → store.persisted = store.cheats →
      ∀ d : Desk ι, Reachable (.start store) d → (∀ i, d.task? i = none) →
        d.store.persisted.map Cheat.label = d.store.cheats.map Cheat.label ∧
        (∀ entry ∈ sincePersist d.log, entry.2.isStructural = false) ∧
        ∀ (j : Nat) (x y : Cheat), d.store.persisted[j]? = some x → d.store.cheats[j]? = some y →
          x.enabled ≠ y.enabled →
            ∃ i enabled, (i, .setEnabled j enabled) ∈ sincePersist d.log) ∧
    (∀ (s : CheatStore) (task? : Option Task) (journal : List (StoreCall × CheatStore)),
      InTurn store s task? journal →
        s.persisted = ((lastPersist? journal).map CheatStore.cheats).getD store.persisted) := by
  refine ⟨fun works written d hr quiet => ?_, fun s task? journal h => h.persisted⟩
  have calm : ∀ entry ∈ sincePersist d.log, entry.2.isStructural = false := by
    obtain calm | ⟨i, o, next, due⟩ := (owed_reachable hr).1
    · exact calm
    · exact absurd ((quiet i).symm.trans due) nofun
  -- the live list is what the calls since the last writing have made of the written one
  have parts : sincePersist d.log ++ d.log.dropWhile (·.2 ≠ .persist) = d.log :=
    List.takeWhile_append_dropWhile
  have hlive : d.store = store.after (sincePersist d.log ++ d.log.dropWhile (·.2 ≠ .persist)) := by
    rw [parts]
    exact store_reachable hr
  have hwritten : d.store.persisted = (store.after (d.log.dropWhile (·.2 ≠ .persist))).cheats := by
    rw [store_reachable hr]
    exact persisted_after works written d.log
  refine ⟨?_, calm, fun j x y hx hy differ => ?_⟩
  · rw [hwritten, hlive]
    exact (labels_after calm).symm
  · by_contra untouched
    have same : (store.after (sincePersist d.log ++ d.log.dropWhile (·.2 ≠ .persist))).cheats[j]? =
        (store.after (d.log.dropWhile (·.2 ≠ .persist))).cheats[j]? :=
      getElem?_after calm fun i enabled hmem => untouched ⟨i, enabled, hmem⟩
    rw [← hlive, ← hwritten, hx, hy] at same
    exact differ (congrArg Cheat.enabled (Option.some.inj same)).symm

/-- `mixedCheats`, written out. -/
def writtenCheats : CheatStore :=
  { mixedCheats with persisted := mixedCheats.cheats }

/-- An editor switches a cheat while another one adds one, and then the new one, which is not
written; and a removal that cannot be written. -/
theorem persisted_follows_two_editors :
    (∃ d : Desk Bool, Reachable (.start writtenCheats) d ∧ (∀ i, d.task? i = none) ∧
      d.store.cheats.length = 3 ∧ d.store.persisted ≠ d.store.cheats ∧
      d.store.persisted.map Cheat.label = d.store.cheats.map Cheat.label) ∧
    ∃ s journal, InTurn writtenCheats s none journal ∧ s.cheats.length = 1 ∧
      s.persisted = mixedCheats.cheats := by
  have follows := persisted_follows (ι := Bool) writtenCheats
  constructor
  · have begun : Reachable (.start writtenCheats)
        ⟨writtenCheats, Function.update (fun _ : Bool => none) false
          (some ⟨.add "Run" "1", CheatEditor.add "Run" "1"⟩), []⟩ :=
      .step .start (.begin false (.add "Run" "1") rfl)
    -- the second editor disables a cheat while the addition is not written yet, and another one
    -- after it was
    have added := begun.called.edited (i := true) rfl (.setEnabled 0 false)
    have written := added.ran.step (.finish (i := false) rfl)
    have switched := written.edited (i := true) rfl (.setEnabled 2 false)
    refine ⟨_, switched, Bool.forall_bool.mpr ⟨rfl, rfl⟩, rfl, by decide, ?_⟩
    exact (follows.1 rfl rfl _ switched (Bool.forall_bool.mpr ⟨rfl, rfl⟩)).1
  · have begun : InTurn writtenCheats writtenCheats none [] := .start
    have removed := ((begun.trouble (some "disk full")).begin (.delete 0)).ran
    exact ⟨_, _, removed, rfl, follows.2 _ _ _ removed⟩

end EmuScheduler
