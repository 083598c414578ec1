import EmuScheduler.Proofs.EditOutcomes
import EmuScheduler.Proofs.ForeignCheats

/-!
# One edit after another

A session of edits is a list of `Attempt`s. Between two of them anything may happen to what the
store shows and to whether it can be written out, but nothing happens to its cheats. The store calls
that a session comes to (`CheatStore.calls`) say where every cheat goes (`placeAfter?`), and what
the edits reported (`CheatStore.reports`) says how many came and went.

`Derived` is what a session makes of a list. The cheats that are still there have kept their kinds
and their order, and all but the Action Replay ones have kept their texts; whatever is new is an
Action Replay cheat. Such changes can be made one after the other (`Derived.trans`). That an edit is
one of them comes from its being careful: it writes only where it has just seen an Action Replay
cheat, and here nobody comes between the look and the write (`derived_run`).

`edits_attempted` says this of every session, counts the cheats, and says when an edit is refused.
-/

namespace EmuScheduler

/-! ### Where cheats go -/

/-- Where some calls, oldest first, move the cheat at a position. -/
def placeAfter? : List StoreCall → Nat → Option Nat
  | [], j => some j
  | c :: calls, j => (c.place? j).bind (placeAfter? calls)

/-- A cheat that the earlier calls removed has no place for the later ones to move it from. -/
theorem placeAfter?_append (calls later : List StoreCall) (j : Nat) :
    placeAfter? (calls ++ later) j = (placeAfter? calls j).bind (placeAfter? later) := by
  -- the oldest call moves the cheat first, so the position is different for the calls behind it
  induction calls generalizing j with
  | nil => rfl
  | cons c calls ih =>
    calc placeAfter? (c :: calls ++ later) j
        = (c.place? j).bind (placeAfter? (calls ++ later)) := rfl
      _ = (c.place? j).bind fun k => (placeAfter? calls k).bind (placeAfter? later) := by
          rw [funext ih]
      _ = ((c.place? j).bind (placeAfter? calls)).bind (placeAfter? later) :=
          (Option.bind_assoc ..).symm

/-- No call lets one cheat overtake another. -/
theorem StoreCall.place?_lt {c : StoreCall} {j j' k k' : Nat} (hj : j < j')
    (hk : c.place? j = some k) (hk' : c.place? j' = some k') : k < k' := by
  cases c with
  | delete index =>
    -- the later cheat moves up only if the earlier one does, or was before the removed one
    unfold StoreCall.place? at hk hk'
    dsimp only at hk hk'
    split at hk
    · exact absurd hk nofun
    split at hk'
    · exact absurd hk' nofun
    obtain rfl := Option.some.inj hk
    obtain rfl := Option.some.inj hk'
    split <;> split <;> omega
  | _ =>
    obtain rfl := Option.some.inj hk
    obtain rfl := Option.some.inj hk'
    exact hj

/-! ### Lists that come from each other -/

/-- What edits make of a list of cheats, with the places that its cheats get. -/
structure Derived (place? : Nat → Option Nat) (xs ys : List Cheat) : Prop where
  /-- A cheat that is still there has its kind, and its text if it is not to be edited. -/
  kept : ∀ j k x, xs[j]? = some x → place? j = some k →
    ∃ y, ys[k]? = some y ∧ y.kind = x.kind ∧ (x.kind ≠ .actionReplay → y.text = x.text)
  /-- The cheats that are still there have their order. -/
  ordered : ∀ j j' k k', j < j' → place? j = some k → place? j' = some k' → k < k'
  /-- Every other cheat is an Action Replay one. -/
  origin : ∀ k y, ys[k]? = some y →
    y.kind = .actionReplay ∨ ∃ j x, xs[j]? = some x ∧ place? j = some k
  /-- The cheats of the other kinds are those that were there, or some of them. -/
  others : (foreign ys).Sublist (foreign xs)

section Derived

variable {xs ys zs : List Cheat} {place? place?' : Nat → Option Nat}

/-- A list that nothing is done to. -/
theorem Derived.refl (xs : List Cheat) : Derived some xs xs where
  kept _ _ x hx hk := ⟨x, Option.some.inj hk ▸ hx, rfl, fun _ => rfl⟩
  ordered _ _ _ _ hj hk hk' := Option.some.inj hk ▸ Option.some.inj hk' ▸ hj
  origin k y hy := .inr ⟨k, y, hy, rfl⟩
  others := .refl _

/-- Changes made one after the other. -/
theorem Derived.trans (h : Derived place? xs ys) (h' : Derived place?' ys zs) :
    Derived (fun j => (place? j).bind place?') xs zs where
  -- a cheat that is there in the end was there in between
  kept j l x hx hl := by
    obtain ⟨k, hk, hl⟩ := Option.bind_eq_some_iff.mp hl
    obtain ⟨y, hy, kind, text⟩ := h.kept j k x hx hk
    obtain ⟨z, hz, kind', text'⟩ := h'.kept k l y hy hl
    refine ⟨z, hz, kind'.trans kind, fun other => ?_⟩
    rw [text' (kind ▸ other), text other]
  ordered j j' l l' hj hl hl' := by
    obtain ⟨k, hk, hl⟩ := Option.bind_eq_some_iff.mp hl
    obtain ⟨k', hk', hl'⟩ := Option.bind_eq_some_iff.mp hl'
    exact h'.ordered k k' l l' (h.ordered j j' k k' hj hk hk') hl hl'
  origin l z hz := by
    obtain ours | ⟨k, y, hy, hl⟩ := h'.origin l z hz
    · exact .inl ours
    obtain ours | ⟨j, x, hx, hk⟩ := h.origin k y hy
    · -- a cheat that came in between is still of the kind that it came with
      obtain ⟨z', hz', kind, -⟩ := h'.kept k l y hy hl
      obtain rfl : z' = z := Option.some.inj (hz'.symm.trans hz)
      exact .inl (kind.trans ours)
    · exact .inr ⟨j, x, hx, Option.bind_eq_some_iff.mpr ⟨k, hk, hl⟩⟩
  others := h'.others.trans h.others

end Derived

/-! ### An edit that nobody disturbs -/

/-- What is in the list after a call was there before it, or is an Action Replay cheat. -/
theorem origin_answer {s : CheatStore} {c : StoreCall} {k : Nat} {y : Cheat}
    (hy : (s.answer c).2.cheats[k]? = some y) :
    y.kind = .actionReplay ∨ ∃ j x, s.cheats[j]? = some x ∧ c.place? j = some k := by
  have modified {index : Nat} {f : Cheat → Cheat} (hy : (s.modify index f).cheats[k]? = some y) :
      ∃ x, s.cheats[k]? = some x := by
    change (s.cheats.modify index f)[k]? = _ at hy
    rw [List.getElem?_modify] at hy
    obtain ⟨x, hx, -⟩ := Option.map_eq_some_iff.mp hy
    exact ⟨x, hx⟩
  cases c with
  | add description code =>
    change (s.cheats ++ [_])[k]? = _ at hy
    rw [List.getElem?_append] at hy
    split at hy
    · exact .inr ⟨k, y, hy, rfl⟩
    · -- behind the old ones stands the added cheat, which is an Action Replay one
      obtain rfl := List.mem_singleton.mp (List.mem_of_getElem? hy)
      exact .inl rfl
  | delete index =>
    -- what is there now stood there before, or one position further on
    change (s.cheats.eraseIdx index)[k]? = _ at hy
    rw [List.getElem?_eraseIdx] at hy
    split at hy
    · next before =>
      refine .inr ⟨k, y, hy, ?_⟩
      change (if k = index then none else some (if index < k then k - 1 else k)) = some k
      rw [if_neg (by omega), if_neg (by omega)]
    · next behind =>
      refine .inr ⟨k + 1, y, hy, ?_⟩
      change (if k + 1 = index then none else some (if index < k + 1 then k + 1 - 1 else k + 1)) = _
      rw [if_neg (by omega), if_pos (by omega), Nat.add_sub_cancel]
  | update | setEnabled =>
    obtain ⟨x, hx⟩ := modified hy
    exact .inr ⟨k, x, hx, rfl⟩
  | persist =>
    change s.persist.2.cheats[k]? = _ at hy
    rw [cheats_persist] at hy
    exact .inr ⟨k, y, hy, rfl⟩
  | count | get => exact .inr ⟨k, y, hy, rfl⟩

/-- **A call derives the list from the one that it finds**, if it writes only where an Action Replay
cheat is. -/
theorem derived_answer {s : CheatStore} {c : StoreCall}
    (ours : ∀ index description code, c = .update index description code →
      ∃ x, s.cheats[index]? = some x ∧ x.kind = .actionReplay) :
    Derived c.place? s.cheats (s.answer c).2.cheats where
  kept j k x hx hk := by
    obtain ⟨y, hy, kind, text⟩ := cheat_answer hx hk
    refine ⟨y, hy, kind, fun other => text.resolve_right ?_⟩
    -- had the call written here, it would have been an Action Replay cheat that it found
    rintro ⟨description, code, write⟩
    obtain ⟨x', hx', kind'⟩ := ours j description code write
    obtain rfl : x' = x := Option.some.inj (hx'.symm.trans hx)
    exact other kind'
  ordered _ _ _ _ := StoreCall.place?_lt
  origin _ _ := origin_answer
  others := foreign_answer ours

/-- The calls of a program that has the store for itself, oldest first. -/
def EditProgram.calls {α : Type} (p : EditProgram α) (s : CheatStore) : List StoreCall :=
  ((p.journal s).map (·.1)).reverse

/-- A program makes its first call, and then those of what it goes on with. -/
theorem EditProgram.calls_call {α : Type} (c : StoreCall) (next : c.Reply → EditProgram α)
    (s : CheatStore) : (EditProgram.call c next).calls s =
      c :: (next (s.answer c).1).calls (s.answer c).2 := by
  -- the journal has the newest call first, so the first one is at its end
  unfold EditProgram.calls
  rw [EditProgram.journal, List.map_append, List.reverse_append]
  rfl

/-- A careful program that nobody disturbs writes where an Action Replay cheat is. -/
theorem Careful.derived {α : Type} {known : Option Nat} {p : EditProgram α} {s : CheatStore}
    (hp : Careful known p)
    (seen : ∀ index, known = some index → ∃ x, s.cheats[index]? = some x ∧ x.kind = .actionReplay) :
    Derived (placeAfter? (p.calls s)) s.cheats (p.run s).2.cheats := by
  -- by induction on the calls to come; what is known is of the store that the next one finds
  induction p generalizing known s with
  | done a => exact .refl _
  | call c next ih =>
    obtain ⟨careful, rest⟩ := hp
    rw [EditProgram.calls_call]
    have first : Derived c.place? s.cheats (s.answer c).2.cheats :=
      derived_answer fun index description code write =>
        seen index (careful index description code write)
    refine first.trans (ih _ (rest _) fun index hk => ?_)
    -- only a look makes a position known, and it leaves the store as it is
    cases c with
    | get j =>
      change (if (s.get? j).any (·.kind = .actionReplay) then some j else none) = _ at hk
      split at hk
      · next ours =>
        obtain rfl := Option.some.inj hk
        obtain ⟨x, hx, kind⟩ := (Option.any_eq_true _ _).mp ours
        exact ⟨x, getElem?_of_get? hx, of_decide_eq_true kind⟩
      · exact absurd hk nofun
    | count => exact seen index hk
    | _ => exact absurd hk nofun

/-- **An edit derives the list from the one that it finds.** -/
theorem derived_run (o : Edit) (s : CheatStore) :
    Derived (placeAfter? (o.program.calls s)) s.cheats (o.program.run s).2.cheats :=
  (careful_program o).derived nofun

/-! ### What edits report -/

/-- An edit with the error that it reported. -/
abbrev EditReport := Edit × Option CheatError

/-- Whether a cheat was put in. -/
def EditReport.adds : EditReport → Bool
  | (.add _ _, _) => true
  | _ => false

/-- Whether a cheat was taken away. -/
def EditReport.removes : EditReport → Bool
  | (.delete _, some (.invalidIndex _ _)) => false
  | (.delete _, _) => true
  | _ => false

section Reports

variable {o : Edit} {s : CheatStore}

/-- An edit reports a refusal just if it is refused. -/
theorem error?_eq_refusal {error : CheatError} (h : ∀ text, error ≠ .notPersisted text) :
    o.error? (o.program.run s).1 = some error ↔ o.refusal? s = some error := by
  cases hr : o.refusal? s with
  | some reason =>
    obtain ⟨r, ran, reports⟩ := run_of_refused hr
    rw [ran, reports]
  | none =>
    refine ⟨fun failed => ?_, nofun⟩
    -- an admitted edit can only fail to write the list out
    obtain ⟨-, text, -, unwritten⟩ := notPersisted_of_admitted hr failed
    exact absurd unwritten (h text)

/-- A position is refused if nothing is shown there, with the length of the list. -/
theorem invalidIndex_iff {index count : Nat} :
    o.error? (o.program.run s).1 = some (.invalidIndex index count) ↔
      o.index? = some index ∧ count = s.count ∧ (index ∈ s.hidden ∨ s.count ≤ index) := by
  have refusal (text : String) : CheatError.invalidIndex index count ≠ .notPersisted text := nofun
  rw [error?_eq_refusal refusal, refusal?_eq_some_iff]
  constructor
  · rintro ⟨_, hi, ⟨hx, ⟨⟩⟩ | ⟨x, -, -, -, hn⟩⟩
    · exact ⟨hi, rfl, get?_eq_none_iff.mp hx⟩
    · exact absurd hn nofun
  · rintro ⟨hi, rfl, hx⟩
    exact ⟨index, hi, .inl ⟨get?_eq_none_iff.mpr hx, rfl⟩⟩

/-- Another text is refused to a cheat that is shown and not to be edited. -/
theorem notEditable_iff {index : Nat} {kind : CheatKind} :
    o.error? (o.program.run s).1 = some (.notEditable index kind) ↔
      kind ≠ .actionReplay ∧ (∃ description code, o = .update index description code) ∧
        ∃ x, s.get? index = some x ∧ x.kind = kind := by
  have refusal (text : String) : CheatError.notEditable index kind ≠ .notPersisted text := nofun
  rw [error?_eq_refusal refusal, refusal?_eq_some_iff]
  constructor
  · rintro ⟨_, hi, ⟨-, hn⟩ | ⟨x, hx, rewords, foreign, ⟨⟩⟩⟩
    · exact absurd hn nofun
    · refine ⟨foreign, ?_, x, hx, rfl⟩
      -- of the edits only an update gives a cheat another text
      cases o with
      | update i description code =>
        obtain rfl := Option.some.inj hi
        exact ⟨description, code, rfl⟩
      | _ => exact absurd rewords Bool.false_ne_true
  · rintro ⟨foreign, ⟨description, code, rfl⟩, x, hx, rfl⟩
    exact ⟨index, rfl, .inr ⟨x, hx, rfl, foreign, rfl⟩⟩

/-- An edit that reports a refusal does nothing. -/
theorem run_of_error? {error : CheatError} (h : ∀ text, error ≠ .notPersisted text)
    (failed : o.error? (o.program.run s).1 = some error) : (o.program.run s).2 = s := by
  obtain ⟨r, ran, -⟩ := run_of_refused ((error?_eq_refusal h).mp failed)
  rw [ran]

/-- What an admitted edit leaves, whether or not it could be written out. -/
theorem cheats_run_of_admitted (h : o.refusal? s = none) :
    (o.program.run s).2.cheats = (o.changed s).cheats := by
  obtain ⟨r, ran, -⟩ := run_of_admitted h
  rw [ran]
  split
  · exact cheats_persist _
  · rfl

/-- **How many cheats an edit leaves.** -/
theorem length_run (o : Edit) (s : CheatStore) :
    let report : EditReport := (o, o.error? (o.program.run s).1)
    (o.program.run s).2.cheats.length + report.removes.toNat =
      s.cheats.length + report.adds.toNat := by
  intro report
  cases hr : o.refusal? s with
  | some reason =>
    obtain ⟨r, ran, reports⟩ := run_of_refused hr
    have refused : report = (o, some reason) := by
      change (o, o.error? (o.program.run s).1) = _
      rw [ran, reports]
    rw [ran, refused]
    -- neither is an addition refused, nor a removal for another reason than its position
    cases o with
    | delete index =>
      obtain ⟨_, -, ⟨-, rfl⟩ | ⟨x, -, rewords, -⟩⟩ := refusal?_eq_some_iff.mp hr
      · rfl
      · exact absurd rewords Bool.false_ne_true
    | add => exact absurd hr nofun
    | _ => rfl
  | none =>
    rw [cheats_run_of_admitted hr]
    cases o with
    | add description code => exact List.length_append
    | delete index =>
      have removed : report.removes = true := by
        change EditReport.removes (.delete index, (Edit.delete index).error? _) = true
        rw [(run_of_persists hr rfl).1]
        cases s.fault? <;> rfl
      -- an admitted removal has seen a cheat at its position, so one less is left
      obtain ⟨x, hx, -⟩ := get?_of_admitted hr rfl
      obtain ⟨inside, -⟩ := List.getElem?_eq_some_iff.mp (getElem?_of_get? hx)
      rw [removed]
      change (s.cheats.eraseIdx index).length + 1 = s.cheats.length
      rw [List.length_eraseIdx_of_lt inside]
      omega
    | update | setEnabled => exact List.length_modify ..
    | length | get | list | save => rfl

end Reports

/-! ### Sessions -/

/-- An edit, with the trouble that the store makes at that time. -/
structure Attempt where
  edit : Edit
  hidden : List Nat
  fault? : Option String

namespace Attempt

/-- The store that an attempt finds, where the last one has left `s`. -/
def found (a : Attempt) (s : CheatStore) : CheatStore :=
  { s with hidden := a.hidden, fault? := a.fault? }

/-- The store after an attempt. -/
def after (a : Attempt) (s : CheatStore) : CheatStore :=
  (a.edit.program.run (a.found s)).2

/-- What an attempt reports. -/
def report (a : Attempt) (s : CheatStore) : EditReport :=
  (a.edit, a.edit.error? (a.edit.program.run (a.found s)).1)

end Attempt

namespace CheatStore

/-- The store after a session. -/
def attempted (s : CheatStore) : List Attempt → CheatStore
  | [] => s
  | a :: session => (a.after s).attempted session

/-- The calls that a session comes to, oldest first. -/
def calls (s : CheatStore) : List Attempt → List StoreCall
  | [] => []
  | a :: session => a.edit.program.calls (a.found s) ++ (a.after s).calls session

/-- What the edits of a session report. -/
def reports (s : CheatStore) : List Attempt → List EditReport
  | [] => []
  | a :: session => a.report s :: (a.after s).reports session

end CheatStore

/-- A session makes of the list what its calls say. -/
theorem derived_attempted (s : CheatStore) (session : List Attempt) :
    Derived (placeAfter? (s.calls session)) s.cheats (s.attempted session).cheats := by
  induction session generalizing s with
  | nil => exact .refl _
  | cons a session ih =>
    -- the trouble at the time of the edit is not part of the list
    have first : Derived _ s.cheats (a.after s).cheats := derived_run a.edit (a.found s)
    have places : placeAfter? (s.calls (a :: session)) = fun j =>
        (placeAfter? (a.edit.program.calls (a.found s)) j).bind
          (placeAfter? ((a.after s).calls session)) :=
      funext fun j => placeAfter?_append _ _ j
    rw [places]
    exact first.trans (ih (a.after s))

/-- As many cheats are there in the end as were there, with those added and without those removed.
-/
theorem length_attempted (s : CheatStore) (session : List Attempt) :
    (s.attempted session).cheats.length + (s.reports session).countP EditReport.removes =
      s.cheats.length + (s.reports session).countP EditReport.adds := by
  induction session generalizing s with
  | nil => rfl
  | cons a session ih =>
    have first : (a.after s).cheats.length + (a.report s).removes.toNat =
        s.cheats.length + (a.report s).adds.toNat := length_run a.edit (a.found s)
    have rest := ih (a.after s)
    change ((a.after s).attempted session).cheats.length +
        (a.report s :: (a.after s).reports session).countP EditReport.removes =
      s.cheats.length + (a.report s :: (a.after s).reports session).countP EditReport.adds
    have one (b : Bool) : (if b = true then 1 else 0) = b.toNat := by cases b <;> rfl
    rw [List.countP_cons, List.countP_cons, one, one]
    omega

/-- **What a session of edits can do to the list.** Its cheats come from those before it
(`Derived`), they are as many as were there with those added and without those removed, and an edit
that is refused, for its position or for the kind of the cheat, leaves everything as it was. -/
theorem edits_attempted (s : CheatStore) (session : List Attempt) :
    Derived (placeAfter? (s.calls session)) s.cheats (s.attempted session).cheats ∧
      (s.attempted session).cheats.length + (s.reports session).countP EditReport.removes =
        s.cheats.length + (s.reports session).countP EditReport.adds ∧
      ∀ (t : CheatStore) (o : Edit),
        (∀ index count, o.error? (o.program.run t).1 = some (.invalidIndex index count) ↔
          o.index? = some index ∧ count = t.count ∧ (index ∈ t.hidden ∨ t.count ≤ index)) ∧
        (∀ index kind, o.error? (o.program.run t).1 = some (.notEditable index kind) ↔
          kind ≠ .actionReplay ∧ (∃ description code, o = .update index description code) ∧
            ∃ x, t.get? index = some x ∧ x.kind = kind) ∧
        ∀ error, o.error? (o.program.run t).1 = some error →
          (∀ text, error ≠ .notPersisted text) → (o.program.run t).2 = t := by
  refine ⟨derived_attempted s session, length_attempted s session, fun t o => ⟨?_, ?_, ?_⟩⟩
  · exact fun index count => invalidIndex_iff
  · exact fun index kind => notEditable_iff
  · exact fun error failed refusal => run_of_error? refusal failed

/-- An update of a cheat that is not to be edited, a removal that cannot be written out, and an
addition: the cheat that could not be edited is then the first one, with its text. -/
theorem edits_attempted_mixed :
    let session : List Attempt := [⟨.update 1 "" "", [], none⟩, ⟨.delete 0, [], some "disk full"⟩,
      ⟨.add "Infinite health" "02000000 00000063", [0], none⟩]
    placeAfter? (mixedCheats.calls session) 1 = some 0 ∧
      (∃ y, (mixedCheats.attempted session).cheats[0]? = some y ∧ y.kind = .internal ∧
        y.text = ("Walk through walls", "0x0211A8C4 1")) ∧
      (mixedCheats.attempted session).cheats.length + 1 = mixedCheats.cheats.length + 1 := by
  intro session
  have ⟨derived, lengths, _⟩ := edits_attempted mixedCheats session
  -- the cheat that was the second one has moved up, and it is not to be edited
  obtain ⟨y, hy, kind, text⟩ := derived.kept 1 0 _ rfl rfl
  exact ⟨rfl, ⟨y, hy, kind, text nofun⟩, lengths⟩

end EmuScheduler
