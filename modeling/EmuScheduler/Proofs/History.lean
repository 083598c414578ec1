import EmuScheduler.Proofs.Effects

/-!
# Reading a history

A history lists what happened, newest first, each action with what controllers saw just before it.
A law about runs is a law about every entry and what came before it: `Throughout ok h` says that
each entry of `h` is as `ok` says, which is given the entry and the entries older than it. So it
speaks of every moment of a run at which something happens, those inside a callback included.

What is read off a history:

* `calls`, the engine's calls, newest first;
* `attempts`, its loads, newest first, each with the answer once it was given;
* `accepted`, `closings` and `lastAccepted?`, which count them.

A visit that tells the engine its mute state adds `toldEntries`; the lemmas on them say that these
are two more calls and nothing else.
-/

namespace EmuScheduler

/-- Every entry of a history is as `ok` says, which is told the entry and the older ones. -/
def Throughout (ok : Entry → List Entry → Prop) (h : List Entry) : Prop :=
  ∀ x older, x :: older <:+ h → ok x older

section Throughout

variable {ok : Entry → List Entry → Prop} {h : List Entry}

@[simp] theorem throughout_nil : Throughout ok [] :=
  fun _ _ hs => absurd (List.suffix_nil.mp hs) (List.cons_ne_nil _ _)

/-- A history is in order if its newest entry is, after the others, and they are. -/
@[simp] theorem throughout_cons {x : Entry} :
    Throughout ok (x :: h) ↔ ok x h ∧ Throughout ok h := by
  constructor
  · intro ht
    exact ⟨ht x h (List.suffix_refl _), fun y older hs =>
      ht y older (hs.trans (List.suffix_cons x h))⟩
  · rintro ⟨hx, ht⟩ y older hs
    -- an entry of the longer history is its newest one or one of the shorter
    obtain heq | hs := List.suffix_cons_iff.mp hs
    · cases heq
      exact hx
    · exact ht y older hs

/-- Entries that are lawful whatever came before them. -/
theorem throughout_append {new : List Entry} (ht : Throughout ok h)
    (hn : ∀ x ∈ new, ∀ older, ok x older) : Throughout ok (new ++ h) := by
  induction new with
  | nil => exact ht
  | cons x new ih =>
    have rest := ih fun y hy => hn y (List.mem_cons_of_mem x hy)
    exact throughout_cons.mpr ⟨hn x List.mem_cons_self _, rest⟩

/-- Two entries more, if the engine is told its mute state. -/
theorem throughout_told {v : View} {t : Option Bool} (ht : Throughout ok h)
    (hAudio : ∀ muted, t = some muted → ok ⟨.call (.order (.muteAudio muted)), v⟩ h)
    (hMic : ∀ muted, t = some muted →
      ok ⟨.call (.order (.muteMic muted)), v⟩ (⟨.call (.order (.muteAudio muted)), v⟩ :: h)) :
    Throughout ok (toldEntries v t ++ h) := by
  cases t with
  | none => exact ht
  | some muted =>
    exact throughout_cons.mpr ⟨hMic muted rfl, throughout_cons.mpr ⟨hAudio muted rfl, ht⟩⟩

end Throughout

/-! ### Calls -/

/-- The engine call that an action is, if it is one. -/
def Action.call? : Action → Option EngineCall
  | .call c => some c
  | _ => none

/-- The calls to the engine, newest first. -/
def calls (h : List Entry) : List EngineCall :=
  h.filterMap (·.action.call?)

/-- The calls of a history that was added to. -/
theorem calls_append (new h : List Entry) : calls (new ++ h) = calls new ++ calls h :=
  List.filterMap_append

/-- The answer to the newest load. -/
def answer (accepted : Bool) : List (Path × Option Bool) → List (Path × Option Bool)
  | [] => []
  | (rom, _) :: rest => (rom, some accepted) :: rest

/-- The loads that the engine was asked for, newest first, each with its answer once it is
given. -/
def attempts : List Entry → List (Path × Option Bool)
  | [] => []
  | x :: older =>
    match x.action with
    | .call (.load rom) => (rom, none) :: attempts older
    | .accept _ => answer true (attempts older)
    | .reject _ => answer false (attempts older)
    | _ => attempts older

/-- How many loads the engine accepted. -/
def accepted (h : List Entry) : Nat :=
  (attempts h).countP (·.2 = some true)

/-- The ROM of the last load that the engine accepted. -/
def lastAccepted? (h : List Entry) : Option Path :=
  ((attempts h).find? (·.2 = some true)).map Prod.fst

/-- How often the engine was told to close its ROM. -/
def closings (h : List Entry) : Nat :=
  (calls h).count (.order .closeRom)

section Told

variable (v : View) (t : Option Bool) (h : List Entry)

/-- What the engine is told of the sound is added to the calls, and none is forgotten. -/
theorem mem_calls_told {c : EngineCall} (hc : c ∈ calls h) : c ∈ calls (toldEntries v t ++ h) := by
  rw [calls_append]
  exact List.mem_append_right _ hc

@[simp] theorem attempts_told : attempts (toldEntries v t ++ h) = attempts h := by
  cases t <;> rfl

@[simp] theorem closings_told : closings (toldEntries v t ++ h) = closings h := by
  cases t with
  | none => rfl
  | some muted => simp [closings, calls, toldEntries, Action.call?]

end Told

/-- Whoever was asked for a load was called. -/
theorem calls_ne_nil_of_attempts {h : List Entry} (ha : attempts h ≠ []) : calls h ≠ [] := by
  induction h with
  | nil => exact absurd rfl ha
  | cons x h ih =>
    obtain ⟨action, v⟩ := x
    -- an answer belongs to a load that was there before
    have answered {b : Bool} (hb : answer b (attempts h) ≠ []) : calls h ≠ [] :=
      ih fun hn => hb (by rw [hn]; rfl)
    cases action with
    | call c => exact List.cons_ne_nil _ _
    | accept rom => exact answered ha
    | reject rom => exact answered ha
    | _ => exact ih ha

end EmuScheduler
