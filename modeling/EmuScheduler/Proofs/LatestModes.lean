import EmuScheduler.Proofs.History
import EmuScheduler.Proofs.Run

/-!
# How the modes that were requested reach the engine

Each kind of mode has a mailbox, which the configuration stage of a tick empties. So a stage gives
the engine, for each kind, the last value that was requested since the stage before it, once, and
nothing for a kind that nobody asked to change. The modes a scheduler is started with count as
requests made before the first stage. `Configured` states this of one entry of a history, and
`latest_modes` of every entry of every run in which no tick has failed.

What was requested, what is due at a stage and what the engine was given are all read off the
history:

* `stage? h` is the history before the last stage, the point from which that stage is judged;
* `pending? m k h` is what a stage would find now, and `due m h` all of it in the order of kinds;
* `setters h` are the setters called since the last stage;
* `wanted m k h` is the last mode requested, `given? k h` the last one the engine was given.

The proof annotates the loop, as that of the protocol does. Outside the stage `Posted` holds: the
mailboxes hold what is pending, and the last stage is complete. In the middle of a stage, with the
kinds `ks` still to be looked at, `Applying m ks` says the same of the kinds already done and of
those to come separately. Most of what a loop does has nothing to do with modes (`Action.isAside`)
and `Posted.aside` disposes of it.
-/

namespace EmuScheduler

open Scheduler

variable {σ : Type} {m : Modes} {k : ModeKind} {h : List Entry}

/-! ### Reading requests and setters -/

/-- The history before the last configuration stage. -/
def stage? : List Entry → Option (List Entry)
  | [] => none
  | x :: older =>
    match x.action with
    | .configure => some older
    | _ => stage? older

/-- Whether the tick that is going on has come to its configuration stage. -/
def inStage : List Entry → Bool
  | [] => false
  | x :: older =>
    match x.action with
    | .configure => true
    | .tick => false
    | _ => inStage older

/-- The last mode of a kind that was requested. -/
def wanted (m : Modes) (k : ModeKind) : List Entry → ModeChange
  | [] => m.get k
  | x :: older =>
    match x.action with
    | .control (.change mode) => if mode.kind = k then mode else wanted m k older
    | _ => wanted m k older

/-- The last mode of a kind that was requested since the last configuration stage. -/
def pending? (m : Modes) (k : ModeKind) : List Entry → Option ModeChange
  | [] => some (m.get k)
  | x :: older =>
    match x.action with
    | .configure => none
    | .control (.change mode) => if mode.kind = k then some mode else pending? m k older
    | _ => pending? m k older

/-- What a configuration stage has to do. -/
def due (m : Modes) (h : List Entry) : List ModeChange :=
  ModeKind.all.filterMap (pending? m · h)

/-- What the last configuration stage had to do. -/
def lastDue (m : Modes) (h : List Entry) : List ModeChange :=
  match stage? h with
  | some before => due m before
  | none => []

/-- The setters called since the last configuration stage, oldest first. -/
def setters : List Entry → List ModeChange
  | [] => []
  | x :: older =>
    match x.action with
    | .configure => []
    | .call (.order (.setMode mode)) => setters older ++ [mode]
    | _ => setters older

/-- The mode of a kind that the engine was last given. -/
def given? (k : ModeKind) : List Entry → Option ModeChange
  | [] => none
  | x :: older =>
    match x.action with
    | .call (.order (.setMode mode)) => if mode.kind = k then some mode else given? k older
    | _ => given? k older

/-- **The law of modes**, for an entry and those older than it. -/
structure Configured (m : Modes) (x : Entry) (older : List Entry) : Prop where
  /-- A setter is called in a stage, and is the next that is due there. -/
  setter : ∀ mode, x.action = .call (.order (.setMode mode)) →
    inStage older = true ∧ setters older ++ [mode] <+: lastDue m older
  /-- Whatever else happens, all that was due at the last stage was done, and no more. -/
  complete : (∀ mode, x.action ≠ .call (.order (.setMode mode))) → setters older = lastDue m older
  /-- A tick has one stage, -/
  once : x.action = .configure → inStage older = false
  /-- which comes after its load -/
  afterLoad : ∀ rom, x.action = .call (.load rom) → inStage older = false
  /-- and before its steps; at a step the engine has of each kind the last mode requested before
  the stage. -/
  beforeStep : x.action = .call .step → inStage older = true ∧
    ∃ before, stage? older = some before ∧ ∀ k, given? k older = some (wanted m k before)

/-- What is pending is the last that was requested. -/
theorem wanted_of_pending {mode : ModeChange} (hp : pending? m k h = some mode) :
    wanted m k h = mode := by
  induction h with
  | nil => exact Option.some.inj hp
  | cons x h ih =>
    obtain ⟨action, v⟩ := x
    cases action with
    | configure => exact absurd hp (by simp [pending?])
    | control c =>
      cases c with
      | change mode' =>
        -- either this request is the last of its kind, or the kind is another
        simp only [pending?, wanted] at hp ⊢
        split at hp
        · exact (if_pos ‹_›).trans (Option.some.inj hp)
        · exact (if_neg ‹_›).trans (ih hp)
      | _ => exact ih hp
    | _ => exact ih hp

/-- If nothing is pending, the last request was made before the last stage. -/
theorem wanted_of_not_pending (hp : pending? m k h = none) :
    ∃ before, stage? h = some before ∧ wanted m k h = wanted m k before := by
  induction h with
  | nil => exact absurd hp (by simp [pending?])
  | cons x h ih =>
    obtain ⟨action, v⟩ := x
    cases action with
    | configure =>
      -- this is the last stage, and it is later than all that was wanted
      exact ⟨h, rfl, rfl⟩
    | control c =>
      cases c with
      | change mode =>
        simp only [pending?] at hp
        split at hp
        · exact absurd hp (by simp)
        · obtain ⟨before, hs, hw⟩ := ih hp
          exact ⟨before, hs, (if_neg ‹_›).trans hw⟩
      | _ => exact ih hp
    | _ => exact ih hp

/-- Within a stage there was one. -/
theorem stage_of_inStage (hi : inStage h = true) : ∃ before, stage? h = some before := by
  induction h with
  | nil => exact absurd hi (by simp [inStage])
  | cons x h ih =>
    obtain ⟨action, v⟩ := x
    cases action with
    | configure => exact ⟨h, rfl⟩
    | tick => exact absurd hi (by simp [inStage])
    | _ => exact ih hi

/-- What was due is read off the history before the last stage. -/
theorem lastDue_of_stage {before : List Entry} (hs : stage? h = some before) :
    lastDue m h = due m before := by
  unfold lastDue
  rw [hs]

/-! ### What has nothing to do with modes -/

/-- Whether an action is of no concern to the modes. -/
def Action.isAside : Action → Bool
  | .tick | .configure | .control (.change _) => false
  | .call (.order (.setMode _)) | .call (.load _) | .call .step => false
  | _ => true

/-- Two histories that agree on all that concerns the modes. -/
structure Alike (m : Modes) (h h' : List Entry) : Prop where
  stage : stage? h' = stage? h
  inStage : inStage h' = inStage h
  pending : ∀ k, pending? m k h' = pending? m k h
  setters : setters h' = setters h
  given : ∀ k, given? k h' = given? k h

/-- What has nothing to do with modes leaves alone what was due. -/
theorem Alike.lastDue {h' : List Entry} (ha : Alike m h h') : lastDue m h' = lastDue m h := by
  unfold EmuScheduler.lastDue
  rw [ha.stage]

/-- One entry that has nothing to do with modes. -/
theorem alike_cons {x : Entry} (hx : x.action.isAside = true) : Alike m h (x :: h) := by
  obtain ⟨action, v⟩ := x
  -- apart from ticks, stages, requests and setters no reading looks at an entry
  cases action with
  | tick | configure => exact absurd hx Bool.false_ne_true
  | control c =>
    cases c with
    | change => exact absurd hx Bool.false_ne_true
    | _ => exact ⟨rfl, rfl, fun _ => rfl, rfl, fun _ => rfl⟩
  | call c =>
    cases c with
    | order o =>
      cases o with
      | setMode => exact absurd hx Bool.false_ne_true
      | _ => exact ⟨rfl, rfl, fun _ => rfl, rfl, fun _ => rfl⟩
    | _ => exact ⟨rfl, rfl, fun _ => rfl, rfl, fun _ => rfl⟩
  | _ => exact ⟨rfl, rfl, fun _ => rfl, rfl, fun _ => rfl⟩

/-- One entry after another. -/
theorem Alike.trans {h₁ h₂ h₃ : List Entry} (ha : Alike m h₁ h₂) (hb : Alike m h₂ h₃) :
    Alike m h₁ h₃ where
  stage := hb.stage.trans ha.stage
  inStage := hb.inStage.trans ha.inStage
  pending k := (hb.pending k).trans (ha.pending k)
  setters := hb.setters.trans ha.setters
  given k := (hb.given k).trans (ha.given k)

theorem alike_append {new : List Entry} (hn : ∀ x ∈ new, x.action.isAside = true) :
    Alike m h (new ++ h) := by
  induction new with
  | nil => exact ⟨rfl, rfl, fun _ => rfl, rfl, fun _ => rfl⟩
  | cons x new ih =>
    have rest := ih fun y hy => hn y (List.mem_cons_of_mem x hy)
    exact rest.trans (alike_cons (hn x List.mem_cons_self))

/-- An entry that is aside is lawful once the stage is complete. -/
theorem Configured.of_aside {x : Entry} (hx : x.action.isAside = true)
    (hc : setters h = lastDue m h) : Configured m x h where
  setter _ ha := absurd hx (by rw [ha]; exact Bool.false_ne_true)
  complete _ := hc
  once ha := absurd hx (by rw [ha]; exact Bool.false_ne_true)
  afterLoad _ ha := absurd hx (by rw [ha]; exact Bool.false_ne_true)
  beforeStep ha := absurd hx (by rw [ha]; exact Bool.false_ne_true)

/-- Entries that have nothing to do with modes are lawful if nothing is left over. -/
theorem throughout_aside {new : List Entry} (ht : Throughout (Configured m) h)
    (hc : setters h = lastDue m h) (hn : ∀ x ∈ new, x.action.isAside = true) :
    Throughout (Configured m) (new ++ h) := by
  induction new with
  | nil => exact ht
  | cons x new ih =>
    have rest (y : Entry) (hy : y ∈ new) := hn y (List.mem_cons_of_mem x hy)
    have alike : Alike m h (new ++ h) := alike_append rest
    have complete : setters (new ++ h) = lastDue m (new ++ h) := by
      rw [alike.setters, alike.lastDue, hc]
    exact throughout_cons.mpr ⟨.of_aside (hn x List.mem_cons_self) complete, ih rest⟩

/-! ### The invariant -/

/-- What holds outside a configuration stage. -/
structure Posted (m : Modes) (s : Scheduler σ) : Prop where
  past : Throughout (Configured m) s.history
  /-- The mailboxes hold what is pending. -/
  waiting : ∀ k, s.shared.requests.waiting? k = pending? m k s.history
  complete : setters s.history = lastDue m s.history
  /-- The engine has of each kind the last mode requested before the last stage. -/
  inForce : ∀ before, stage? s.history = some before →
    ∀ k, given? k s.history = some (wanted m k before)

/-- What holds in a stage that began with the history `before` and has these kinds before it. -/
structure Applying (m : Modes) (before : List Entry) (ks : List ModeKind)
    (s : Scheduler σ) : Prop where
  past : Throughout (Configured m) s.history
  stage : stage? s.history = some before
  inStage : inStage s.history = true
  nodup : ks.Nodup
  /-- Nothing was requested since the stage began, -/
  emptied : ∀ k, pending? m k s.history = none
  /-- so what waits is what was pending then, of the kinds to come. -/
  waiting : ∀ k, s.shared.requests.waiting? k = if k ∈ ks then pending? m k before else none
  setters : setters s.history ++ ks.filterMap (pending? m · before) = due m before
  given : ∀ k, given? k s.history = some (wanted m k before) ∨
    k ∈ ks ∧ pending? m k before ≠ none

/-- Whether the configuration stage of the tick is over, where the loop is in a tick. -/
def Point.staged? : Point → Option Bool
  | .preparing | .purging | .directing | .settingUp | .inSetUp _ | .checking | .engaging
  | .loading | .starting _ | .closing _ | .asking _ | .inLoad _ _ | .configuring => some false
  | .choosing | .running | .unmuting | .locking | .stepping _ | .inStep _ _ => some true
  | _ => none

/-- What holds with the loop at a point that is not in a stage. -/
def Kept (m : Modes) (s : Scheduler σ) (p : Point) : Prop :=
  Posted m s ∧ ∀ b, p.staged? = some b → inStage s.history = b

/-- What holds with the loop at a point, unless a tick has failed. -/
def Current (m : Modes) (s : Scheduler σ) : Point → Prop
  | .applying ks => ∃ before, Applying m before ks s
  | p => p.error? = none → Kept m s p

section Annotation

variable {e : Engine σ} {s s' : Scheduler σ} {p p' : Point}

/-- What is aside and takes nothing out of the mailboxes keeps all. -/
theorem Posted.aside (h : Posted m s) (new : List Entry) (hh : s'.history = new ++ s.history)
    (hn : ∀ x ∈ new, x.action.isAside = true)
    (hr : s'.shared.requests.waiting? = s.shared.requests.waiting?) : Posted m s' := by
  have alike : Alike m s.history s'.history := by
    rw [hh]
    exact alike_append hn
  -- each reading of the longer history is that of the shorter one
  refine ⟨?_, fun k => ?_, ?_, fun before hb k => ?_⟩
  · rw [hh]
    exact throughout_aside h.past h.complete hn
  · rw [hr, h.waiting k, alike.pending k]
  · rw [alike.setters, alike.lastDue, h.complete]
  · rw [alike.stage] at hb
    rw [alike.given k, h.inForce before hb k]

/-- A step that has nothing to do with modes keeps what was said of them. -/
theorem Kept.aside (h : Kept m s p) (new : List Entry) (hh : s'.history = new ++ s.history)
    (hn : ∀ x ∈ new, x.action.isAside = true)
    (hr : s'.shared.requests.waiting? = s.shared.requests.waiting?)
    (hp : p'.staged? = p.staged? ∨ p'.staged? = none) : Kept m s' p' := by
  refine ⟨h.1.aside new hh hn hr, fun b hb => ?_⟩
  obtain same | none := hp
  · rw [hh, (alike_append (m := m) hn).inStage]
    exact h.2 b (same ▸ hb)
  · exact absurd hb (by simp [none])

/-- A step that adds nothing to the history keeps what was said of the modes. -/
theorem Kept.same (h : Kept m s p) (hh : s'.history = s.history)
    (hr : s'.shared.requests.waiting? = s.shared.requests.waiting?)
    (hp : p'.staged? = p.staged? ∨ p'.staged? = none) : Kept m s' p' :=
  h.aside [] hh (fun _ hx => absurd hx List.not_mem_nil) hr hp

/-- So does one that adds an entry that has nothing to do with modes. -/
theorem Kept.one (h : Kept m s p) {x : Entry} (hh : s'.history = x :: s.history)
    (hx : x.action.isAside = true)
    (hr : s'.shared.requests.waiting? = s.shared.requests.waiting?)
    (hp : p'.staged? = p.staged? ∨ p'.staged? = none) : Kept m s' p' :=
  h.aside [x] hh (fun _ hy => List.mem_singleton.mp hy ▸ hx) hr hp

/-- So does one that may fail, for of a failed tick nothing is said. -/
theorem Kept.after (h : Kept m s p) (r : Except SchedulerError Unit) (hp : ∀ ks, p ≠ .applying ks) :
    Current m s (.after r p) := by
  cases r with
  | ok u =>
    cases p with
    | applying ks => exact absurd rfl (hp ks)
    | _ => exact fun _ => h
  | error error => exact fun failed => absurd failed (by simp [Point.error?])

/-- The beginning of a tick is the end of the stage of the one before. -/
theorem Posted.tick (h : Posted m s) : Posted m (s.record .tick) where
  past := throughout_cons.mpr ⟨⟨nofun, fun _ => h.complete, nofun, nofun, nofun⟩, h.past⟩
  waiting := h.waiting
  complete := h.complete
  inForce := h.inForce

/-- A request takes the place of what was pending of its kind. -/
theorem Posted.change (h : Posted m s) (mode : ModeChange) :
    Posted m (s.control e (.change mode)) where
  past := throughout_cons.mpr ⟨⟨nofun, fun _ => h.complete, nofun, nofun, nofun⟩, h.past⟩
  waiting k := by
    rw [control_shared, Shared.waiting?_control, h.waiting k]
    change (if k = mode.kind then some mode else pending? m k s.history) =
      if mode.kind = k then some mode else pending? m k s.history
    simp only [eq_comm]
  complete := h.complete
  inForce := h.inForce

/-- A load comes before the stage of its tick. -/
theorem Posted.load (h : Posted m s) (hi : inStage s.history = false) (rom : Path) :
    Posted m (s.record (.call (.load rom))) where
  past := throughout_cons.mpr ⟨⟨nofun, fun _ => h.complete, nofun, fun _ _ => hi, nofun⟩, h.past⟩
  waiting := h.waiting
  complete := h.complete
  inForce := h.inForce

/-- A step comes after the stage of its tick, when all that was wanted was given. -/
theorem Posted.step (h : Posted m s) (hi : inStage s.history = true) :
    Posted m (s.record (.call .step)) where
  past := by
    obtain ⟨before, hb⟩ := stage_of_inStage hi
    refine throughout_cons.mpr ⟨⟨nofun, fun _ => h.complete, nofun, nofun, fun _ => ?_⟩, h.past⟩
    exact ⟨hi, before, hb, h.inForce before hb⟩
  waiting := h.waiting
  complete := h.complete
  inForce := h.inForce

/-- At the beginning of a stage every kind is still to come. -/
theorem Posted.configure (h : Posted m s) (hi : inStage s.history = false) :
    Applying m s.history ModeKind.all (s.record .configure) where
  past := throughout_cons.mpr ⟨⟨nofun, fun _ => h.complete, fun _ => hi, nofun, nofun⟩, h.past⟩
  stage := rfl
  inStage := rfl
  nodup := by decide
  emptied _ := rfl
  waiting k := by
    rw [if_pos (by cases k <;> simp [ModeKind.all])]
    exact h.waiting k
  setters := rfl
  given k := by
    by_cases hk : pending? m k s.history = none
    · -- nobody asked for another mode, so the engine has what the stage before gave it
      obtain ⟨before, hb, hw⟩ := wanted_of_not_pending hk
      rw [hw]
      exact .inl (h.inForce before hb k)
    · exact .inr ⟨by cases k <;> simp [ModeKind.all], hk⟩

section Stage

variable {before : List Entry} {ks : List ModeKind}

/-- A kind of which nothing waits is done with. -/
theorem Applying.pass (h : Applying m before (k :: ks) s)
    (hw : s.shared.requests.waiting? k = none) : Applying m before ks s := by
  obtain ⟨hk, nodup⟩ := List.nodup_cons.mp h.nodup
  have idle : pending? m k before = none := by
    rw [← hw, h.waiting k, if_pos List.mem_cons_self]
  refine ⟨h.past, h.stage, h.inStage, nodup, h.emptied, fun j => ?_, ?_, fun j => ?_⟩
  · rw [h.waiting j]
    by_cases hj : j = k
    · subst hj
      rw [if_pos List.mem_cons_self, if_neg hk, idle]
    · simp [hj]
  · -- nothing was due of the kind, so what is left to do is the same
    rw [← h.setters, List.filterMap_cons, idle]
  · refine (h.given j).imp_right fun ⟨hj, hp⟩ => ⟨?_, hp⟩
    obtain rfl | hj := List.mem_cons.mp hj
    · exact absurd idle hp
    · exact hj

/-- What waits of a kind is the next that is due. -/
theorem Applying.apply {mode : ModeChange} (h : Applying m before (k :: ks) s)
    (hw : s.shared.requests.waiting? k = some mode) :
    Applying m before ks
      ((s.modify fun h => { h with requests := (s.shared.requests.takeMode k).2 }).order e
        (.setMode mode)) := by
  obtain ⟨hk, nodup⟩ := List.nodup_cons.mp h.nodup
  have kind : mode.kind = k := Requests.kind_of_waiting? hw
  have found : pending? m k before = some mode := by
    rw [← hw, h.waiting k, if_pos List.mem_cons_self]
  have next : due m before =
      EmuScheduler.setters s.history ++ mode :: ks.filterMap (pending? m · before) := by
    rw [← h.setters, List.filterMap_cons, found]
  refine ⟨?_, h.stage, h.inStage, nodup, h.emptied, fun j => ?_, ?_, fun j => ?_⟩
  · refine throughout_cons.mpr ⟨⟨?_, fun hn => absurd rfl (hn mode), nofun, nofun, nofun⟩,
      h.past⟩
    intro mode' ha
    cases ha
    -- what was called, then this setter, then what is due of the kinds to come
    refine ⟨h.inStage, ks.filterMap (pending? m · before), ?_⟩
    change _ = lastDue m s.history
    rw [lastDue_of_stage h.stage, next, List.append_assoc]
    rfl
  · -- the mailbox of this kind is empty now and the others are as they were
    change (s.shared.requests.takeMode k).2.waiting? j = _
    rw [Requests.waiting?_takeMode, h.waiting j]
    by_cases hj : j = k
    · subst hj
      rw [if_pos rfl, if_neg hk]
    · simp [hj]
  · change (EmuScheduler.setters s.history ++ [mode]) ++ _ = _
    rw [next, List.append_assoc, List.singleton_append]
  · by_cases hj : j = k
    · subst hj
      -- the setter that was just called gave the engine what was wanted
      left
      change (if mode.kind = j then some mode else given? j s.history) = _
      rw [if_pos kind, wanted_of_pending found]
    · have same : given? j (⟨.call (.order (.setMode mode)), s.view⟩ :: s.history) =
          given? j s.history := if_neg fun hn => hj (hn.symm.trans kind)
      refine (h.given j).imp same.trans fun ⟨hm, hp⟩ => ⟨?_, hp⟩
      exact (List.mem_cons.mp hm).resolve_left hj

/-- After the last kind the stage is complete. -/
theorem Applying.done (h : Applying m before [] s) : Posted m s where
  past := h.past
  waiting k := by
    rw [h.waiting k, h.emptied k]
    exact if_neg List.not_mem_nil
  complete := by
    rw [lastDue_of_stage h.stage, ← h.setters]
    exact (List.append_nil _).symm
  inForce before' hb k := by
    -- no kind is left that the engine could still be waiting for
    obtain rfl := Option.some.inj (h.stage.symm.trans hb)
    exact (h.given k).resolve_right fun hn => absurd hn.1 List.not_mem_nil

end Stage

/-! ### What the loop does -/

/-- Orders about sound have nothing to do with modes. -/
theorem told_isAside {v : View} {t : Option Bool} :
    ∀ x ∈ toldEntries v t, x.action.isAside = true := by
  intro x hx
  obtain ⟨muted, rfl | rfl⟩ := mem_told hx <;> rfl

/-- A control may request a mode, and then it is pending and in its mailbox. -/
theorem Kept.control (h : Kept m s p) (c : Control) : Kept m (s.control e c) p := by
  by_cases hc : ∃ mode, c = .change mode
  · obtain ⟨mode, rfl⟩ := hc
    exact ⟨h.1.change mode, h.2⟩
  · -- of the controls only a change has to do with modes
    have aside : (Action.control c).isAside = true := by
      cases c with
      | change mode => exact absurd ⟨mode, rfl⟩ hc
      | _ => rfl
    refine h.aside (toldEntries (s.shared.control c).view (s.shared.toldBy c)
      ++ [⟨.control c, s.view⟩]) ?_ ?_ ?_ (.inl rfl)
    · rw [control_history, List.append_assoc]
      rfl
    · intro x hx
      obtain hx | hx := List.mem_append.mp hx
      · exact told_isAside x hx
      · rw [List.mem_singleton.mp hx]
        exact aside
    · funext k
      rw [control_shared, Shared.waiting?_control]
      split
      · exact absurd ⟨_, rfl⟩ hc
      · rfl

/-- A section of the audio lock has nothing to do with modes. -/
theorem Kept.withAudio (h : Kept m s p) (change : Audio → Audio × Option Bool)
    (hp : p'.staged? = p.staged? ∨ p'.staged? = none) : Kept m (s.withAudio e change) p' := by
  refine h.aside _ (withAudio_history ..) told_isAside ?_ hp
  rw [withAudio_shared]

/-- Nor has closing the ROM. -/
theorem Kept.closeRom (h : Kept m s p)
    (hp : p'.staged? = p.staged? ∨ p'.staged? = none) : Kept m (s.closeRom e) p' := by
  obtain ⟨-, heq⟩ | ⟨-, heq⟩ := closeRom_cases e s
  · rw [heq]
    exact h.same rfl rfl hp
  · rw [heq]
    exact h.one rfl rfl rfl hp

/-- Controls may come at the open points, which are not within a stage. -/
theorem Current.control (h : Current m s p) (hp : p.Open) (c : Control) :
    Current m (s.control e c) p := by
  cases p with
  | applying ks => exact hp.elim
  | _ => exact fun going => (h going).control c

/-- **The annotation is kept by every step of the loop.** -/
theorem current_step (h : Current m s p) (hl : Loop e p s p' s') : Current m s' p' := by
  cases hl with
  | halt => exact fun _ => ⟨(h rfl).1.tick, by simp [Point.staged?]⟩
  | first | begin =>
    -- with the tick, the stage of the one before is out of sight
    exact fun _ => ⟨(h rfl).1.tick, by rintro b ⟨⟩; rfl⟩
  | create hc =>
    obtain ⟨files, rfl⟩ := createTree_cases hc
    have begun : Kept m { s.publish .initializing with files } .purging :=
      (h rfl).one rfl rfl rfl (.inl rfl)
    exact begun.after _ (by simp)
  | purge hc =>
    obtain ⟨files, rfl | ⟨removed, rfl⟩⟩ := purgeImages_cases hc
    · have same : Kept m { s with files } .directing := (h rfl).same rfl rfl (.inl rfl)
      exact same.after _ (by simp)
    · have purged : Kept m ({ s with files }.record
          (.purge (WorkingTree.below s.workingDirectory).temp removed)) .directing :=
        (h rfl).one rfl rfl rfl (.inl rfl)
      exact purged.after _ (by simp)
  | setUpEnds =>
    have same : Kept m s .checking := h rfl
    exact same.after _ (by simp)
  | check =>
    have same : Kept m s .engaging := h rfl
    exact same.after _ (by simp)
  | choose =>
    have same : Kept m s .running := h rfl
    exact same.after _ (by simp)
  | engage =>
    intro _
    have engaged : Kept m (s.withAudio e Audio.engage) .loading := (h rfl).withAudio _ (.inl rfl)
    exact engaged.aside [_, _] rfl (by simp [Action.isAside]) rfl (.inl rfl)
  | @load _ rom =>
    intro _
    obtain ⟨posted, early⟩ := h rfl
    have loaded := posted.load (early false rfl) rom
    exact ⟨loaded.aside [] rfl (by simp) rfl, early⟩
  | accept now =>
    intro _
    exact (h rfl).aside [_, _] (acceptRom_history ..) (by simp [Action.isAside]) rfl (.inl rfl)
  | reject =>
    intro _
    exact (h rfl).aside [_, _, _] (rejectRom_history ..) (by simp [Action.isAside]) rfl (.inl rfl)
  | configure =>
    obtain ⟨posted, early⟩ := h rfl
    exact ⟨s.history, posted.configure (early false rfl)⟩
  | apply ha =>
    obtain ⟨before, applying⟩ := h
    obtain ⟨hw, rfl, rfl⟩ | ⟨mode, hw, ⟨rfl, rfl⟩ | ⟨rfl, -⟩⟩ := applyMode_cases ha
    · exact ⟨before, applying.pass hw⟩
    · exact ⟨before, applying.apply hw⟩
    · -- the mode is lost, but so is the run
      exact fun failed => absurd failed (by simp [Point.error?])
  | configured =>
    obtain ⟨before, applying⟩ := h
    exact fun _ => ⟨applying.done, by rintro b ⟨⟩; exact applying.inStage⟩
  | step =>
    intro _
    obtain ⟨posted, late⟩ := h rfl
    have stepped := posted.step (late true rfl)
    exact ⟨stepped.aside [] rfl (by simp) rfl, late⟩
  | @present _ n now =>
    intro _
    obtain ⟨rate, window, heq⟩ := present_cases (s := s) n now
    rw [heq]
    exact (h rfl).one rfl rfl rfl (.inr rfl)
  | unmute => exact fun _ => (h rfl).withAudio _ (.inl rfl)
  | close => exact fun _ => (h rfl).closeRom (.inl rfl)
  | empty => exact fun going => (h going).closeRom (.inr rfl)
  | skip | noLoad | takeLoad | lock | again => exact fun _ => (h rfl).same rfl rfl (.inl rfl)
  | direct | setUp | announce | run => exact fun _ => (h rfl).one rfl rfl rfl (.inl rfl)
  -- past the steps of a tick nothing is left to say of its stage
  | rest | park | sleep | finish | giveUp | abandon =>
    exact fun _ => (h rfl).same rfl rfl (.inr rfl)
  | publish | stop => exact fun _ => (h rfl).one rfl rfl rfl (.inr rfl)
  | abort => exact fun failed => absurd failed (by simp [Point.error?])
  | requestStop => exact fun going => (h going).same rfl rfl (.inr rfl)
  | vanish => exact fun going => (h going).one rfl rfl rfl (.inr rfl)

/-- What is said of the modes holds wherever the loop is. -/
theorem current_reached {s₀ : Scheduler σ} (h : Posted m s₀) (hr : Reached e s₀ p s) :
    Current m s p := by
  induction hr with
  | start => exact fun _ => ⟨h, by simp [Point.staged?]⟩
  | loop _ hl ih => exact current_step ih hl
  | control _ hp c ih => exact ih.control hp c
  | @outside p s _ files cheats ih =>
    cases p with
    | applying ks =>
      obtain ⟨before, applying⟩ := ih
      exact ⟨before, { applying with }⟩
    | _ => exact fun going => (ih going).aside [] rfl (by simp) rfl (.inl rfl)

end Annotation

/-- Before anything happens the modes of the start are pending, and wait. -/
theorem posted_start (e : Engine σ) (engine : σ) (workingDirectory : Path) (modes : Modes)
    (sink : Sink) (files : FileTree) (now : Nat) :
    Posted modes (.start e engine workingDirectory modes sink files now) where
  past := throughout_nil
  waiting := Requests.waiting?_seed {} modes
  complete := rfl
  inForce _ hb := absurd hb (by simp [stage?, Scheduler.start])

/-- **The latest request of each kind reaches the engine, once.** In every run without a failed tick
the law of modes holds of every entry: each configuration stage calls the setters that are due, in
their order, and no setter is called anywhere else. In the end the last stage is complete, the
engine has of each kind the last mode requested before that stage, and what was requested after it
waits for the next one. -/
theorem latest_modes {e : Engine σ} {engine : σ} {workingDirectory : Path} {modes : Modes}
    {sink : Sink} {files : FileTree} {now : Nat} {p : Point} {s : Scheduler σ}
    (hr : Run e (.start e engine workingDirectory modes sink files now) p s)
    (hp : p.error? = none) :
    Throughout (Configured modes) s.history ∧
      setters s.history = lastDue modes s.history ∧
      (∀ before, stage? s.history = some before →
        ∀ k, given? k s.history = some (wanted modes k before)) ∧
      ∀ k, s.shared.requests.waiting? k = pending? modes k s.history := by
  have reached := current_reached (posted_start e engine workingDirectory modes sink files now)
    hr.reached
  have kept : Kept modes s p := by
    cases p with
    | applying ks => exact hr.isOpen.elim
    | _ => exact reached hp
  exact ⟨kept.1.past, kept.1.complete, kept.1.inForce, kept.1.waiting⟩

/-- Of two requests before the first tick the engine is given the second, with the modes of the
start for the other kinds; the next tick gives it the one mode that was requested since. -/
theorem latest_modes_twice :
    let e := TestPattern.engine
    let s₁ := (((sample.control e (.change (.renderer .null))).control e
      (.change (.renderer .openGl))).tick e {} 1).2
    let s₂ := ((s₁.control e (.change (.cpu .interpreter))).tick e {} 1).2
    Throughout (Configured {}) s₂.history ∧
      setters s₁.history = [.renderer .openGl, .soundCore .native, .cpu .jit,
        .soundSync .dualSynchAsynch] ∧
      setters s₂.history = lastDue {} s₂.history ∧
      setters s₂.history = [.cpu .interpreter] := by
  intro e s₁ s₂
  have first : Run e sample .between s₁ :=
    ((Run.start.control _).control _).done {} 1 .parked (by decide)
  have second : Run e sample .between s₂ := (first.control _).done {} 1 .parked (by decide)
  -- the second tick has one mode to give, the others having been given by the first one
  have law := latest_modes second rfl
  exact ⟨law.1, by decide, law.2.1, by decide⟩

end EmuScheduler
