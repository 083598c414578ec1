import EmuScheduler.Path
import EmuScheduler.Settings

/-!
# Mailboxes

A `Mailbox` holds at most one value: a new one replaces what was not taken yet, and whoever takes
the value leaves the mailbox empty. `Requests` are the scheduler's five mailboxes, one for the ROM
to load and one for each mode, so a change of one kind never displaces a change of another.

`Requests.waiting?` is the view of the four mode mailboxes; `waiting?_change`, `waiting?_seed` and
`waiting?_takeMode` say what the operations do to it.
-/

namespace EmuScheduler

/-- Room for one value. -/
structure Mailbox (α : Type) where
  value? : Option α := none
  deriving DecidableEq, Repr, Inhabited

namespace Mailbox

variable {α : Type}

/-- An empty mailbox. -/
def empty : Mailbox α := {}

/-- Stores a value in place of whatever was there. -/
def set (_ : Mailbox α) (a : α) : Mailbox α := ⟨some a⟩

/-- The value, and the mailbox without it. -/
def take (m : Mailbox α) : Option α × Mailbox α := (m.value?, empty)

/-- Whether a value waits. -/
def isPending (m : Mailbox α) : Bool := m.value?.isSome

/-- What is stored is what is taken next. -/
@[simp] theorem take_set (m : Mailbox α) (a : α) : (m.set a).take = (some a, empty) := rfl

/-- From an empty mailbox nothing is taken. -/
@[simp] theorem take_empty : (empty : Mailbox α).take = (none, empty) := rfl

@[simp] theorem isPending_set (m : Mailbox α) (a : α) : (m.set a).isPending = true := rfl

@[simp] theorem isPending_empty : (empty : Mailbox α).isPending = false := rfl

end Mailbox

/-- What waits for the scheduler. -/
structure Requests where
  rom : Mailbox Path := {}
  renderer : Mailbox Renderer := {}
  soundCore : Mailbox SoundCore := {}
  cpu : Mailbox CpuMode := {}
  soundSync : Mailbox SoundSync := {}
  deriving DecidableEq, Repr, Inhabited

namespace Requests

/-- Puts a change into the mailbox of its kind. -/
def change (r : Requests) : ModeChange → Requests
  | .renderer v => { r with renderer := r.renderer.set v }
  | .soundCore v => { r with soundCore := r.soundCore.set v }
  | .cpu v => { r with cpu := r.cpu.set v }
  | .soundSync v => { r with soundSync := r.soundSync.set v }

/-- Puts every mode into its mailbox. -/
def seed (r : Requests) (m : Modes) : Requests :=
  { r with
    renderer := r.renderer.set m.renderer
    soundCore := r.soundCore.set m.soundCore
    cpu := r.cpu.set m.cpu
    soundSync := r.soundSync.set m.soundSync }

/-- The change of a mode that waits. -/
def waiting? (r : Requests) : ModeKind → Option ModeChange
  | .renderer => r.renderer.value?.map .renderer
  | .soundCore => r.soundCore.value?.map .soundCore
  | .cpu => r.cpu.value?.map .cpu
  | .soundSync => r.soundSync.value?.map .soundSync

/-- The change of a mode that waits, and the mailboxes without it. -/
def takeMode (r : Requests) (k : ModeKind) : Option ModeChange × Requests :=
  (r.waiting? k,
    match k with
    | .renderer => { r with renderer := r.renderer.take.2 }
    | .soundCore => { r with soundCore := r.soundCore.take.2 }
    | .cpu => { r with cpu := r.cpu.take.2 }
    | .soundSync => { r with soundSync := r.soundSync.take.2 })

/-- A change waits in the mailbox of its kind, in place of what waited there, and the other kinds
are as before. -/
theorem waiting?_change (r : Requests) (m : ModeChange) (k : ModeKind) :
    (r.change m).waiting? k = if k = m.kind then some m else r.waiting? k := by
  cases m <;> cases k <;> rfl

/-- Of seeded mailboxes each holds its mode. -/
theorem waiting?_seed (r : Requests) (m : Modes) (k : ModeKind) :
    (r.seed m).waiting? k = some (m.get k) := by
  cases k <;> rfl

/-- Taking a mode empties its mailbox and no other. -/
theorem waiting?_takeMode (r : Requests) (j k : ModeKind) :
    (r.takeMode j).2.waiting? k = if k = j then none else r.waiting? k := by
  cases j <;> cases k <;> rfl

/-- What waits in the mailbox of a kind is of that kind. -/
theorem kind_of_waiting? {r : Requests} {k : ModeKind} {m : ModeChange}
    (h : r.waiting? k = some m) : m.kind = k := by
  cases k <;> obtain ⟨v, -, rfl⟩ := Option.map_eq_some_iff.mp h <;> rfl

/-- To store a mode change leaves the ROM that waits. -/
@[simp] theorem rom_change (r : Requests) (m : ModeChange) : (r.change m).rom = r.rom := by
  cases m <;> rfl

/-- To take a mode out of its mailbox leaves the ROM that waits. -/
@[simp] theorem rom_takeMode (r : Requests) (k : ModeKind) : (r.takeMode k).2.rom = r.rom := by
  cases k <;> rfl

end Requests
end EmuScheduler
