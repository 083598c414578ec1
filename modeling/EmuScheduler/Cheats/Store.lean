import EmuScheduler.Errors

/-!
# The cheat list

A `CheatStore` holds the list of cheats and the list as it was last written out. Cheats are known
by their position, so removing one moves those behind it. The store does nothing at a position
that does not exist. Two kinds of trouble are part of its state: positions at which it shows
nothing, and a reason for which writing out fails.

Every use of the store is a `StoreCall`; `CheatStore.answer` is what one call does, as one step.
-/

namespace EmuScheduler

/-- One entry of the cheat list. -/
structure Cheat where
  description : String
  code : String
  kind : CheatKind
  enabled : Bool
  deriving DecidableEq, Repr, Inhabited

/-- The list of cheats. -/
structure CheatStore where
  cheats : List Cheat := []
  /-- The list as it was last written out. -/
  persisted : List Cheat := []
  /-- The positions at which nothing is shown. -/
  hidden : List Nat := []
  /-- Why the list cannot be written out at present. -/
  fault? : Option String := none
  deriving DecidableEq, Repr, Inhabited

namespace CheatStore

/-- The number of cheats, hidden ones included. -/
def count (s : CheatStore) : Nat :=
  s.cheats.length

/-- The cheat at a position, if one is shown there. -/
def get? (s : CheatStore) (index : Nat) : Option Cheat :=
  if s.hidden.contains index then none else s.cheats[index]?

/-- Appends a cheat of any kind. -/
def push (s : CheatStore) (cheat : Cheat) : CheatStore :=
  { s with cheats := s.cheats ++ [cheat] }

/-- Appends a new Action Replay cheat, which is enabled. -/
def add (s : CheatStore) (description code : String) : CheatStore :=
  s.push ⟨description, code, .actionReplay, true⟩

/-- Changes the cheat at a position. -/
def modify (s : CheatStore) (index : Nat) (f : Cheat → Cheat) : CheatStore :=
  { s with cheats := s.cheats.modify index f }

/-- Replaces description and code of the cheat at a position. -/
def update (s : CheatStore) (index : Nat) (description code : String) : CheatStore :=
  s.modify index fun c => { c with description, code }

/-- Removes the cheat at a position. -/
def delete (s : CheatStore) (index : Nat) : CheatStore :=
  { s with cheats := s.cheats.eraseIdx index }

/-- Switches the cheat at a position on or off. -/
def setEnabled (s : CheatStore) (index : Nat) (enabled : Bool) : CheatStore :=
  s.modify index fun c => { c with enabled }

/-- Writes the list out. -/
def persist (s : CheatStore) : Except CheatError Unit × CheatStore :=
  match s.fault? with
  | some text => (.error (.notPersisted text), s)
  | none => (.ok (), { s with persisted := s.cheats })

end CheatStore

/-- One use of a cheat store. -/
inductive StoreCall where
  | count
  | get (index : Nat)
  | add (description code : String)
  | update (index : Nat) (description code : String)
  | delete (index : Nat)
  | setEnabled (index : Nat) (enabled : Bool)
  | persist
  deriving DecidableEq, Repr

/-- What a store call answers. -/
def StoreCall.Reply : StoreCall → Type
  | .count => Nat
  | .get _ => Option Cheat
  | .persist => Except CheatError Unit
  | .add _ _ | .update _ _ _ | .delete _ | .setEnabled _ _ => Unit

/-- What one call answers and what it makes of the store. -/
def CheatStore.answer (s : CheatStore) : (c : StoreCall) → c.Reply × CheatStore
  | .count => (s.count, s)
  | .get index => (s.get? index, s)
  | .add description code => ((), s.add description code)
  | .update index description code => ((), s.update index description code)
  | .delete index => ((), s.delete index)
  | .setEnabled index enabled => ((), s.setEnabled index enabled)
  | .persist => s.persist

end EmuScheduler
