import EmuScheduler.Cheats.Store

/-!
# Editing cheats

An edit is an `EditProgram`: a sequence of store calls in which each may depend on the answers to
those before it. Run on its own, a program makes its calls one after the other (`run`); several
programs over one store may make theirs in any order, and then each call is one step.

Edits that change the list write it out at once. Switching a cheat on or off does not. Only Action
Replay cheats can be changed.
-/

namespace EmuScheduler

/-- A sequence of store calls that ends in a result. -/
inductive EditProgram (α : Type) where
  | done (result : α)
  | call (c : StoreCall) (next : c.Reply → EditProgram α)

namespace EditProgram

variable {α β : Type}

/-- Goes on with another program after the result of the first. -/
def andThen : EditProgram α → (α → EditProgram β) → EditProgram β
  | .done a, f => f a
  | .call c next, f => .call c fun r => (next r).andThen f

/-- The result of a program that has the store for itself, and the store after it. -/
def run : EditProgram α → CheatStore → α × CheatStore
  | .done a, s => (a, s)
  | .call c next, s => (next (s.answer c).1).run (s.answer c).2

/-- A program that writes the list out. -/
def persist : EditProgram (Except CheatError Unit) :=
  .call .persist .done

end EditProgram

namespace CheatEditor

open EditProgram

/-- The length of the list. -/
def length : EditProgram Nat :=
  .call .count .done

/-- The cheat at a position. The length of the list is read for the message even if it is not
needed. -/
def get (index : Nat) : EditProgram (Except CheatError Cheat) :=
  .call (.get index) fun found => .call .count fun count =>
    .done (match found with
      | some cheat => .ok cheat
      | none => .error (.invalidIndex index count))

/-- The cheats shown at so many positions from `index` on. -/
def collect (index : Nat) : Nat → EditProgram (List Cheat)
  | 0 => .done []
  | remaining + 1 => .call (.get index) fun found =>
    (collect (index + 1) remaining).andThen fun rest => .done (found.toList ++ rest)

/-- The cheats shown, in the order of the list. -/
def list : EditProgram (List Cheat) :=
  .call .count fun count => collect 0 count

/-- Appends an Action Replay cheat. -/
def add (description code : String) : EditProgram (Except CheatError Unit) :=
  .call (.add description code) fun _ => persist

/-- Replaces description and code of an Action Replay cheat. -/
def update (index : Nat) (description code : String) : EditProgram (Except CheatError Unit) :=
  (get index).andThen fun
    | .error e => .done (.error e)
    | .ok cheat =>
      if cheat.kind = .actionReplay then .call (.update index description code) fun _ => persist
      else .done (.error (.notEditable index cheat.kind))

/-- Removes a cheat. -/
def delete (index : Nat) : EditProgram (Except CheatError Unit) :=
  (get index).andThen fun
    | .error e => .done (.error e)
    | .ok _ => .call (.delete index) fun _ => persist

/-- Switches a cheat on or off, without writing the list out. -/
def setEnabled (index : Nat) (enabled : Bool) : EditProgram (Except CheatError Unit) :=
  (get index).andThen fun
    | .error e => .done (.error e)
    | .ok _ => .call (.setEnabled index enabled) fun _ => .done (.ok ())

/-- Writes the list out. -/
def save : EditProgram (Except CheatError Unit) :=
  persist

end CheatEditor
end EmuScheduler
