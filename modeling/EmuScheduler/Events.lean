import EmuScheduler.Path

/-!
# Load events

A load is announced when it starts and when it ends, and after its end when it failed. The
`Notifier` sends each event to the sink that it is bound to at that moment. A sink is known by its
name and receives events for as long as its inbox exists; an event for a sink without an inbox is
dropped.
-/

namespace EmuScheduler

/-- What happens to a load, with the path of the ROM. -/
inductive LoadEvent where
  | started (rom : Path)
  /-- The attempt is over, whatever came of it. -/
  | ended (rom : Path)
  /-- The engine refused the ROM; this follows the end of the attempt. -/
  | failed (rom : Path)
  deriving DecidableEq, Repr, Inhabited

/-- The ROM that an event is about. -/
def LoadEvent.rom : LoadEvent → Path
  | .started p | .ended p | .failed p => p

/-- The name of a receiver of events. -/
abbrev Sink := String

/-- Sends events to the sink it is bound to. -/
structure Notifier where
  bound : Sink
  /-- The receivers that still listen, with what each has received and not yet read. -/
  inboxes : List (Sink × List LoadEvent)
  deriving Repr

namespace Notifier

/-- A notifier bound to a new sink. -/
def ofSink (sink : Sink) : Notifier :=
  ⟨sink, [(sink, [])]⟩

/-- Whether anyone listens to the bound sink. -/
def listening (n : Notifier) : Bool :=
  n.inboxes.any fun i => i.1 == n.bound

/-- Sends an event to the bound sink. -/
def emit (n : Notifier) (e : LoadEvent) : Notifier :=
  { n with inboxes := n.inboxes.map fun i => if i.1 = n.bound then (i.1, i.2 ++ [e]) else i }

/-- Removes the inbox of a sink and all that is in it. -/
def close (n : Notifier) (sink : Sink) : Notifier :=
  { n with inboxes := n.inboxes.filter fun i => i.1 ≠ sink }

/-- Binds to a new inbox of that name; one that had the name before is gone. -/
def bind (n : Notifier) (sink : Sink) : Notifier :=
  { bound := sink, inboxes := (n.close sink).inboxes ++ [(sink, [])] }

/-- Binds to a sink and leaves its inbox as it is; without one, what is sent there is dropped. -/
def attach (n : Notifier) (sink : Sink) : Notifier :=
  { n with bound := sink }

/-- All events received and not read before, by sink, and the notifier without them. -/
def drain (n : Notifier) : List (Sink × List LoadEvent) × Notifier :=
  (n.inboxes.filter fun i => !i.2.isEmpty,
    { n with inboxes := n.inboxes.map fun i => (i.1, []) })

/-- The names of the receivers that still listen. -/
def names (n : Notifier) : List Sink :=
  n.inboxes.map Prod.fst

section Inboxes

variable {n : Notifier} {sink x : Sink} {e : LoadEvent} {evs : List LoadEvent}

/-- Somebody listens to the bound sink if it has an inbox. -/
theorem listening_iff : n.listening = true ↔ ∃ evs, (n.bound, evs) ∈ n.inboxes := by
  unfold listening
  rw [List.any_eq_true]
  constructor
  · rintro ⟨⟨x, evs⟩, hi, hx⟩
    obtain rfl : x = n.bound := by simpa using hx
    exact ⟨evs, hi⟩
  · rintro ⟨evs, hi⟩
    exact ⟨(n.bound, evs), hi, by simp⟩

/-- The inbox of the closed sink is gone and the others stay. -/
theorem mem_close : (x, evs) ∈ (n.close sink).inboxes ↔ x ≠ sink ∧ (x, evs) ∈ n.inboxes := by
  unfold close
  rw [List.mem_filter, and_comm, decide_eq_true_eq]

/-- The new sink has an empty inbox, whatever was in one of its name, and the others stay. -/
theorem mem_bind :
    (x, evs) ∈ (n.bind sink).inboxes ↔
      if x = sink then evs = [] else (x, evs) ∈ n.inboxes := by
  unfold bind
  rw [List.mem_append, mem_close, List.mem_singleton, Prod.mk.injEq]
  split
  · next hx => simp [hx]
  · next hx => simp [hx]

/-- An event comes last in the inbox of the bound sink and changes no other. -/
theorem mem_emit :
    (x, evs) ∈ (n.emit e).inboxes ↔
      if x = n.bound then ∃ read, (x, read) ∈ n.inboxes ∧ read ++ [e] = evs
      else (x, evs) ∈ n.inboxes := by
  unfold emit
  rw [List.mem_map]
  constructor
  · rintro ⟨⟨y, read⟩, hi, heq⟩
    dsimp only at heq
    split at heq
    · next hy =>
      cases heq
      rw [if_pos hy]
      exact ⟨read, hi, rfl⟩
    · next hy =>
      cases heq
      rw [if_neg hy]
      exact hi
  · -- backwards, either the inbox is the bound one and grows by the event, or it is another
    intro h
    split at h
    · next hx =>
      obtain ⟨read, hi, rfl⟩ := h
      exact ⟨(x, read), hi, if_pos hx⟩
    · next hx => exact ⟨(x, evs), h, if_neg hx⟩

/-- An event makes no inbox and takes none away. -/
@[simp] theorem names_emit : (n.emit e).names = n.names := by
  unfold names emit
  rw [List.map_map]
  refine List.map_congr_left fun i _ => ?_
  dsimp only [Function.comp]
  split <;> rfl

theorem nodup_close (h : n.names.Nodup) : (n.close sink).names.Nodup :=
  h.sublist (List.filter_sublist.map Prod.fst)

/-- A sink keeps to one inbox, because the one that had its name is closed first. -/
theorem nodup_bind (h : n.names.Nodup) : (n.bind sink).names.Nodup := by
  have fresh : sink ∉ (n.close sink).names := by
    intro hm
    obtain ⟨⟨x, evs⟩, hi, rfl⟩ := List.mem_map.mp hm
    exact (mem_close.mp hi).1 rfl
  have names : (n.bind sink).names = (n.close sink).names ++ [sink] := List.map_append
  rw [names, List.nodup_append]
  refine ⟨nodup_close h, by simp, fun x hx y hy => ?_⟩
  rintro rfl
  exact fresh (List.mem_singleton.mp hy ▸ hx)

end Inboxes

end Notifier
end EmuScheduler
