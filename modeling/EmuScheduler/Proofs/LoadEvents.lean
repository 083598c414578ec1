import EmuScheduler.Proofs.EngineProtocol

/-!
# The events of loads

A load is announced by an event when it starts, by another when it ends and by a third if the engine
refused it. `load_events` says that nothing else is ever announced: the events of a run are those of
the engine's loads, in the order of the loads. It says further (`Announced`) that at the end of a
load controllers see already what came of it, that each event goes to the sink that was bound at
that moment, and that what a receiver has got is what was sent to it since it exists.

Two readings of a history say who receives. `boundTo` is the sink that was bound last, and
`lifetime?` the part of the history through which the present receiver of a name was there; so
`inbox?`, the events sent to a name in that time, speaks of emissions and lifetimes only and not of
how a notifier keeps its inboxes. `Delivered` is the agreement of a notifier with them.

That a load finds no ROM open, and that its answer is the one still missing, are parts of the
protocol (`annotated_reached`), which the invariant here takes as they are.
-/

namespace EmuScheduler

open Scheduler

variable {σ : Type} {sink : Sink} {h : List Entry}

/-! ### Reading events -/

/-- What is announced of a load, by its answer. -/
def announcement : Path × Option Bool → List LoadEvent
  | (rom, none) => [.started rom]
  | (rom, some true) => [.started rom, .ended rom]
  | (rom, some false) => [.started rom, .ended rom, .failed rom]

/-- What is announced of the loads so far, in their order. -/
def announced (h : List Entry) : List LoadEvent :=
  (attempts h).reverse.flatMap announcement

/-- The events so far with the sinks they were sent to, in the order of emission. -/
def emissions : List Entry → List (Sink × LoadEvent)
  | [] => []
  | x :: older =>
    match x.action with
    | .emit event sink _ => emissions older ++ [(sink, event)]
    | _ => emissions older

/-- The sink that was bound last; `sink` is that of the start. -/
def boundTo (sink : Sink) : List Entry → Sink
  | [] => sink
  | x :: older =>
    match x.action with
    | .control (.bind x) | .control (.attach x) => x
    | _ => boundTo sink older

/-- The events so far, in the order of emission. -/
def events (h : List Entry) : List LoadEvent :=
  (emissions h).map Prod.snd

/-- What happened since the receiver of that name is there, if it is there. -/
def lifetime? (sink name : Sink) : List Entry → Option (List Entry)
  | [] => if name = sink then some [] else none
  | x :: older =>
    match x.action with
    | .control (.bind y) => if name = y then some [] else (lifetime? sink name older).map (x :: ·)
    | .control (.close y) => if name = y then none else (lifetime? sink name older).map (x :: ·)
    | _ => (lifetime? sink name older).map (x :: ·)

/-- The events sent to a name. -/
def sentTo (name : Sink) (h : List Entry) : List LoadEvent :=
  ((emissions h).filter (·.1 = name)).map Prod.snd

/-- What the receiver of a name has got, if it is there. -/
def inbox? (sink name : Sink) (h : List Entry) : Option (List LoadEvent) :=
  (lifetime? sink name h).map (sentTo name)

/-- **The law of events**, for an entry and those older than it. -/
structure Announced (sink : Sink) (x : Entry) (older : List Entry) : Prop where
  /-- An event goes to the sink that is bound, and is received if someone is there. -/
  bound : ∀ event name delivered, x.action = .emit event name delivered →
    name = boundTo sink older ∧ delivered = (inbox? sink name older).isSome
  /-- When a load ends, controllers see what came of it. -/
  outcome : ∀ rom name delivered, x.action = .emit (.ended rom) name delivered →
    ∃ accepted rest, attempts older = (rom, some accepted) :: rest ∧
      (accepted = true → x.view.rom? = some rom ∧ x.view.paused = false) ∧
      (accepted = false → x.view.rom? = none)
  /-- Whenever a controller acts, also from inside a call, all loads so far were announced. -/
  trace : ∀ c, x.action = .control c → events older = announced older

/-- An event that is sent is the last one. -/
theorem events_emit {event : LoadEvent} {x : Sink} {delivered : Bool} {v : View} :
    events (⟨.emit event x delivered, v⟩ :: h) = events h ++ [event] :=
  List.map_append

/-! ### What is no event and has no effect on receivers -/

/-- Whether an action neither is an event nor has to do with loads or receivers. -/
def Action.isSilent : Action → Bool
  | .emit _ _ _ | .control _ | .call (.load _) | .accept _ | .reject _ => false
  | _ => true

/-- To tell the engine of its sound sends no event. -/
theorem told_isSilent {v : View} {t : Option Bool} :
    ∀ x ∈ toldEntries v t, x.action.isSilent = true := by
  intro x hx
  obtain ⟨muted, rfl | rfl⟩ := mem_told hx <;> rfl

theorem Announced.of_silent {x : Entry} {older : List Entry} (hx : x.action.isSilent = true) :
    Announced sink x older where
  bound _ _ _ ha := absurd hx (by rw [ha]; exact Bool.false_ne_true)
  outcome _ _ _ ha := absurd hx (by rw [ha]; exact Bool.false_ne_true)
  trace _ ha := absurd hx (by rw [ha]; exact Bool.false_ne_true)

/-- What is no event and does not open or close the inbox changes nothing in it. -/
theorem inbox?_cons {name : Sink} {x : Entry}
    (hl : lifetime? sink name (x :: h) = (lifetime? sink name h).map (x :: ·))
    (hs : ∀ life, emissions (x :: life) = emissions life) :
    inbox? sink name (x :: h) = inbox? sink name h := by
  have unsent (life : List Entry) : sentTo name (x :: life) = sentTo name life := by
    unfold sentTo
    rw [hs]
  unfold inbox?
  rw [hl, Option.map_map]
  exact congrArg (Option.map · _) (funext unsent)

/-- An event goes into the inbox of whoever is bound, if that one still listens. -/
theorem inbox?_emit {name x : Sink} {event : LoadEvent} {delivered : Bool} {v : View} :
    inbox? sink name (⟨.emit event x delivered, v⟩ :: h) =
      if name = x then (inbox? sink name h).map (· ++ [event]) else inbox? sink name h := by
  have sent (life : List Entry) : sentTo name (⟨.emit event x delivered, v⟩ :: life) =
      if name = x then sentTo name life ++ [event] else sentTo name life := by
    unfold sentTo
    change ((emissions life ++ [(x, event)]).filter _).map _ = _
    rw [List.filter_append, List.map_append]
    split
    · next hx => simp [hx]
    · next hx => simp [Ne.symm hx]
  unfold inbox?
  change ((lifetime? sink name h).map (_ :: ·)).map _ = _
  rw [Option.map_map]
  cases lifetime? sink name h with
  | none =>
    -- nobody is there, and the event is dropped
    simp
  | some life =>
    change some (sentTo name (_ :: life)) = _
    rw [sent]
    split <;> rfl

/-- Two histories between which nothing was heard. -/
structure Unheard (sink : Sink) (h h' : List Entry) : Prop where
  emissions : emissions h' = emissions h
  attempts : attempts h' = attempts h
  bound : boundTo sink h' = boundTo sink h
  inbox : ∀ name, inbox? sink name h' = inbox? sink name h

/-- An entry that sends nothing and binds nobody changes no inbox. -/
theorem unheard_cons {x : Entry} (hx : x.action.isSilent = true) : Unheard sink h (x :: h) := by
  obtain ⟨action, v⟩ := x
  cases action with
  | emit | control | accept | reject => exact absurd hx Bool.false_ne_true
  | call c =>
    cases c with
    | load => exact absurd hx Bool.false_ne_true
    | _ => exact ⟨rfl, rfl, rfl, fun _ => inbox?_cons rfl fun _ => rfl⟩
  | _ => exact ⟨rfl, rfl, rfl, fun _ => inbox?_cons rfl fun _ => rfl⟩

theorem unheard_append {new : List Entry} (hn : ∀ x ∈ new, x.action.isSilent = true) :
    Unheard sink h (new ++ h) := by
  induction new with
  | nil => exact ⟨rfl, rfl, rfl, fun _ => rfl⟩
  | cons x new ih =>
    have rest : Unheard sink h (new ++ h) := ih fun y hy => hn y (List.mem_cons_of_mem x hy)
    have last : Unheard sink (new ++ h) (x :: (new ++ h)) := unheard_cons (hn x List.mem_cons_self)
    exact ⟨last.emissions.trans rest.emissions, last.attempts.trans rest.attempts,
      last.bound.trans rest.bound, fun name => (last.inbox name).trans (rest.inbox name)⟩

/-! ### Receivers -/

/-- The inboxes of a notifier are those of the history. -/
structure Delivered (sink : Sink) (n : Notifier) (h : List Entry) : Prop where
  bound : n.bound = boundTo sink h
  nodup : n.names.Nodup
  mem : ∀ name evs, (name, evs) ∈ n.inboxes ↔ inbox? sink name h = some evs

namespace Delivered

variable {n : Notifier}

/-- Whether anybody listens is whether the inbox of the bound name is open. -/
theorem listening (hd : Delivered sink n h) : n.listening = (inbox? sink n.bound h).isSome := by
  rw [Bool.eq_iff_iff, Notifier.listening_iff, Option.isSome_iff_exists]
  exact exists_congr fun evs => hd.mem n.bound evs

theorem congr {h' : List Entry} (hd : Delivered sink n h) (hb : boundTo sink h' = boundTo sink h)
    (hi : ∀ name, inbox? sink name h' = inbox? sink name h) : Delivered sink n h' where
  bound := hd.bound.trans hb.symm
  nodup := hd.nodup
  mem name evs := by rw [hi name, hd.mem name evs]

/-- An event is delivered to the inbox of the bound name. -/
theorem emit (hd : Delivered sink n h) (event : LoadEvent) (delivered : Bool) (v : View) :
    Delivered sink (n.emit event) (⟨.emit event n.bound delivered, v⟩ :: h) where
  bound := hd.bound
  nodup := by
    rw [Notifier.names_emit]
    exact hd.nodup
  mem name evs := by
    rw [Notifier.mem_emit, inbox?_emit]
    split
    · rw [Option.map_eq_some_iff]
      exact exists_congr fun read => and_congr_left fun _ => hd.mem name read
    · exact hd.mem name evs

/-- A control that names a sink opens an inbox, closes one or leaves them all as they are. -/
theorem control {g : Shared} (hd : Delivered sink g.notifier h) (c : Control) (v : View) :
    Delivered sink (g.control c).notifier (⟨.control c, v⟩ :: h) := by
  rw [Shared.notifier_control]
  cases c with
  | bind x =>
    refine ⟨rfl, Notifier.nodup_bind hd.nodup, fun name evs => ?_⟩
    rw [Notifier.mem_bind]
    -- the receiver of that name is a new one, with nothing sent to it
    by_cases hx : name = x
    · have opened : lifetime? sink name (⟨.control (.bind x), v⟩ :: h) = some [] := if_pos hx
      unfold inbox?
      rw [if_pos hx, opened, Option.map_some, Option.some.injEq]
      exact eq_comm
    · have kept : lifetime? sink name (⟨.control (.bind x), v⟩ :: h) =
          (lifetime? sink name h).map (_ :: ·) := if_neg hx
      rw [if_neg hx, hd.mem name evs, inbox?_cons kept fun _ => rfl]
  | attach x =>
    -- only where events go is changed, not who is there
    refine ⟨rfl, hd.nodup, fun name evs => ?_⟩
    rw [inbox?_cons rfl fun _ => rfl]
    exact hd.mem name evs
  | close x =>
    refine ⟨hd.bound, Notifier.nodup_close hd.nodup, fun name evs => ?_⟩
    rw [Notifier.mem_close]
    -- the receiver is gone, and events that still go to its name with it
    by_cases hx : name = x
    · have closed : lifetime? sink name (⟨.control (.close x), v⟩ :: h) = none := if_pos hx
      unfold inbox?
      rw [closed, Option.map_none]
      simp [hx]
    · have kept : lifetime? sink name (⟨.control (.close x), v⟩ :: h) =
          (lifetime? sink name h).map (_ :: ·) := if_neg hx
      rw [hd.mem name evs, inbox?_cons kept fun _ => rfl]
      exact and_iff_right hx
  | _ => exact hd.congr rfl fun _ => inbox?_cons rfl fun _ => rfl

end Delivered

/-! ### The invariant -/

/-- Every load has its answer. -/
def Settled (attempts : List (Path × Option Bool)) : Prop :=
  ∀ a ∈ attempts, a.2 ≠ none

/-- How far the announcements are with the loop at a point: in a load one is ahead of the calls, or
one load has no answer yet. -/
def Traced (h : List Entry) : Point → Prop
  | .closing rom | .asking rom =>
    events h = announced h ++ [.started rom] ∧ Settled (attempts h)
  | .inLoad _ _ => events h = announced h ∧ Settled (attempts h).tail
  | _ => events h = announced h ∧ Settled (attempts h)

/-- What holds with the loop at a point. -/
structure Noted (sink : Sink) (s : Scheduler σ) (p : Point) : Prop where
  past : Throughout (Announced sink) s.history
  delivered : Delivered sink s.shared.notifier s.history
  traced : Traced s.history p

/-- The newest attempt is announced last. -/
theorem announced_of_attempts {a : Path × Option Bool} {rest : List (Path × Option Bool)}
    (ha : attempts h = a :: rest) :
    announced h = rest.reverse.flatMap announcement ++ announcement a := by
  unfold announced
  rw [ha, List.reverse_cons, List.flatMap_append, List.flatMap_singleton]

/-- With its answer a load that had none is announced to the end. -/
theorem announced_of_answer {h' : List Entry} {rom : Path} {a : Option Bool}
    {rest : List (Path × Option Bool)} {later : List LoadEvent}
    (asked : attempts h = (rom, none) :: rest) (given : attempts h' = (rom, a) :: rest)
    (hl : announcement (rom, a) = announcement (rom, none) ++ later) :
    announced h' = announced h ++ later := by
  calc announced h'
      = rest.reverse.flatMap announcement ++ announcement (rom, a) := announced_of_attempts given
    _ = rest.reverse.flatMap announcement ++ announcement (rom, none) ++ later := by
      rw [hl, List.append_assoc]
    _ = announced h ++ later := by rw [announced_of_attempts asked]

/-- What sends nothing and asks for no load leaves the announcements as they are. -/
theorem Traced.congr {h' : List Entry} {p : Point} (ht : Traced h p)
    (he : emissions h' = emissions h) (ha : attempts h' = attempts h) : Traced h' p := by
  have same : events h' = events h ∧ announced h' = announced h := by
    unfold events announced
    rw [he, ha]
    exact ⟨rfl, rfl⟩
  cases p <;> simpa only [Traced, same.1, same.2, ha] using ht

/-- A part of a tick that may fail, with nothing in between left to announce. -/
theorem Traced.after {p : Point} (ht : events h = announced h ∧ Settled (attempts h))
    (hp : Traced h p) (r : Except SchedulerError Unit) : Traced h (.after r p) := by
  cases r with
  | ok u => exact hp
  | error error => exact ht

namespace Noted

variable {e : Engine σ} {s s' : Scheduler σ} {p p' : Point}

/-- What is silent and leaves the notifier alone keeps all. -/
theorem silent (hn : Noted sink s p) (new : List Entry) (hh : s'.history = new ++ s.history)
    (hx : ∀ x ∈ new, x.action.isSilent = true) (hi : s'.shared.notifier = s.shared.notifier)
    (hp : ∀ h, Traced h p → Traced h p') : Noted sink s' p' := by
  have unheard : Unheard sink s.history s'.history := by
    rw [hh]
    exact unheard_append hx
  refine ⟨?_, ?_, hp _ (hn.traced.congr unheard.emissions unheard.attempts)⟩
  · rw [hh]
    exact throughout_append hn.past fun x hm older => .of_silent (hx x hm)
  · rw [hi]
    exact hn.delivered.congr unheard.bound unheard.inbox

theorem same (hn : Noted sink s p) (hh : s'.history = s.history)
    (hi : s'.shared.notifier = s.shared.notifier) (hp : ∀ h, Traced h p → Traced h p') :
    Noted sink s' p' :=
  hn.silent [] hh (fun _ hx => absurd hx List.not_mem_nil) hi hp

theorem one (hn : Noted sink s p) {x : Entry} (hh : s'.history = x :: s.history)
    (hx : x.action.isSilent = true) (hi : s'.shared.notifier = s.shared.notifier)
    (hp : ∀ h, Traced h p → Traced h p') : Noted sink s' p' :=
  hn.silent [x] hh (fun _ hy => List.mem_singleton.mp hy ▸ hx) hi hp

/-- A section of the audio lock sends no event. -/
theorem withAudio (hn : Noted sink s p) (change : Audio → Audio × Option Bool)
    (hp : ∀ h, Traced h p → Traced h p') : Noted sink (s.withAudio e change) p' := by
  refine hn.silent _ (withAudio_history ..) told_isSilent ?_ hp
  rw [withAudio_shared]

/-- Nor does closing the ROM. -/
theorem closeRom (hn : Noted sink s p) (hp : ∀ h, Traced h p → Traced h p') :
    Noted sink (s.closeRom e) p' := by
  obtain ⟨-, heq⟩ | ⟨-, heq⟩ := closeRom_cases e s
  · rw [heq]
    exact hn.same rfl rfl hp
  · rw [heq]
    exact hn.one rfl rfl rfl hp

/-- A controller acts where the announcements are not ahead of the calls. -/
theorem control (hn : Noted sink s p) (hp : p.Open) (c : Control) :
    Noted sink (s.control e c) p := by
  -- controls come where the announcements are level with the loads
  have level : events s.history = announced s.history := by
    have traced := hn.traced
    cases p with
    | closing | asking => exact hp.elim
    | _ => exact traced.1
  have recorded : Noted sink ((s.record (.control c)).modify (·.control c)) p := by
    refine ⟨throughout_cons.mpr ⟨⟨nofun, nofun, fun _ _ => level⟩, hn.past⟩, ?_, ?_⟩
    · exact hn.delivered.control c s.view
    · exact hn.traced.congr rfl rfl
  rw [control_eq]
  exact recorded.silent _ (tellMuted_history ..) told_isSilent (by rw [tellMuted_shared])
    fun _ ht => ht

/-- The load is asked for once its beginning was announced. -/
theorem load {rom : Path} {accepted : Bool} (hn : Noted sink s (.asking rom)) :
    Noted sink (s.record (.call (.load rom))) (.inLoad rom accepted) := by
  obtain ⟨past, delivered, traced, settled⟩ := hn
  refine ⟨throughout_cons.mpr ⟨⟨nofun, nofun, nofun⟩, past⟩, ?_, ?_, settled⟩
  · exact delivered.congr rfl fun _ => inbox?_cons rfl fun _ => rfl
  · -- with the call the announcement that was ahead belongs to a load
    have asked : attempts (s.record (.call (.load rom))).history =
        (rom, none) :: attempts s.history := rfl
    rw [announced_of_attempts asked]
    exact traced

end Noted

/-- The bound sink gets an event, and at the end of a load what came of it shows. -/
theorem Delivered.announce {n : Notifier} (hd : Delivered sink n h)
    (ht : Throughout (Announced sink) h) (event : LoadEvent) (v : View)
    (ho : ∀ rom, event = .ended rom → ∃ accepted rest, attempts h = (rom, some accepted) :: rest ∧
      (accepted = true → v.rom? = some rom ∧ v.paused = false) ∧
      (accepted = false → v.rom? = none)) :
    Throughout (Announced sink) (⟨.emit event n.bound n.listening, v⟩ :: h) ∧
      Delivered sink (n.emit event) (⟨.emit event n.bound n.listening, v⟩ :: h) := by
  refine ⟨throughout_cons.mpr ⟨⟨?_, ?_, nofun⟩, ht⟩, hd.emit event n.listening v⟩
  · intro event' name delivered ha
    cases ha
    exact ⟨hd.bound, hd.listening⟩
  · intro rom name delivered ha
    cases ha
    exact ho rom rfl

/-- The engine's answer to a load is on record before it is announced. -/
theorem Delivered.answered {n : Notifier} {a : Action} {v : View} (hd : Delivered sink n h)
    (ht : Throughout (Announced sink) h) (ha : (∃ rom, a = .accept rom) ∨ ∃ rom, a = .reject rom) :
    Throughout (Announced sink) (⟨a, v⟩ :: h) ∧ Delivered sink n (⟨a, v⟩ :: h) := by
  obtain ⟨rom, rfl⟩ | ⟨rom, rfl⟩ := ha
  all_goals
    refine ⟨throughout_cons.mpr ⟨⟨nofun, nofun, nofun⟩, ht⟩, ?_⟩
    exact hd.congr rfl fun _ => inbox?_cons rfl fun _ => rfl

namespace Noted

variable {e : Engine σ} {s s' : Scheduler σ} {p p' : Point} {rom : Path} {answered : Bool}
  {rest : List (Path × Option Bool)}

/-- The engine accepted the load: its end is announced once the ROM shows and the pause is over. -/
theorem accept (hn : Noted sink s (.inLoad rom answered)) (now : Nat)
    (ha : attempts s.history = (rom, none) :: rest) :
    Noted sink (s.acceptRom e rom now) .configuring := by
  obtain ⟨past, delivered, traced, settled⟩ := hn
  have given : attempts (⟨.accept rom, s.view⟩ :: s.history) = (rom, some true) :: rest := by
    change answer true (attempts s.history) = _
    rw [ha]
    rfl
  obtain ⟨past, delivered⟩ := delivered.answered (v := s.view) past (.inl ⟨rom, rfl⟩)
  obtain ⟨past, delivered⟩ := delivered.announce past (.ended rom)
    { s.view with rom? := some rom, paused := false } fun rom' hr => by
      -- the view of the announcement is that of a ROM that shows and is not paused
      cases hr
      exact ⟨true, rest, given, fun _ => ⟨rfl, rfl⟩, nofun⟩
  refine ⟨past, delivered, ?_, ?_⟩
  · -- the load had one event while it had no answer, and now has two
    calc events (s.acceptRom e rom now).history
        = events s.history ++ [.ended rom] := by
            rw [acceptRom_history, events_emit]
            rfl
      _ = announced s.history ++ [.ended rom] := by rw [traced]
      _ = announced (⟨.accept rom, s.view⟩ :: s.history) := (announced_of_answer ha given rfl).symm
  · change Settled (attempts (⟨.accept rom, s.view⟩ :: s.history))
    rw [ha] at settled
    rw [given]
    exact List.forall_mem_cons.mpr ⟨nofun, settled⟩

/-- The engine refused the load, and no ROM was open. -/
theorem reject (hn : Noted sink s (.inLoad rom answered)) (hr : s.shared.rom? = none)
    (ha : attempts s.history = (rom, none) :: rest) :
    Noted sink (s.rejectRom rom) .configuring := by
  obtain ⟨past, delivered, traced, settled⟩ := hn
  have given : attempts (⟨.reject rom, s.view⟩ :: s.history) = (rom, some false) :: rest := by
    change answer false (attempts s.history) = _
    rw [ha]
    rfl
  obtain ⟨past, delivered⟩ := delivered.answered (v := s.view) past (.inr ⟨rom, rfl⟩)
  obtain ⟨past, delivered⟩ := delivered.announce past (.ended rom) s.view fun rom' hr' => by
    cases hr'
    exact ⟨false, rest, given, nofun, fun _ => hr⟩
  obtain ⟨past, delivered⟩ := delivered.announce past (.failed rom) s.view nofun
  refine ⟨past, delivered, ?_, ?_⟩
  · -- and a load that was refused has three
    calc events (s.rejectRom rom).history
        = events s.history ++ [.ended rom] ++ [.failed rom] := by
            rw [rejectRom_history, events_emit, events_emit]
            rfl
      _ = announced s.history ++ [.ended rom, .failed rom] := by
        rw [traced, List.append_assoc]
        rfl
      _ = announced (⟨.reject rom, s.view⟩ :: s.history) := (announced_of_answer ha given rfl).symm
  · change Settled (attempts (⟨.reject rom, s.view⟩ :: s.history))
    rw [ha] at settled
    rw [given]
    exact List.forall_mem_cons.mpr ⟨nofun, settled⟩

/-- The beginning of a load is announced before the engine is asked for it. -/
theorem start (hn : Noted sink s (.starting rom)) :
    Noted sink (s.emit (.started rom)) (.closing rom) := by
  obtain ⟨past, delivered, traced, settled⟩ := hn
  obtain ⟨past, delivered⟩ := delivered.announce past (.started rom) s.view nofun
  refine ⟨past, delivered, ?_, settled⟩
  change events (_ :: s.history) = announced s.history ++ _
  rw [events_emit, traced]

end Noted

section Annotation

variable {e : Engine σ} {s s' : Scheduler σ} {p p' : Point}

/-- **The annotation is kept by every step of the loop.** -/
theorem noted_step (ha : At s p) (hn : Noted sink s p) (hl : Loop e p s p' s') :
    Noted sink s' p' := by
  cases hl with
  | create hc =>
    obtain ⟨files, rfl⟩ := createTree_cases hc
    exact hn.one rfl rfl rfl fun _ ht => Traced.after (p := .purging) ht ht _
  | purge hc =>
    obtain ⟨files, rfl | ⟨removed, rfl⟩⟩ := purgeImages_cases hc
    · exact hn.same rfl rfl fun _ ht => Traced.after (p := .directing) ht ht _
    · exact hn.one rfl rfl rfl fun _ ht => Traced.after (p := .directing) ht ht _
  | setUpEnds => exact hn.same rfl rfl fun _ ht => Traced.after (p := .checking) ht ht _
  | check => exact hn.same rfl rfl fun _ ht => Traced.after (p := .engaging) ht ht _
  | choose => exact hn.same rfl rfl fun _ ht => Traced.after (p := .running) ht ht _
  | engage =>
    have engaged : Noted sink (s.withAudio e Audio.engage) .loading :=
      hn.withAudio _ fun _ ht => ht
    exact engaged.silent [_, _] rfl (by simp [Action.isSilent]) rfl fun _ ht => ht
  | announce => exact hn.start
  | load => exact hn.load.same rfl rfl fun _ ht => ht
  | accept now =>
    obtain ⟨-, -, -, rest, asked⟩ := ha
    exact hn.accept now asked
  | reject =>
    -- the ROM of before was closed ahead of the load, so none shows when the load has failed
    obtain ⟨-, -, closed, rest, asked⟩ := ha
    exact hn.reject closed asked
  | apply hm =>
    obtain ⟨-, rfl, rfl⟩ | ⟨mode, -, ⟨rfl, rfl⟩ | ⟨rfl, rfl⟩⟩ := applyMode_cases hm
    · exact hn.same rfl rfl fun _ ht => ht
    · exact hn.one rfl rfl rfl fun _ ht => ht
    · exact hn.same rfl rfl fun _ ht => ht
  | @present _ n now =>
    obtain ⟨rate, window, heq⟩ := present_cases (s := s) n now
    rw [heq]
    exact hn.one rfl rfl rfl fun _ ht => ht
  | unmute => exact hn.withAudio _ fun _ ht => ht
  | close | empty => exact hn.closeRom fun _ ht => ht
  | halt | first | begin | direct | setUp | configure | run | step | publish | stop | abort
  | vanish => exact hn.one rfl rfl rfl fun _ ht => ht
  | skip | noLoad | takeLoad | configured | rest | lock | again | finish | giveUp | abandon | park
  | sleep | requestStop => exact hn.same rfl rfl fun _ ht => ht

/-- Along the way the protocol holds too, so a load that ends is the one without an answer. -/
theorem noted_reached {s₀ : Scheduler σ} (ho : Obeyed s₀) (ha : At s₀ .between)
    (hn : Noted sink s₀ .between) (hr : Reached e s₀ p s) : Noted sink s p := by
  induction hr with
  | start => exact hn
  | loop hr hl ih => exact noted_step (annotated_reached ho ha hr).2 ih hl
  | control _ hp c ih => exact ih.control hp c
  | outside _ files cheats ih => exact ih.same rfl rfl fun _ ht => ht

end Annotation

/-- At the start the only receiver is that of the sink, and it has got nothing. -/
theorem delivered_start (sink : Sink) : Delivered sink (.ofSink sink) [] := by
  refine ⟨rfl, by simp [Notifier.names, Notifier.ofSink], fun name evs => ?_⟩
  change (name, evs) ∈ [(sink, [])] ↔ (if name = sink then some [] else none).map _ = _
  rw [List.mem_singleton, Prod.mk.injEq]
  split
  · next hs =>
    rw [Option.map_some, Option.some.injEq, eq_comm (a := evs)]
    exact and_iff_right hs
  · next hs => simp [hs]

/-- **Every load is announced, and nothing else.** In every run the events are those of the
engine's loads, in the order of the loads, each of which has its answer; every entry is as the law
of events says; and the receivers that are there have got what was sent to them in their time. -/
theorem load_events {e : Engine σ} {engine : σ} {workingDirectory : Path} {modes : Modes}
    {files : FileTree} {now : Nat} {p : Point} {s : Scheduler σ}
    (hr : Run e (.start e engine workingDirectory modes sink files now) p s) :
    events s.history = (attempts s.history).reverse.flatMap announcement ∧
      (∀ a ∈ attempts s.history, a.2 ≠ none) ∧
      Throughout (Announced sink) s.history ∧
      s.shared.notifier.names.Nodup ∧
      ∀ name evs, (name, evs) ∈ s.shared.notifier.inboxes ↔
        inbox? sink name s.history = some evs := by
  obtain ⟨ho, ha⟩ := annotated_start e engine workingDirectory modes sink files now
  have begun : Noted sink (.start e engine workingDirectory modes sink files now) .between :=
    ⟨throughout_nil, delivered_start sink, rfl, by simp [Settled, attempts, Scheduler.start]⟩
  obtain ⟨past, delivered, traced⟩ := noted_reached ho ha begun hr.reached
  -- between its events a run is not in the middle of a load
  have settled : events s.history = announced s.history ∧ Settled (attempts s.history) := by
    have resting := hr.resting
    cases p with
    | between | failed | broken | released => exact traced
    | _ => exact resting.elim
  exact ⟨settled.1, settled.2, past, delivered.nodup, delivered.mem⟩

/-- A load that ends well, another sink, and a load of a ROM that is not there. -/
theorem load_events_rebound :
    let e := TestPattern.engine
    let s₁ := ((sample.control e (.load sampleRom)).tick e {} 1).2.control e (.bind "other")
    let s₂ := ((s₁.control e (.load (.ofString "/b"))).tick e {} 1).2
    events s₂.history = (attempts s₂.history).reverse.flatMap announcement ∧
      attempts s₂.history = [(.ofString "/b", some false), (sampleRom, some true)] ∧
      Throughout (Announced "main") s₂.history ∧
      inbox? "main" "main" s₂.history = some [.started sampleRom, .ended sampleRom] ∧
      ("main", [.started sampleRom, .ended sampleRom]) ∈ s₂.shared.notifier.inboxes := by
  intro e s₁ s₂
  have rebound : Run e sample .between s₁ :=
    ((Run.start.control _).done {} 1 (.stepped 1) (by decide)).control _
  have refused : Run e sample .between s₂ := (rebound.control _).done {} 1 .parked (by decide)
  obtain ⟨trace, -, law, -, inboxes⟩ := load_events refused
  -- what came before the other one was bound stays where it was
  have kept : inbox? "main" "main" s₂.history = some [.started sampleRom, .ended sampleRom] := by
    decide
  exact ⟨trace, by decide, law, kept, (inboxes _ _).mpr kept⟩

end EmuScheduler
