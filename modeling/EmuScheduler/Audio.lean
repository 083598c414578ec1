/-!
# Muting

Whether sound is muted, and whether the engine is told so. Pausing mutes and running unmutes; both
may happen at any moment from different sides, so each of the operations is one section that
nothing else can interrupt. An operation gives the mute state that the engine has to be told, if
any.
-/

namespace EmuScheduler

/-- The mute state that controllers see. -/
structure Audio where
  muted : Bool := true
  /-- Whether the engine may be told; before it is set up it may not. -/
  engaged : Bool
  deriving DecidableEq, Repr

namespace Audio

/-- Mutes, unless it is muted already. -/
def mute (a : Audio) : Audio × Option Bool :=
  if a.muted then (a, none)
  else ({ a with muted := true }, if a.engaged then some true else none)

/-- Unmutes, unless a pause was requested in the meantime. -/
def unmute (a : Audio) (paused : Bool) : Audio × Option Bool :=
  if a.muted && a.engaged && !paused then ({ a with muted := false }, some false) else (a, none)

/-- Begins to tell the engine, the present state first. -/
def engage (a : Audio) : Audio × Option Bool :=
  ({ a with engaged := true }, some a.muted)

variable (a : Audio) (paused : Bool)

/-- After a muting it is quiet, whether it was before or not. -/
@[simp] theorem mute_muted : a.mute.1.muted = true := by
  unfold mute
  split
  · assumption
  · rfl

@[simp] theorem mute_engaged : a.mute.1.engaged = a.engaged := by
  unfold mute
  split <;> rfl

@[simp] theorem unmute_engaged : (a.unmute paused).1.engaged = a.engaged := by
  unfold unmute
  split <;> rfl

/-- A muting of what is muted does nothing and tells nothing. -/
theorem mute_of_muted (h : a.muted = true) : a.mute = (a, none) :=
  if_pos h

/-- An unmuting during a pause does nothing either. -/
theorem unmute_of_paused : a.unmute true = (a, none) :=
  if_neg (by simp)

/-- The engine is told to be quiet only if it was not. -/
theorem eq_of_mute {muted : Bool} (h : a.mute.2 = some muted) : muted = true ∧ a.muted = false := by
  unfold mute at h
  split at h
  · exact absurd h nofun
  · next sounds =>
    dsimp only at h
    split at h
    · exact ⟨(Option.some.inj h).symm, by simpa using sounds⟩
    · exact absurd h nofun

/-- The engine is told to sound only if it was quiet and is not to pause. -/
theorem eq_of_unmute {muted : Bool} (h : (a.unmute paused).2 = some muted) :
    muted = false ∧ a.muted = true ∧ paused = false := by
  unfold unmute at h
  split at h
  · -- all three parts of the guard held, or nothing would be told
    next quiet =>
    rw [Bool.and_eq_true, Bool.and_eq_true, Bool.not_eq_true'] at quiet
    exact ⟨(Option.some.inj h).symm, quiet.1.1, quiet.2⟩
  · exact absurd h nofun

/-- After a muting an engine that may be told was last told what controllers see. -/
theorem told_mute (h : a.engaged = true) : a.mute.2.getD a.muted = a.mute.1.muted := by
  unfold mute
  rw [h]
  split <;> rfl

/-- After an unmuting too. -/
theorem told_unmute : (a.unmute paused).2.getD a.muted = (a.unmute paused).1.muted := by
  unfold unmute
  split <;> rfl

/-- Sound comes on where nothing forbids it. -/
theorem unmute_muted (h : a.engaged = true) : (a.unmute false).1.muted = false := by
  unfold unmute
  rw [h]
  cases hm : a.muted <;> simp [hm]

end Audio
end EmuScheduler
