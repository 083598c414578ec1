import EmuScheduler.Engine.TestPattern
import Mathlib.Algebra.Ring.Nat

/-!
# The test pattern scrolls

What the engine that draws the test pattern shows depends on one number only, that of the steps
since it last accepted a ROM (`PatternRun.frames_eq`). `pattern_scrolls` gives each pixel in terms
of it and says how two pictures of a run differ: if no ROM was accepted in between, the later one is
the earlier one moved to the left by a column for each step, where what leaves a row comes back at
its other end. So it is the same one after 256 steps, and after none, whatever else was done.

A `PatternRun` is any course of loads, steps and orders from the creation of the engine. It lists
what was done, newest first.
-/

namespace EmuScheduler

/-- What was done with the engine. -/
inductive PatternEvent where
  | ordered (o : Order)
  | setUp
  /-- It was asked to load a ROM, and this was its answer. -/
  | loaded (rom : Path) (accepted : Bool)
  | stepped
  deriving DecidableEq, Repr

namespace TestPattern

/-! ## Colors -/

/-- The color without blue that has so much red and green, both below 256. -/
def color (red green : Nat) : UInt32 :=
  (0xFF000000 : UInt32) ||| (UInt32.ofNat red <<< 16) ||| (UInt32.ofNat green <<< 8)

/-- A byte that is shifted within a word loses nothing. -/
theorem toNat_byte_shiftLeft {n k : Nat} (hn : n < 2 ^ 8) (hk : k ≤ 24) :
    (UInt32.ofNat n <<< UInt32.ofNat k).toNat = n * 2 ^ k := by
  have word : n < UInt32.size := Nat.lt_trans hn (by decide)
  have places : (UInt32.ofNat k).toNat = k :=
    UInt32.toNat_ofNat_of_lt' (Nat.lt_of_le_of_lt hk (by decide))
  have within : n * 2 ^ k < 2 ^ 32 := calc
    n * 2 ^ k < 2 ^ 8 * 2 ^ k := Nat.mul_lt_mul_of_pos_right hn (Nat.two_pow_pos k)
    _ ≤ 2 ^ 8 * 2 ^ 24 := Nat.mul_le_mul_left _ (Nat.pow_le_pow_right Nat.two_pos hk)
  rw [UInt32.toNat_shiftLeft, UInt32.toNat_ofNat_of_lt' word, places, Nat.shiftLeft_eq,
    Nat.mod_eq_of_lt (Nat.lt_of_le_of_lt hk (by decide)), Nat.mod_eq_of_lt within]

/-- The bytes of a color lie side by side. -/
theorem toNat_color {red green : Nat} (hr : red < 2 ^ 8) (hg : green < 2 ^ 8) :
    (color red green).toNat = 2 ^ 16 * (0xFF00 + red) + green * 2 ^ 8 := by
  have redByte : (UInt32.ofNat red <<< 16).toNat = red * 2 ^ 16 :=
    toNat_byte_shiftLeft hr (by decide)
  have greenByte : (UInt32.ofNat green <<< 8).toNat = green * 2 ^ 8 :=
    toNat_byte_shiftLeft hg (by decide)
  -- each byte comes where the number before it has only zeros
  have upper : 2 ^ 24 * 0xFF ||| red * 2 ^ 16 = 2 ^ 16 * (0xFF00 + red) := by
    rw [← Nat.two_pow_add_eq_or_of_lt (by omega)]
    omega
  calc (color red green).toNat
      = 2 ^ 24 * 0xFF ||| red * 2 ^ 16 ||| green * 2 ^ 8 := by
        rw [color, UInt32.toNat_or, UInt32.toNat_or, redByte, greenByte]
        rfl
    _ = 2 ^ 16 * (0xFF00 + red) + green * 2 ^ 8 := by
        rw [upper, ← Nat.two_pow_add_eq_or_of_lt (by omega)]

/-- The red of a colour can be told from it. -/
theorem red_injective {red red' green : Nat} (hr : red < 2 ^ 8) (hr' : red' < 2 ^ 8)
    (hg : green < 2 ^ 8) (same : color red green = color red' green) : red = red' := by
  have same := congrArg UInt32.toNat same
  rw [toNat_color hr hg, toNat_color hr' hg] at same
  omega

/-! ## Pictures -/

/-- Red grows along the row, from where the steps have moved it to, and green from row to row. -/
theorem pixel_eq (n i : Nat) : pixel n i = color ((i + n) % 256) (i / 256 % 256) := by
  rw [Nat.add_mod]
  rfl

/-- Every position of a picture has its pixel. -/
theorem get?_picture (n : Nat) {i : Nat} (hi : i < frameSize) :
    (picture n).get? i = some (pixel n i) := by
  simp [FrameBuffer.get?, picture, hi]

/-- More steps move the picture to the left, and around the ends of each row. -/
theorem pixel_scrolled (n k row : Nat) {column : Nat} (hc : column < screenWidth) :
    pixel (n + k) (row * screenWidth + column) =
      pixel n (row * screenWidth + (column + k) % screenWidth) := by
  have width : screenWidth = 256 := rfl
  rw [width] at hc ⊢
  have red : (row * 256 + column + (n + k)) % 256 = (row * 256 + (column + k) % 256 + n) % 256 := by
    omega
  have green : (row * 256 + column) / 256 = (row * 256 + (column + k) % 256) / 256 := by omega
  rw [pixel_eq, pixel_eq, red, green]

/-- There are as many pictures as a row has columns. -/
theorem picture_eq_iff (n m : Nat) : picture n = picture m ↔ n % 256 = m % 256 := by
  constructor
  · intro same
    -- the first pixel alone tells the phase of the pattern
    have first : some (pixel n 0) = some (pixel m 0) := by
      rw [← get?_picture n (by decide), ← get?_picture m (by decide), same]
    have red := Option.some.inj first
    rw [pixel_eq, pixel_eq] at red
    have red := red_injective (Nat.mod_lt _ (by decide)) (Nat.mod_lt _ (by decide)) (by decide) red
    rwa [Nat.zero_add, Nat.zero_add] at red
  · intro same
    have pixels : pixel n = pixel m := by
      funext i
      rw [pixel_eq, pixel_eq, Nat.add_mod, same, ← Nat.add_mod]
    rw [picture, picture, pixels]

/-! ## Runs -/

/-- The steps since the last ROM was accepted, or else since the engine was made. -/
def stepsSince : List PatternEvent → Nat
  | [] => 0
  | .stepped :: h => stepsSince h + 1
  | .loaded _ true :: _ => 0
  | .loaded _ false :: h | .ordered _ :: h | .setUp :: h => stepsSince h

/-- What the engine can come to, with what was done to it. -/
inductive PatternRun : TestPattern → List PatternEvent → Prop
  | made : PatternRun {} []
  | order {s : TestPattern} {h : List PatternEvent} (run : PatternRun s h) (o : Order) :
      PatternRun (engine.obey s o) (.ordered o :: h)
  | setUp {s : TestPattern} {h : List PatternEvent} (run : PatternRun s h) :
      PatternRun (engine.setUp s).engine (.setUp :: h)
  | load {s : TestPattern} {h : List PatternEvent} (run : PatternRun s h) (files : FileTree)
      (rom : Path) :
      PatternRun (engine.load s files rom).engine
        (.loaded rom (engine.load s files rom).answer :: h)
  | step {s : TestPattern} {h : List PatternEvent} (run : PatternRun s h) (buffer : FrameBuffer) :
      PatternRun (engine.step s buffer).engine (.stepped :: h)

variable {s : TestPattern} {h events : List PatternEvent}

/-- What the next step makes of a buffer. -/
def drawn (s : TestPattern) (buffer : FrameBuffer) : FrameBuffer :=
  (engine.step s buffer).answer.buffer

/-- Steps are added up, as long as no ROM is accepted. -/
theorem stepsSince_append (kept : ∀ rom, .loaded rom true ∉ events) :
    stepsSince (events ++ h) = stepsSince h + events.count .stepped := by
  induction events with
  | nil => rfl
  | cons x events ih =>
    have before := ih fun rom there => kept rom (List.mem_cons_of_mem x there)
    cases x with
    | stepped =>
      rw [List.count_cons_self, List.cons_append, stepsSince, before, Nat.add_assoc]
    | loaded rom accepted =>
      cases accepted with
      | true => exact absurd List.mem_cons_self (kept rom)
      | false => simpa [stepsSince] using before
    | ordered o => simpa [stepsSince] using before
    | setUp => simpa [stepsSince] using before

/-- A ROM is accepted if it is a file. -/
theorem answer_load (s : TestPattern) (files : FileTree) (rom : Path) :
    (engine.load s files rom).answer = files.isFile rom := by
  change (s.load files rom).1 = files.isFile rom
  unfold load
  split
  · next file => exact file.symm
  · next other => exact (eq_false_of_ne_true other).symm

/-- **The engine counts the steps since it last accepted a ROM**, modulo 2^64. -/
theorem PatternRun.frames_eq (run : PatternRun s h) : s.frames = .ofNat (stepsSince h) := by
  -- one case for each thing that can be done; an accepted ROM makes the pattern begin anew
  induction run with
  | made => rfl
  | order run o ih => cases o <;> exact ih
  | setUp run ih => exact ih
  | @load s h run files rom ih =>
    change (s.load files rom).2.frames =
      .ofNat (stepsSince (.loaded rom (s.load files rom).1 :: h))
    unfold TestPattern.load
    split
    · rfl
    · exact ih
  | step run buffer ih => exact (congrArg (· + 1) ih).trans (UInt64.ofNat_add _ 1).symm

/-- The picture is that of all the steps, because the count loses only multiples of 256. -/
theorem PatternRun.drawn_eq (run : PatternRun s h) (buffer : FrameBuffer) :
    drawn s buffer = picture (stepsSince h) := by
  change picture s.frames.toNat = picture (stepsSince h)
  rw [run.frames_eq, picture_eq_iff, UInt64.toNat_ofNat']
  exact Nat.mod_mod_of_dvd _ (by decide)

/-- **The test pattern scrolls.** After any run, with `n` steps since the last ROM was accepted:

* The next step gives every pixel, whatever the buffer had in it, the color that has the column
  moved by `n` for its red, the row for its green, both modulo 256, and no blue.
* If the run goes on without a ROM being accepted, whatever is refused, closed, set or muted, the
  next step then gives the same picture, moved to the left by as many columns as steps were made and
  around the ends of each row. It is the same as before if and only if their number is a multiple
  of 256. -/
theorem pattern_scrolls (run : PatternRun s h) (buffer : FrameBuffer) :
    (∀ i < frameSize, (drawn s buffer).get? i = some
        ((0xFF000000 : UInt32) ||| (UInt32.ofNat ((i + stepsSince h) % 256) <<< 16) |||
          (UInt32.ofNat (i / 256 % 256) <<< 8))) ∧
      ∀ (s' : TestPattern) (events : List PatternEvent) (buffer' : FrameBuffer),
        PatternRun s' (events ++ h) → (∀ rom, .loaded rom true ∉ events) →
          (∀ row < 2 * screenHeight, ∀ column < screenWidth,
            (drawn s' buffer').get? (row * screenWidth + column) =
              (drawn s buffer).get?
                (row * screenWidth + (column + events.count .stepped) % screenWidth)) ∧
          (drawn s' buffer' = drawn s buffer ↔ 256 ∣ events.count .stepped) := by
  rw [run.drawn_eq]
  refine ⟨fun i hi => ?_, fun s' events buffer' run' kept => ?_⟩
  · rw [get?_picture _ hi, pixel_eq]
    rfl
  · rw [run'.drawn_eq, stepsSince_append kept]
    refine ⟨fun row hrow column hc => ?_, ?_⟩
    · -- a column to the right that is taken modulo the width is in the same row
      have below : ∀ c < screenWidth, row * screenWidth + c < frameSize := by
        unfold frameSize screenSize screenWidth at *
        omega
      rw [get?_picture _ (below _ hc), get?_picture _ (below _ (Nat.mod_lt _ (by decide))),
        pixel_scrolled _ _ _ hc]
    · rw [picture_eq_iff]
      omega

/-- A ROM is closed after its first picture and another one is refused. The second picture is the
first one moved by a column. -/
theorem pattern_scrolls_closed :
    let files : FileTree :=
      { entries := [([[97]], .file [])], workingDirectory := [], distinct := by decide }
    let rom := Path.ofString "/a"
    let other := Path.ofString "/b"
    let s := (engine.load (engine.step (engine.setUp {}).engine .blank).engine files rom).engine
    let s' := (engine.load (engine.obey (engine.step s .blank).engine .closeRom) files other).engine
    let h : List PatternEvent := [.loaded rom true, .stepped, .setUp]
    let events : List PatternEvent := [.loaded other false, .ordered .closeRom, .stepped]
    PatternRun s h ∧ PatternRun s' (events ++ h) ∧ (∀ rom, .loaded rom true ∉ events) ∧
      (drawn s .blank).get? 255 = some 0xFFFF0000 ∧
      (drawn s' .blank).get? 255 = (drawn s .blank).get? 0 ∧
      drawn s' .blank ≠ drawn s .blank := by
  intro files rom other s s' h events
  have accepted (t : TestPattern) : (engine.load t files rom).answer = true := by
    rw [answer_load]
    decide +kernel
  have refused (t : TestPattern) : (engine.load t files other).answer = false := by
    rw [answer_load]
    decide +kernel
  have run : PatternRun s h := by
    have begun := (PatternRun.made.setUp.step .blank).load files rom
    rwa [accepted] at begun
  have further : PatternRun s' (events ++ h) := by
    have gone := ((run.step .blank).order .closeRom).load files other
    rwa [refused] at gone
  -- the second ROM is refused, so the pattern goes on from where it was
  have kept : ∀ rom, .loaded rom true ∉ events := by simp [events]
  have once : events.count .stepped = 1 := rfl
  obtain ⟨pixels, later⟩ := pattern_scrolls run .blank
  obtain ⟨moved, same⟩ := later s' events .blank further kept
  rw [once] at moved same
  exact ⟨run, further, kept, (pixels 255 (by decide)).trans (by decide),
    moved 0 (by decide) 255 (by decide), fun equal => absurd (same.1 equal) (by decide)⟩

end TestPattern
end EmuScheduler
