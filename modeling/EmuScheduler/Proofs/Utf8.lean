import EmuScheduler.Text.Utf8
import Mathlib.Tactic.SplitIfs

/-!
# UTF-8 there and back

Bytes that decode are the bytes of exactly one text: `decode_eq_some_iff`.

One half reads what was written: `scan` takes the one to four bytes of a character off again and
reports the character (`scan_encodeChar`).

The other half writes what was read. It is the one that overlong forms and surrogates could spoil,
and the ranges in `start` are there to keep them out. What a begun character promises is
`Spelled`: whatever bytes complete it, those and the ones before are how the character is written.
A first byte makes the promise, for which the ranges are needed, and one more byte keeps it by
definition; `next_cases` is the step and `encode_of_scan` the run.
-/

namespace EmuScheduler
namespace Utf8

theorem encode_cons (c : Char) (cs : List Char) :
    encode (c :: cs) = encodeChar c ++ encode cs := by
  simp [encode]

/-- The bytes of two texts one after the other. -/
theorem encode_append (cs ds : List Char) : encode (cs ++ ds) = encode cs ++ encode ds := by
  simp [encode]

/-- Reports without a malformed sequence are a text. -/
theorem mapM_id_eq_some_iff {reports : List (Option Char)} {cs : List Char} :
    reports.mapM id = some cs ↔ reports = cs.map some := by
  induction reports generalizing cs with
  | nil => cases cs <;> simp
  | cons report reports ih =>
    cases report with
    | none => cases cs <;> simp [List.mapM_cons]
    | some c =>
      cases cs with
      | nil => simp [List.mapM_cons, Option.bind_eq_some_iff]
      | cons d cs => simp [List.mapM_cons, Option.bind_eq_some_iff, ih, and_comm, and_assoc]

/-! ## Reading what was written -/

/-- The number of a character is no surrogate and at most U+10FFFF. -/
theorem toNat_range (c : Char) : c.toNat < 0xD800 ∨ 0xDFFF < c.toNat ∧ c.toNat < 0x110000 :=
  c.valid

theorem toNat_ofNat_byte {n : Nat} (h : n < 256) : (UInt8.ofNat n).toNat = n := by
  rw [UInt8.toNat_ofNat', Nat.mod_eq_of_lt h]

/-- The bytes of a character are scanned as that character, whatever comes behind. -/
theorem scan_encodeChar (c : Char) (bs : List UInt8) :
    scan none (encodeChar c ++ bs) = some c :: scan none bs := by
  have range := toNat_range c
  have whole : ∀ n, n = c.toNat → Char.ofNat n = c := fun n h => h ▸ Char.ofNat_toNat c
  unfold encodeChar
  dsimp only
  split_ifs with one two three
  · simp (disch := omega) only [List.cons_append, List.nil_append, scan, start, toNat_ofNat_byte,
      if_pos, whole]
  · simp (disch := omega) only [List.cons_append, List.nil_append, scan, start, Partial.push,
      toNat_ofNat_byte, if_pos, if_neg, whole]
  -- the first bytes with a range of their own for the second one are E0 and ED, then F0 and F4
  · obtain lead | lead | lead | lead : c.toNat / 4096 = 0 ∨ c.toNat / 4096 = 0xD ∨
        0 < c.toNat / 4096 ∧ c.toNat / 4096 < 0xD ∨ 0xD < c.toNat / 4096 := by omega
    all_goals
      simp (disch := omega) only [List.cons_append, List.nil_append, scan, start, Partial.push,
        toNat_ofNat_byte, if_pos, if_neg, whole]
  · obtain lead | lead | lead : c.toNat / 262144 = 0 ∨ c.toNat / 262144 = 4 ∨
        0 < c.toNat / 262144 ∧ c.toNat / 262144 < 4 := by omega
    all_goals
      simp (disch := omega) only [List.cons_append, List.nil_append, scan, start, Partial.push,
        toNat_ofNat_byte, if_pos, if_neg, whole]

/-- The bytes of a text are scanned as its characters. -/
theorem scan_encode (cs : List Char) : scan none (encode cs) = cs.map some := by
  induction cs with
  | nil => rfl
  | cons c cs ih => rw [encode_cons, scan_encodeChar, ih, List.map_cons]

/-! ## Writing what was read -/

/-- Whatever bytes complete a character, with `more` to come after the next one, it is written as
they are after those `before` them. -/
def Spelled (before : List UInt8) : (more low high value : Nat) → Prop
  | 0, low, high, value => ∀ b : UInt8, low ≤ b.toNat → b.toNat ≤ high →
    encodeChar (Char.ofNat (value * 64 + (b.toNat - 0x80))) = before ++ [b]
  | more + 1, low, high, value => ∀ b : UInt8, low ≤ b.toNat → b.toNat ≤ high →
    Spelled (before ++ [b]) more 0x80 0xBF (value * 64 + (b.toNat - 0x80))

/-- A number below 256 is the byte with that number. -/
theorem ofNat_eq_iff {n : Nat} (h : n < 256) (b : UInt8) : UInt8.ofNat n = b ↔ n = b.toNat := by
  rw [← UInt8.toNat_inj, toNat_ofNat_byte h]

/-- A number in the range is the character with that number. -/
theorem toNat_ofNat_of_range {n : Nat} (h : n < 0xD800 ∨ 0xDFFF < n ∧ n < 0x110000) :
    (Char.ofNat n).toNat = n := by
  have valid : n.isValidChar := h
  rw [Char.ofNat, dif_pos valid]
  rfl

/-- The first byte of two gives the upper five bits. -/
theorem spelled_two {a : UInt8} (h : 0xC2 ≤ a.toNat) (h' : a.toNat < 0xE0) :
    Spelled [a] 0 0x80 0xBF (a.toNat - 0xC0) := by
  intro b low high
  simp (disch := omega) only [encodeChar, toNat_ofNat_of_range, if_pos, if_neg, List.cons_append,
    List.nil_append, List.cons.injEq, ofNat_eq_iff, and_true]
  omega

/-- After E0 overlong forms are kept out, after ED surrogates. -/
theorem spelled_three {a : UInt8} {low high : Nat} (h : 0xE0 ≤ a.toNat) (h' : a.toNat < 0xF0)
    (hlow : 0x80 ≤ low) (hhigh : high ≤ 0xBF) (overlong : a.toNat = 0xE0 → 0xA0 ≤ low)
    (surrogate : a.toNat = 0xED → high ≤ 0x9F) : Spelled [a] 1 low high (a.toNat - 0xE0) := by
  intro b hb hb' c hc hc'
  simp (disch := omega) only [encodeChar, toNat_ofNat_of_range, if_pos, if_neg, List.cons_append,
    List.nil_append, List.cons.injEq, ofNat_eq_iff, and_true]
  omega

/-- After F0 overlong forms are kept out, after F4 numbers above U+10FFFF. -/
theorem spelled_four {a : UInt8} {low high : Nat} (h : 0xF0 ≤ a.toNat) (h' : a.toNat < 0xF5)
    (hlow : 0x80 ≤ low) (hhigh : high ≤ 0xBF) (overlong : a.toNat = 0xF0 → 0x90 ≤ low)
    (above : a.toNat = 0xF4 → high ≤ 0x8F) : Spelled [a] 2 low high (a.toNat - 0xF0) := by
  intro b hb hb' c hc hc' d hd hd'
  simp (disch := omega) only [encodeChar, toNat_ofNat_of_range, if_neg, List.cons_append,
    List.nil_append, List.cons.injEq, ofNat_eq_iff, and_true]
  omega

/-- What one byte makes of the reading so far. -/
def next : Option Partial → UInt8 → List (Option Char) × Option Partial
  | none, b => start b
  | some p, b => p.push b

theorem scan_cons (p? : Option Partial) (b : UInt8) (bs : List UInt8) :
    scan p? (b :: bs) = (next p? b).1 ++ scan (next p? b).2 bs := by
  cases p? <;> rfl

/-- The bytes that have been read of a begun character, with its promise. -/
inductive Pending : Option Partial → List UInt8 → Prop where
  | nothing : Pending none []
  | begun {before : List UInt8} {more low high value : Nat} :
    Spelled before more low high value → Pending (some ⟨more + 1, low, high, value⟩) before

/-- What came of the pending bytes and one more: a malformed sequence, or characters and pending
bytes that are written as they are. -/
def Kept (before : List UInt8) (b : UInt8) (r : List (Option Char) × Option Partial) : Prop :=
  none ∈ r.1 ∨ ∃ cs pending, r.1 = cs.map some ∧ Pending r.2 pending ∧
    encode cs ++ pending = before ++ [b]

/-- A byte that completes a character leaves nothing pending. -/
theorem Kept.complete {before : List UInt8} {b : UInt8} {c : Char}
    (h : encodeChar c = before ++ [b]) : Kept before b ([some c], none) :=
  .inr ⟨[c], [], rfl, .nothing, by simp [encode, h]⟩

/-- A byte that does not complete one is kept with those before it. -/
theorem Kept.begun {before : List UInt8} {b : UInt8} {more low high value : Nat}
    (h : Spelled (before ++ [b]) more low high value) :
    Kept before b ([], some ⟨more + 1, low, high, value⟩) :=
  .inr ⟨[], before ++ [b], rfl, .begun h, rfl⟩

/-- No byte is lost at the beginning of a character. -/
theorem kept_start (b : UInt8) : Kept [] b (start b) := by
  have byte : b.toNat < 256 := b.toNat_lt
  have ranges : b.toNat < 0x80 ∨ 0x80 ≤ b.toNat ∧ b.toNat < 0xC2 ∨ 0xF4 < b.toNat ∨
    0xC2 ≤ b.toNat ∧ b.toNat < 0xE0 ∨ b.toNat = 0xE0 ∨ b.toNat = 0xED ∨
    (0xE0 < b.toNat ∧ b.toNat < 0xF0) ∧ b.toNat ≠ 0xED ∨ b.toNat = 0xF0 ∨
    0xF0 < b.toNat ∧ b.toNat < 0xF4 ∨ b.toNat = 0xF4 := by omega
  obtain h | h | h | h | h | h | h | h | h | h := ranges
  -- a byte that is a character, two ranges that begin none, and then the first bytes of two, three
  -- and four, of which E0, ED, F0 and F4 restrict the byte after them
  · rw [show start b = ([some (Char.ofNat b.toNat)], none) by simp only [start, if_pos h]]
    refine .complete ?_
    simp (disch := omega) only [encodeChar, toNat_ofNat_of_range, if_pos, UInt8.ofNat_toNat,
      List.nil_append]
  · exact .inl (by simp (disch := omega) [start, if_pos, if_neg])
  · exact .inl (by simp (disch := omega) [start, if_neg])
  · have eq : start b = ([], some ⟨0 + 1, 0x80, 0xBF, b.toNat - 0xC0⟩) := by
      simp (disch := omega) only [start, if_pos, if_neg]
    exact eq ▸ .begun (spelled_two (by omega) (by omega))
  · have eq : start b = ([], some ⟨1 + 1, 0xA0, 0xBF, b.toNat - 0xE0⟩) := by simp [start, h]
    exact eq ▸ .begun (by apply spelled_three <;> omega)
  · have eq : start b = ([], some ⟨1 + 1, 0x80, 0x9F, b.toNat - 0xE0⟩) := by simp [start, h]
    exact eq ▸ .begun (by apply spelled_three <;> omega)
  · have eq : start b = ([], some ⟨1 + 1, 0x80, 0xBF, b.toNat - 0xE0⟩) := by
      simp (disch := omega) only [start, if_pos, if_neg]
    exact eq ▸ .begun (by apply spelled_three <;> omega)
  · have eq : start b = ([], some ⟨2 + 1, 0x90, 0xBF, b.toNat - 0xF0⟩) := by simp [start, h]
    exact eq ▸ .begun (by apply spelled_four <;> omega)
  · have eq : start b = ([], some ⟨2 + 1, 0x80, 0xBF, b.toNat - 0xF0⟩) := by
      simp (disch := omega) only [start, if_pos, if_neg]
    exact eq ▸ .begun (by apply spelled_four <;> omega)
  · have eq : start b = ([], some ⟨2 + 1, 0x80, 0x8F, b.toNat - 0xF0⟩) := by simp [start, h]
    exact eq ▸ .begun (by apply spelled_four <;> omega)

/-- No byte is lost in the middle of a character. -/
theorem kept_push {before : List UInt8} {more low high value : Nat}
    (promised : Spelled before more low high value) (b : UInt8) :
    Kept before b (Partial.push ⟨more + 1, low, high, value⟩ b) := by
  by_cases range : low ≤ b.toNat ∧ b.toNat ≤ high
  · cases more with
    | zero =>
      simp only [Partial.push, range, and_self, if_true, Nat.le_refl]
      exact .complete (promised b range.1 range.2)
    | succ more =>
      simp only [Partial.push, range, and_self, if_true, Nat.reduceLeDiff, if_false]
      exact .begun (promised b range.1 range.2)
  · exact .inl (by simp [Partial.push, range])

/-- So no byte is lost at all. -/
theorem kept_next {p? : Option Partial} {before : List UInt8} (h : Pending p? before) (b : UInt8) :
    Kept before b (next p? b) := by
  cases h with
  | nothing => exact kept_start b
  | begun promised => exact kept_push promised b

/-- **Bytes that are scanned without an error are those of the text.** -/
theorem encode_of_scan {p? : Option Partial} {before bs : List UInt8} {cs : List Char}
    (h : Pending p? before) (read : scan p? bs = cs.map some) : encode cs = before ++ bs := by
  -- on the bytes that are left: each one is put to the pending ones, or completes a character
  induction bs generalizing p? before cs with
  | nil =>
    cases h with
    | nothing =>
      obtain rfl : cs = [] := List.map_eq_nil_iff.1 read.symm
      rfl
    | begun _ =>
      -- the bytes end within a character, which is reported as malformed
      cases cs <;> cases read
  | cons b bs ih =>
    rw [scan_cons] at read
    obtain malformed | ⟨first, pending, reports, h', written⟩ := kept_next h b
    · have : none ∈ cs.map some := read ▸ List.mem_append_left _ malformed
      simp at this
    · rw [reports] at read
      obtain ⟨first', later, rfl, same, rest⟩ := List.map_eq_append_iff.1 read.symm
      obtain rfl : first' = first := (List.map_inj_right fun _ _ => Option.some.inj).1 same
      rw [encode_append, ih h' rest.symm, ← List.append_assoc, written, List.append_assoc,
        List.singleton_append]

/-- Bytes decode to a text just when they are the bytes of it. -/
theorem decode_eq_some_iff {bs : List UInt8} {cs : List Char} :
    decode bs = some cs ↔ encode cs = bs := by
  rw [decode, mapM_id_eq_some_iff]
  exact ⟨encode_of_scan .nothing, fun h => h ▸ scan_encode cs⟩

end Utf8
end EmuScheduler
