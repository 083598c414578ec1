import EmuScheduler.Path
import EmuScheduler.Proofs.Utf8

/-!
# The extension of a name

`Name.hasExtension` compares bytes. `Name.Bears` says what it is about: the name is a stem that is
not empty, a full stop, and the bytes of a text without a full stop, which is the extension up to
the case of ASCII letters (`hasExtension_iff`). That such a text exists is what has to be shown: the
bytes behind the last full stop need not be a text at all, and to change the case of bytes is not
to change the case of characters. Both come from one observation: every byte of a character beyond
ASCII lies outside the range of the capitals (`map_lowerAscii_encode`, `encode_of_map_lowerAscii`).
-/

namespace EmuScheduler

/-- The name ends in a full stop and a text that is the extension, in whatever case its ASCII
letters are; before the full stop stands something, and the text has no other one. -/
def Name.Bears (n : Name) (extension : String) : Prop :=
  ∃ (stem : List UInt8) (text : List Char), stem ≠ [] ∧ '.' ∉ text ∧
    n = stem ++ Path.dot :: Utf8.encode text ∧
    text.map Char.toLower = extension.toList.map Char.toLower

/-! ## Behind the last full stop -/

/-- What is taken up to a separator ends before one, unless it is all. -/
theorem takeWhile_ne_eq_iff {b : UInt8} {bs e : List UInt8} :
    bs.takeWhile (· != b) = e ∧ e.length < bs.length ↔ b ∉ e ∧ ∃ rest, bs = e ++ b :: rest := by
  induction bs generalizing e with
  | nil => simp
  | cons c bs ih =>
    -- at the separator nothing more is taken, and before it the byte is the first of what is taken
    by_cases sep : c = b
    · subst sep
      cases e with
      | nil => simp
      | cons a e => simpa using fun other _ eq => absurd eq other
    · rw [List.takeWhile_cons_of_pos (by simpa using sep)]
      cases e with
      | nil => simp [sep]
      | cons a e =>
        rw [List.cons.injEq, List.length_cons, List.length_cons, Nat.add_lt_add_iff_right,
          and_assoc, ih]
        simp only [List.mem_cons, not_or, List.cons_append, List.cons.injEq]
        constructor
        · rintro ⟨rfl, clear, rest, eq⟩
          exact ⟨⟨Ne.symm sep, clear⟩, rest, rfl, eq⟩
        · rintro ⟨⟨-, clear⟩, rest, rfl, eq⟩
          exact ⟨rfl, clear, rest, eq⟩

/-- The extension is what stands behind the last full stop of a name that does not begin with it. -/
theorem extension?_eq_some_iff {n : Name} {e : List UInt8} : n.extension? = some e ↔
    ∃ stem, stem ≠ [] ∧ Path.dot ∉ e ∧ n = stem ++ Path.dot :: e := by
  rw [Name.extension?, Option.ite_none_right_eq_some, Option.some.injEq]
  constructor
  · rintro ⟨more, rfl⟩
    rw [List.length_reverse] at more
    have shorter : (n.reverse.takeWhile (· != Path.dot)).length < n.reverse.length := by
      rw [List.length_reverse]
      omega
    obtain ⟨clear, rest, parts⟩ := takeWhile_ne_eq_iff.1 ⟨rfl, shorter⟩
    refine ⟨rest.reverse, ?_, by rwa [List.mem_reverse], by simpa using congrArg List.reverse parts⟩
    -- the stem is what the length leaves over
    rintro none
    have length := congrArg List.length parts
    rw [List.reverse_eq_nil_iff.1 none, List.length_append, List.length_reverse,
      List.length_singleton] at length
    omega
  · rintro ⟨stem, nonempty, clear, rfl⟩
    have parts : (stem ++ Path.dot :: e).reverse = e.reverse ++ Path.dot :: stem.reverse := by simp
    obtain ⟨taken, -⟩ := takeWhile_ne_eq_iff.2 ⟨by rwa [List.mem_reverse], _, parts⟩
    have length := List.length_pos_iff.2 nonempty
    rw [taken, List.reverse_reverse, List.length_append, List.length_cons]
    exact ⟨by omega, rfl⟩

/-! ## Bytes and characters in one case -/

/-- Of the bytes only the capitals of ASCII change. -/
theorem toNat_lowerAscii (b : UInt8) : (lowerAscii b).toNat =
    if 0x41 ≤ b.toNat ∧ b.toNat ≤ 0x5A then b.toNat + 0x20 else b.toNat := by
  have range : 0x41 ≤ b ∧ b ≤ 0x5A ↔ 0x41 ≤ b.toNat ∧ b.toNat ≤ 0x5A := by
    rw [UInt8.le_iff_toNat_le, UInt8.le_iff_toNat_le]
    rfl
  rw [lowerAscii]
  -- the bounds are compared as bytes in the definition and as numbers here
  split_ifs with capital capital' capital'
  · rw [UInt8.toNat_add, Nat.mod_eq_of_lt]
    · rfl
    · have : (0x20 : UInt8).toNat = 0x20 := rfl
      omega
  · exact absurd (range.1 capital) capital'
  · exact absurd (range.2 capital') capital
  · rfl

/-- Of the characters too only the capitals of ASCII change. -/
theorem toNat_toLower (c : Char) : c.toLower.toNat =
    if 0x41 ≤ c.toNat ∧ c.toNat ≤ 0x5A then c.toNat + 0x20 else c.toNat := by
  have range : c.val ≥ 'A'.val ∧ c.val ≤ 'Z'.val ↔ 0x41 ≤ c.toNat ∧ c.toNat ≤ 0x5A := by
    rw [ge_iff_le, UInt32.le_iff_toNat_le, UInt32.le_iff_toNat_le]
    rfl
  by_cases capital : c.val ≥ 'A'.val ∧ c.val ≤ 'Z'.val
  · -- the sum is one of machine words, and it does not come round
    have sum : c.toNat + 0x20 < 2 ^ 32 := by
      have := range.1 capital
      omega
    have lower : c.toLower.val = c.val + ('a'.val - 'A'.val) := congrArg Char.val (dif_pos capital)
    rw [if_pos (range.1 capital)]
    exact (congrArg UInt32.toNat lower).trans
      ((UInt32.toNat_add ..).trans (Nat.mod_eq_of_lt sum))
  · have same : c.toLower = c := dif_neg capital
    rw [same, if_neg fun within => capital (range.2 within)]

/-- A byte beyond ASCII is no capital. -/
theorem lowerAscii_of_beyond {b : UInt8} (beyond : 0x80 ≤ b.toNat) : lowerAscii b = b := by
  rw [← UInt8.toNat_inj, toNat_lowerAscii, if_neg (by omega)]

theorem map_lowerAscii_of_beyond {bs : List UInt8} (beyond : ∀ b ∈ bs, 0x80 ≤ b.toNat) :
    bs.map lowerAscii = bs :=
  (List.map_congr_left fun b there => lowerAscii_of_beyond (beyond b there)).trans (List.map_id bs)

/-- Nor is a character beyond ASCII. -/
theorem toLower_of_beyond {c : Char} (beyond : 0x80 ≤ c.toNat) : c.toLower = c := by
  rw [← Char.toNat_inj, toNat_toLower, if_neg (by omega)]

namespace Utf8

/-- A character of ASCII is one byte, and every byte of another is beyond ASCII. -/
theorem encodeChar_cases (c : Char) :
    c.toNat < 0x80 ∧ encodeChar c = [UInt8.ofNat c.toNat] ∨
      0x80 ≤ c.toNat ∧ ∀ b ∈ encodeChar c, 0x80 ≤ b.toNat := by
  have range := toNat_range c
  unfold encodeChar
  dsimp only
  split_ifs with one two three
  · exact .inl ⟨one, rfl⟩
  all_goals
    refine .inr ⟨Nat.le_of_not_lt one, ?_⟩
    simp (disch := omega) only [List.forall_mem_cons, toNat_ofNat_byte]
    simp only [List.not_mem_nil, false_imp_iff, implies_true, and_true]
    omega

/-- A character of ASCII is the byte of its number. -/
theorem encodeChar_ascii {c : Char} (ascii : c.toNat < 0x80) :
    encodeChar c = [UInt8.ofNat c.toNat] := by
  rw [encodeChar]
  exact if_pos ascii

/-- The bytes of a character in small letters. -/
theorem map_lowerAscii_encodeChar (c : Char) :
    (encodeChar c).map lowerAscii = encodeChar c.toLower := by
  obtain ⟨ascii, bytes⟩ | ⟨beyond, bytes⟩ := encodeChar_cases c
  · have lower := toNat_toLower c
    have ascii' : c.toLower.toNat < 0x80 := by
      rw [lower]
      split_ifs <;> omega
    rw [bytes, encodeChar_ascii ascii', List.map_singleton, List.cons.injEq]
    refine ⟨?_, rfl⟩
    rw [← UInt8.toNat_inj, toNat_lowerAscii, toNat_ofNat_byte (by omega),
      toNat_ofNat_byte (by omega), lower]
  · rw [toLower_of_beyond beyond, map_lowerAscii_of_beyond bytes]

/-- To put the bytes of a text in small letters is to put its characters in them. -/
theorem map_lowerAscii_encode (cs : List Char) :
    (encode cs).map lowerAscii = encode (cs.map Char.toLower) := by
  induction cs with
  | nil => rfl
  | cons c cs ih =>
    rw [encode_cons, List.map_append, ih, map_lowerAscii_encodeChar, List.map_cons, encode_cons]

/-- Bytes that become a character when put in small letters are the bytes of a character. -/
theorem encodeChar_of_map_lowerAscii {bs : List UInt8} {c : Char}
    (h : bs.map lowerAscii = encodeChar c) : ∃ d, bs = encodeChar d ∧ d.toLower = c := by
  obtain ⟨ascii, bytes⟩ | ⟨beyond, bytes⟩ := encodeChar_cases c
  · rw [bytes] at h
    obtain ⟨b, rfl, lower⟩ := List.map_eq_singleton_iff.1 h
    have value := toNat_lowerAscii b
    rw [lower, toNat_ofNat_byte (by omega)] at value
    -- the byte may be the capital of the character, which is of ASCII as well
    have ascii' : b.toNat < 0x80 := by split_ifs at value <;> omega
    have whole : (Char.ofNat b.toNat).toNat = b.toNat := toNat_ofNat_of_range (by omega)
    refine ⟨Char.ofNat b.toNat, ?_, ?_⟩
    · rw [encodeChar_ascii (by omega), whole, UInt8.ofNat_toNat]
    · rw [← Char.toNat_inj, toNat_toLower, whole, value]
  · -- had one of the bytes been of ASCII it would be of ASCII still
    have beyond' : ∀ b ∈ bs, 0x80 ≤ b.toNat := fun b there => by
      have lower := bytes _ (h ▸ List.mem_map_of_mem there)
      rw [toNat_lowerAscii] at lower
      split_ifs at lower <;> omega
    exact ⟨c, (map_lowerAscii_of_beyond beyond').symm.trans h, toLower_of_beyond beyond⟩

/-- Bytes that spell a text when put in small letters are the bytes of a text, the same up to case.
-/
theorem encode_of_map_lowerAscii {bs : List UInt8} {cs : List Char}
    (h : bs.map lowerAscii = encode cs) :
    ∃ text, bs = encode text ∧ text.map Char.toLower = cs := by
  induction cs generalizing bs with
  | nil => exact ⟨[], List.map_eq_nil_iff.1 h, rfl⟩
  | cons c cs ih =>
    rw [encode_cons] at h
    -- the bytes are split where the first character of the text ends
    obtain ⟨first, rest, rfl, h, h'⟩ := List.map_eq_append_iff.1 h
    obtain ⟨d, rfl, rfl⟩ := encodeChar_of_map_lowerAscii h
    obtain ⟨text, rfl, rfl⟩ := ih h'
    exact ⟨d :: text, encode_cons d text, rfl⟩

/-- A character of ASCII is a byte of a text just when it is in the text. -/
theorem dot_mem_encode {cs : List Char} : Path.dot ∈ encode cs ↔ '.' ∈ cs := by
  rw [encode, List.mem_flatMap]
  constructor
  · rintro ⟨c, there, h⟩
    obtain ⟨ascii, bytes⟩ | ⟨beyond, bytes⟩ := encodeChar_cases c
    · rw [bytes, List.mem_singleton, eq_comm, ofNat_eq_iff (by omega)] at h
      obtain rfl : c = '.' := Char.toNat_inj.1 h
      exact there
    · exact absurd (bytes _ h) (by decide)
  · intro there
    exact ⟨'.', there, by decide⟩

end Utf8

/-- A name has an extension just when it bears it: the bytes behind its last full stop spell the
extension, in whatever case. -/
theorem hasExtension_iff {n : Name} {extension : String} :
    n.hasExtension extension = true ↔ n.Bears extension := by
  have same : n.hasExtension extension = true ↔ ∃ e, n.extension? = some e ∧
      e.map lowerAscii = Utf8.encode (extension.toList.map Char.toLower) := by
    rw [Name.hasExtension, Utf8.map_lowerAscii_encode]
    cases n.extension? <;> simp
  rw [same]
  constructor
  · rintro ⟨e, found, eq⟩
    obtain ⟨stem, nonempty, clear, rfl⟩ := extension?_eq_some_iff.1 found
    -- that the bytes are those of a text at all comes from what they are compared with
    obtain ⟨text, rfl, lower⟩ := Utf8.encode_of_map_lowerAscii eq
    exact ⟨stem, text, nonempty, fun dot => clear (Utf8.dot_mem_encode.2 dot), rfl, lower⟩
  · rintro ⟨stem, text, nonempty, clear, rfl, lower⟩
    refine ⟨Utf8.encode text, extension?_eq_some_iff.2 ⟨stem, nonempty, ?_, rfl⟩, ?_⟩
    · exact fun dot => clear (Utf8.dot_mem_encode.1 dot)
    · rw [Utf8.map_lowerAscii_encode, lower]

end EmuScheduler
