import EmuScheduler.Toml.Quoted
import Mathlib.Tactic.SplitIfs

/-!
# Quoted strings there and back

Whatever a text holds, the string that `write` makes of it is read as that text, and what follows
it is left (`read_write`).

`Written d run s w` says that `w` is a way to write `s` within the delimiter `d`, after `run` quotes
that stand for themselves. Reading a written text up to the closing delimiter gives the text
(`body_of_written`), and both ways of writing are such ways: with escapes (`written_writeEscaped`)
and, where the delimiter can hold the text, as it is (`written_self`).

The step that needs care is a quote within three quotes. The reader takes the first two quotes after
it for the beginning of the end, so a text that ends in quotes is cut off before them, and they come
back as the ones that the end may have too many (`close?_of_written`).
-/

namespace EmuScheduler
namespace Toml
namespace Quoted

/-! ## Escapes -/

/-- Characters that stand for `c` after a backslash. -/
def Escapes (d : Delimiter) (tail : List Char) (c : Char) : Prop :=
  ∀ rest, body d .escape (tail ++ rest) = push c (body d (.text false 0) rest)

/-- No letter of an escape could begin a line break that is escaped. -/
theorem escapeOf?_blank {c : Char} (h : c = '\n' ∨ c = '\r' ∨ isBlank c = true) :
    escapeOf? c = none := by
  simp only [isBlank, Bool.or_eq_true, decide_eq_true_eq] at h
  obtain rfl | rfl | rfl | rfl := h <;> rfl

/-- A character with a letter of its own is escaped by that letter. -/
theorem escapes_letter (d : Delimiter) {letter c : Char} (h : escapeOf? letter = some (.inl c)) :
    Escapes d [letter] c := by
  intro rest
  have plain : letter ≠ '\n' ∧ letter ≠ '\r' ∧ ¬isBlank letter = true := by
    refine ⟨fun eq => ?_, fun eq => ?_, fun eq => ?_⟩ <;>
      simp [escapeOf?_blank, eq] at h
  simp [body, plain, h]

/-- A hexadecimal digit that was written is read back. -/
theorem hexDigit?_hexDigit : ∀ n < 16, hexDigit? (hexDigit n) = some n := by decide

theorem scalar?_toNat (c : Char) : scalar? c.toNat = some c := by
  have valid : c.toNat.isValidChar := c.valid
  have same := Char.ofNat_toNat c
  rw [Char.ofNat, dif_pos valid] at same
  rw [scalar?, dif_pos valid, same]

/-- Any character of the first plane is escaped by its code. -/
theorem escapes_code (d : Delimiter) {c : Char} (h : c.toNat < 0x10000) :
    Escapes d ('u' :: hexDigits c.toNat) c := by
  intro rest
  have digit (n : Nat) : hexDigit? (hexDigit (n % 16)) = some (n % 16) :=
    hexDigit?_hexDigit _ (by omega)
  have number : ((c.toNat / 4096 % 16 * 16 + c.toNat / 256 % 16) * 16 + c.toNat / 16 % 16) * 16
      + c.toNat % 16 = c.toNat := by omega
  simp [hexDigits, body, isBlank, escapeOf?, digit, number, scalar?_toNat]

/-! ## What is written is read -/

/-- The ways to write a text within a delimiter, after so many quotes that stand for themselves. -/
inductive Written (d : Delimiter) : Nat → List Char → List Char → Prop where
  | done {run : Nat} : Written d run [] []
  | char {run : Nat} {c : Char} {s w : List Char} : isPrintable c → c ≠ d.quote →
    (c = '\\' → d.escapes = false) → Written d 0 s w → Written d run (c :: s) (c :: w)
  | lineBreak {run : Nat} {s w : List Char} : d.multiline → Written d 0 s w →
    Written d run ('\n' :: s) ('\n' :: w)
  | quote {run : Nat} {s w : List Char} : run < Delimiter.runLimit d → Written d (run + 1) s w →
    Written d run (d.quote :: s) (d.quote :: w)
  | escape {run : Nat} {tail : List Char} {c : Char} {s w : List Char} : d.escapes →
    Escapes d tail c → Written d 0 s w → Written d run (c :: s) ('\\' :: tail ++ w)

/-- The two characters that strings stand between. -/
def IsQuote (q : Char) : Prop :=
  q = '"' ∨ q = '\''

theorem push_ok (c : Char) (s rest : List Char) : push c (.ok (s, rest)) = .ok (c :: s, rest) :=
  rfl

/-- The characters that break a line are not printable. -/
theorem not_isPrintable_lineBreak : isPrintable '\n' = false ∧ isPrintable '\r' = false := by
  decide

section Reading

variable {d : Delimiter} {run : Nat} {s w rest : List Char}

/-- A quote is neither a line break nor a backslash. -/
theorem not_quote (hd : IsQuote d.quote) :
    d.quote ≠ '\n' ∧ d.quote ≠ '\r' ∧ d.quote ≠ '\\' := by
  obtain eq | eq := hd <;> simp [eq]

/-- How a written text can begin: not at all, with another character than a quote, or with a quote
that stands for itself. -/
theorem Written.front (hd : IsQuote d.quote) (h : Written d run s w) :
    s = [] ∧ w = [] ∨
      (∃ c w', w = c :: w' ∧ c ≠ d.quote ∧ c ≠ '\r' ∧ (c = '\n' → '\n' ∈ s)) ∨
      ∃ s' w', s = d.quote :: s' ∧ w = d.quote :: w' ∧ run < Delimiter.runLimit d ∧
        Written d (run + 1) s' w' := by
  have others := not_quote hd
  cases h with
  | done =>
    left
    exact ⟨rfl, rfl⟩
  | char printable plain raw h =>
    right; left
    refine ⟨_, _, rfl, plain, fun eq => ?_, fun eq => eq ▸ List.mem_cons_self⟩
    -- a carriage return would not be printable
    simp [eq, not_isPrintable_lineBreak] at printable
  | lineBreak multi h =>
    right; left
    exact ⟨_, _, rfl, others.1.symm, by decide, fun _ => List.mem_cons_self⟩
  | quote fits h =>
    right; right
    exact ⟨_, _, rfl, rfl, fits, h⟩
  | escape escapes tail h =>
    right; left
    exact ⟨_, _, rfl, others.2.2.symm, by decide, fun eq => absurd eq (by decide)⟩

/-- Any other character does not end the string. -/
theorem close?_of_ne {q c : Char} {cs : List Char} (h : c ≠ q) : close? q (c :: cs) = none := by
  cases cs <;> simp [close?, h]

/-- The end of a string has no quote too many if none follows it. -/
theorem takeWhile_follows (follows : rest.head? ≠ some d.quote) (n : Nat) :
    (rest.take n).takeWhile (· = d.quote) = [] := by
  cases rest with
  | nil => simp
  | cons c rest =>
    have other : c ≠ d.quote := by simpa using follows
    cases n <;> simp [other]

/-- Within three quotes, the quotes after a quote are the end of the string just when no other
character is left of the text. The text then ends in quotes, and the end gives them back. -/
theorem close?_of_written (hd : IsQuote d.quote) (multi : d.multiline = true)
    (h : Written d (run + 1) s w) (follows : rest.head? ≠ some d.quote) :
    close? d.quote (w ++ (d.marks ++ rest)) = none ∨
      close? d.quote (w ++ (d.marks ++ rest)) = some (d.quote :: s, rest) := by
  obtain ⟨rfl, rfl⟩ | ⟨c, w', rfl, other, -⟩ | ⟨s', w', rfl, rfl, fits, h'⟩ := h.front hd
  · exact .inr (by simp [Delimiter.marks, multi, close?, takeWhile_follows follows])
  · exact .inl (close?_of_ne other)
  -- a second quote that stands for itself; a third one in a row would be over the limit
  obtain ⟨rfl, rfl⟩ | ⟨c, w', rfl, other, -⟩ | ⟨-, -, -, -, fits', -⟩ := h'.front hd
  · exact .inr (by simp [Delimiter.marks, multi, close?])
  · exact .inl (by simp [close?, other])
  · simp only [Delimiter.runLimit, multi, if_true] at fits'
    omega

/-- **What was written between the marks is read back**, up to the mark that closes. -/
theorem body_of_written (hd : IsQuote d.quote) (h : Written d run s w)
    (follows : rest.head? ≠ some d.quote) (quotes : Nat) :
    body d (.text false quotes) (w ++ (d.marks ++ rest)) = .ok (s, rest) := by
  have others := not_quote hd
  -- one character of the text after the other, as it was written
  induction h generalizing quotes with
  | done =>
    cases multi : d.multiline with
    | false => simp [Delimiter.marks, multi, body]
    | true => simp [Delimiter.marks, multi, body, others, close?, takeWhile_follows follows]
  | @char run c s w printable plain raw _ ih =>
    have line : c ≠ '\n' ∧ c ≠ '\r' := by
      refine ⟨fun eq => ?_, fun eq => ?_⟩ <;> simp [eq, not_isPrintable_lineBreak] at printable
    have stands : ¬(c = '\\' ∧ d.escapes = true) := fun ⟨eq, escapes⟩ => by simp_all
    simp [body, line, plain, stands, printable, ih, push_ok]
  | lineBreak multi _ ih => simp [body, multi, ih, push_ok]
  | @quote run s w fits h ih =>
    have multi : d.multiline = true := by
      cases multi : d.multiline with
      | true => rfl
      | false => simp [Delimiter.runLimit, multi] at fits
    -- either the string goes on after the quote, or this was the first of its last quotes and the
    -- end has been reached with the text complete
    obtain none | some := close?_of_written hd multi h follows
    · simp [body, multi, others, none, ih, push_ok]
    · simp [body, multi, others, some]
  | escape escapes tail _ ih =>
    have quote : d.quote = '"' := by simpa [Delimiter.escapes] using escapes
    simp [body, quote, escapes, tail _, ih, push_ok]

/-- Only a line break behind the opening marks is skipped. -/
theorem afterOpening_of_ne {c : Char} {cs : List Char} (h : c ≠ '\n') (h' : c ≠ '\r') :
    afterOpening d (c :: cs) = c :: cs := by
  simp [afterOpening, h, h']

/-- The line break that is put after an opening delimiter. -/
def openingBreak (d : Delimiter) (s : List Char) : List Char :=
  if d.multiline && s.contains '\n' then ['\n'] else []

/-- The line break that directly follows an opening delimiter is the one that was put there. -/
theorem afterOpening_of_written (hd : IsQuote d.quote) (h : Written d run s w) :
    afterOpening d (openingBreak d s ++ (w ++ (d.marks ++ rest))) = w ++ (d.marks ++ rest) := by
  unfold openingBreak
  cases multi : d.multiline with
  | false => simp [afterOpening, multi]
  | true =>
    -- a text with line breaks is put on lines of its own, so the reader has one to skip
    by_cases breaks : '\n' ∈ s
    · simp [afterOpening, multi, breaks]
    · have others := not_quote hd
      simp only [List.contains_eq_mem, breaks, decide_false, Bool.and_false, if_neg,
        Bool.false_eq_true, not_false_eq_true, List.nil_append]
      obtain ⟨rfl, rfl⟩ | ⟨c, w', rfl, -, other, lineBreak⟩ | ⟨s', w', rfl, rfl, -⟩ := h.front hd
      · simp only [Delimiter.marks, multi, if_true, List.nil_append, List.cons_append,
          afterOpening_of_ne others.1 others.2.1]
      · exact afterOpening_of_ne (fun eq => breaks (lineBreak eq)) other
      · exact afterOpening_of_ne others.1 others.2.1

/-- A string with its marks is read back. -/
theorem readWith_of_written (hd : IsQuote d.quote) (h : Written d 0 s w)
    (follows : rest.head? ≠ some d.quote) :
    readWith d (d.marks ++ (openingBreak d s ++ (w ++ (d.marks ++ rest)))) = .ok (s, rest) := by
  rw [readWith, if_pos (List.isPrefixOf_iff_prefix.2 (List.prefix_append ..)), List.drop_left,
    afterOpening_of_written hd h, body_of_written hd h follows]
  rfl

end Reading

/-! ## Both ways of writing -/

section Writing

variable {d : Delimiter}

/-- What is not a control character may stand as it is, or is a line break. -/
theorem isControl_eq_false_iff {c : Char} :
    isControl c = false ↔ isPrintable c = true ∨ c = '\n' := by
  simp only [isControl, isPrintable]
  by_cases tab : c = '\t'
  · simp [tab]
  · by_cases lineBreak : c = '\n'
    · simp [lineBreak]
    · by_cases del : c = '\x7f' <;> simp [tab, lineBreak, del]

/-- Control characters are of ASCII. -/
theorem toNat_lt_of_isControl {c : Char} (h : isControl c = true) : c.toNat < 0x80 := by
  simp only [isControl, Bool.or_eq_true, Bool.and_eq_true, decide_eq_true_eq] at h
  obtain ⟨⟨low, -⟩, -⟩ | rfl := h
  · exact Nat.lt_trans low (by decide)
  · decide

/-- A character other than the quotation mark is written in one of the ways. -/
theorem written_escaped (hd : d.escapes = true) {c : Char} (h : c ≠ '"') {run : Nat}
    {s w : List Char} (after : Written d 0 s w) : Written d run (c :: s) (escaped d c ++ w) := by
  have quote : d.quote = '"' := by simpa [Delimiter.escapes] using hd
  have letter {l : Char} (e : escapeOf? l = some (.inl c)) :
      Written d run (c :: s) (['\\', l] ++ w) := .escape hd (escapes_letter d e) after
  unfold escaped
  -- in the order of the definition: the letters, the line break, the codes, and what may stand as
  -- it is
  split_ifs with backspace tab lineBreak multi formFeed carriageReturn backslash control
  · exact letter (by rw [backspace]; rfl)
  · exact letter (by rw [tab]; rfl)
  · subst lineBreak
    exact .lineBreak multi after
  · exact letter (by rw [lineBreak]; rfl)
  · exact letter (by rw [formFeed]; rfl)
  · exact letter (by rw [carriageReturn]; rfl)
  · exact letter (by rw [backslash]; rfl)
  · exact .escape hd (escapes_code d (Nat.lt_trans (toNat_lt_of_isControl control) (by decide)))
      after
  · have printable := isControl_eq_false_iff.1 (Bool.eq_false_iff.2 control)
    exact .char (printable.resolve_right lineBreak) (quote ▸ h) (absurd · backslash) after

/-- So with a whole text, whatever quotes came before. -/
theorem written_writeEscaped (hd : d.escapes = true) (run : Nat) (s : List Char) :
    Written d run s (writeEscaped d run s) := by
  have quote : d.quote = '"' := by simpa [Delimiter.escapes] using hd
  -- the quotes in a row are counted, for too many would close the string
  induction s generalizing run with
  | nil => exact .done
  | cons c s ih =>
    unfold writeEscaped
    split_ifs with mark fits
    · rw [mark, ← quote]
      exact .quote fits (ih (run + 1))
    · exact .escape hd (escapes_letter d (by rw [mark]; rfl)) (ih 0)
    · exact written_escaped hd mark (ih 0)

/-- The longest run is at least as long as the one that goes on. -/
theorem le_longestRun (c : Char) (current : Nat) (s : List Char) :
    current ≤ longestRun c current s := by
  induction s generalizing current with
  | nil => exact Nat.le_refl _
  | cons d s ih =>
    rw [longestRun]
    split
    · exact Nat.le_of_succ_le (ih (current + 1))
    · exact Nat.le_max_left ..

/-- A text without control characters and without long runs of quotes stands for itself where no
backslash begins an escape. -/
theorem written_self (hd : d.escapes = false) {run : Nat} {s : List Char}
    (controls : s.any isControl = false) (breaks : '\n' ∈ s → d.multiline = true)
    (runs : longestRun d.quote run s ≤ Delimiter.runLimit d) : Written d run s s := by
  induction s generalizing run with
  | nil => exact .done
  | cons c s ih =>
    rw [List.any_cons, Bool.or_eq_false_iff] at controls
    obtain ⟨plain, controls⟩ := controls
    have breaks' : '\n' ∈ s → d.multiline = true := fun h => breaks (List.mem_cons_of_mem _ h)
    rw [longestRun] at runs
    -- a quote makes the run longer, and another character ends it
    split_ifs at runs with mark
    · subst mark
      exact .quote (Nat.lt_of_lt_of_le (le_longestRun ..) runs) (ih controls breaks' runs)
    · have after := ih controls breaks' (Nat.le_trans (Nat.le_max_right ..) runs)
      obtain printable | rfl := isControl_eq_false_iff.1 plain
      · exact .char printable mark (fun _ => hd) after
      · exact .lineBreak (breaks List.mem_cons_self) after

/-- The delimiter that is chosen can hold the text. -/
theorem delimiterFor_fits (s : List Char) :
    IsQuote (delimiterFor s).quote ∧
      ((delimiterFor s).escapes = false → s.any isControl = false ∧
        ('\n' ∈ s → (delimiterFor s).multiline = true) ∧
        longestRun (delimiterFor s).quote 0 s ≤ Delimiter.runLimit (delimiterFor s)) := by
  unfold delimiterFor
  dsimp only
  -- each delimiter is taken only if the text fits, or with escapes
  split_ifs with basic literal multilineBasic multilineLiteral breaks
  · exact ⟨.inl rfl, nofun⟩
  · simp only [Bool.and_eq_true, Bool.not_eq_true', List.contains_eq_mem, decide_eq_false_iff_not,
      decide_eq_true_eq] at literal
    obtain ⟨⟨controls, breaks⟩, apostrophes⟩ := literal
    exact ⟨.inr rfl, fun _ => ⟨controls, fun h => absurd h breaks, Nat.le_of_eq apostrophes⟩⟩
  · exact ⟨.inl rfl, nofun⟩
  · simp only [Bool.and_eq_true, Bool.not_eq_true', decide_eq_true_eq] at multilineLiteral
    exact ⟨.inr rfl, fun _ => ⟨multilineLiteral.1, fun _ => rfl, multilineLiteral.2⟩⟩
  · exact ⟨.inl rfl, nofun⟩
  · exact ⟨.inl rfl, nofun⟩

/-- The text as it is printed can be read back with the delimiter that was chosen. -/
theorem written_delimiterFor (s : List Char) :
    Written (delimiterFor s) 0 s
      (if (delimiterFor s).escapes then writeEscaped (delimiterFor s) 0 s else s) := by
  split_ifs with escapes
  · exact written_writeEscaped escapes 0 s
  · have raw := Bool.eq_false_iff.2 escapes
    obtain ⟨controls, breaks, runs⟩ := (delimiterFor_fits s).2 raw
    exact written_self raw controls breaks runs

end Writing

/-! ## Telling the delimiters apart -/

/-- A delimiter that does not stand at the front is tried in vain, and another one may be tried. -/
theorem either_readWith {d : Delimiter} {cs : List Char} (h : d.marks.isPrefixOf cs = false)
    (second : Taken (List Char)) : either (readWith d cs) second = second := by
  simp [readWith, h, either, Fault.before, Fault.within]

theorem either_ok {α : Type} (r : α × List Char) (second : Taken α) :
    either (.ok r) second = .ok r := rfl

/-- What is written on one line does not begin like a string on several lines. -/
theorem not_marks_of_written {d : Delimiter} {s w rest : List Char} (hd : IsQuote d.quote)
    (single : d.multiline = false) (h : Written d 0 s w) (follows : rest.head? ≠ some d.quote) :
    [d.quote, d.quote, d.quote].isPrefixOf
      (d.marks ++ (openingBreak d s ++ (w ++ (d.marks ++ rest)))) = false := by
  have unbroken : openingBreak d s = [] := by simp [openingBreak, single]
  rw [unbroken, List.nil_append]
  obtain ⟨rfl, rfl⟩ | ⟨c, w', rfl, other, -⟩ | ⟨-, -, -, -, fits, -⟩ := h.front hd
  · cases rest with
    | nil => simp [Delimiter.marks, single, List.isPrefixOf]
    | cons c rest =>
      have other : d.quote ≠ c := fun eq => follows (by rw [eq]; rfl)
      simp [Delimiter.marks, single, List.isPrefixOf, other]
  · simp [Delimiter.marks, single, List.isPrefixOf, other.symm]
  · simp [Delimiter.runLimit, single] at fits

/-- There are four delimiters. -/
theorem delimiter_cases {d : Delimiter} (hd : IsQuote d.quote) :
    d = .basic ∨ d = .literal ∨ d = .multilineBasic ∨ d = .multilineLiteral := by
  obtain ⟨quote, multi⟩ := d
  obtain rfl | rfl := hd <;> cases multi <;> decide

/-- The reader finds out from the marks which delimiter it is. -/
theorem read_of_written {d : Delimiter} {s w rest : List Char} (hd : IsQuote d.quote)
    (h : Written d 0 s w) (follows : rest.head? ≠ some d.quote) :
    read (d.marks ++ (openingBreak d s ++ (w ++ (d.marks ++ rest)))) = .ok (s, rest) := by
  have found := readWith_of_written hd h follows
  rw [read, readLine]
  obtain rfl | rfl | rfl | rfl := delimiter_cases hd
  · have short := not_marks_of_written hd rfl h follows
    rw [either_readWith (d := .multilineBasic) short, either_readWith rfl, found, either_ok]
  · have short := not_marks_of_written hd rfl h follows
    rw [either_readWith rfl, either_readWith (d := .multilineLiteral) short, either_readWith rfl,
      found]
  · rw [found, either_ok]
  · rw [either_readWith rfl, found, either_ok]

/-- **A text that is written is read again**, and what follows it is left, unless that is a quote
again. -/
theorem read_write (s rest : List Char) (basic : rest.head? ≠ some '"')
    (literal : rest.head? ≠ some '\'') : read (write s ++ rest) = .ok (s, rest) := by
  have hd := (delimiterFor_fits s).1
  have follows : rest.head? ≠ some (delimiterFor s).quote := by
    obtain eq | eq := hd <;> rwa [eq]
  simp only [write, writeWith, List.append_assoc]
  exact read_of_written hd (written_delimiterFor s) follows

end Quoted
end Toml
end EmuScheduler
