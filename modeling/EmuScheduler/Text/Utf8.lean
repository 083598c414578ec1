/-!
# UTF-8

Bytes and characters. `encode` writes characters as bytes; `scan` reads bytes one at a time and
reports each character, or `none` for a malformed sequence. `decode` refuses malformed bytes,
`decodeLossy` puts the replacement character U+FFFD where a malformed sequence stood.

A malformed sequence is the longest piece that could still have begun a character, so the byte
that spoils a sequence is read again as the beginning of the next one.
-/

namespace EmuScheduler
namespace Utf8

/-- The bytes of one character. -/
def encodeChar (c : Char) : List UInt8 :=
  let n := c.toNat
  if n < 0x80 then [UInt8.ofNat n]
  else if n < 0x800 then [UInt8.ofNat (0xC0 + n / 64), UInt8.ofNat (0x80 + n % 64)]
  else if n < 0x10000 then
    [UInt8.ofNat (0xE0 + n / 4096), UInt8.ofNat (0x80 + n / 64 % 64), UInt8.ofNat (0x80 + n % 64)]
  else
    [UInt8.ofNat (0xF0 + n / 262144), UInt8.ofNat (0x80 + n / 4096 % 64),
      UInt8.ofNat (0x80 + n / 64 % 64), UInt8.ofNat (0x80 + n % 64)]

/-- The bytes of a text. -/
def encode (cs : List Char) : List UInt8 :=
  cs.flatMap encodeChar

/-- A character of which some bytes have been read: how many are missing, the range of the next
byte, and the number read so far. -/
structure Partial where
  missing : Nat
  low : Nat
  high : Nat
  value : Nat

/-- What a first byte begins: a character of its own, a longer sequence, or nothing. The ranges
of the second byte leave out overlong forms, surrogates and numbers above U+10FFFF. -/
def start (b : UInt8) : List (Option Char) × Option Partial :=
  let n := b.toNat
  if n < 0x80 then ([some (Char.ofNat n)], none)
  else if n < 0xC2 then ([none], none)
  else if n < 0xE0 then ([], some ⟨1, 0x80, 0xBF, n - 0xC0⟩)
  else if n = 0xE0 then ([], some ⟨2, 0xA0, 0xBF, 0⟩)
  else if n = 0xED then ([], some ⟨2, 0x80, 0x9F, 0xD⟩)
  else if n < 0xF0 then ([], some ⟨2, 0x80, 0xBF, n - 0xE0⟩)
  else if n = 0xF0 then ([], some ⟨3, 0x90, 0xBF, 0⟩)
  else if n < 0xF4 then ([], some ⟨3, 0x80, 0xBF, n - 0xF0⟩)
  else if n = 0xF4 then ([], some ⟨3, 0x80, 0x8F, 4⟩)
  else ([none], none)

/-- What one more byte makes of a begun character. -/
def Partial.push (p : Partial) (b : UInt8) : List (Option Char) × Option Partial :=
  let n := b.toNat
  if p.low ≤ n ∧ n ≤ p.high then
    let value := p.value * 64 + (n - 0x80)
    if p.missing ≤ 1 then ([some (Char.ofNat value)], none)
    else ([], some ⟨p.missing - 1, 0x80, 0xBF, value⟩)
  else
    (none :: (start b).1, (start b).2)

/-- Reads bytes from left to right, after the begun character `p?`. -/
def scan : Option Partial → List UInt8 → List (Option Char)
  | none, [] => []
  | some _, [] => [none]
  | none, b :: bs => (start b).1 ++ scan (start b).2 bs
  | some p, b :: bs => (p.push b).1 ++ scan (p.push b).2 bs

/-- The text that the bytes spell, if they are well formed throughout. -/
def decode (bs : List UInt8) : Option (List Char) :=
  (scan none bs).mapM id

/-- The text that the bytes spell, with U+FFFD for each malformed sequence. -/
def decodeLossy (bs : List UInt8) : List Char :=
  (scan none bs).map (·.getD '\uFFFD')

end Utf8
end EmuScheduler
