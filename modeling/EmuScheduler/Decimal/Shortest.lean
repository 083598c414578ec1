/-!
# The shortest decimal of a double

A finite double is m · 2^q, and the reals that round to it form an interval around it, whose ends
belong to it if m is even. `Shortest.ofFloat?` gives the decimal with the fewest digits in that
interval, of two with equally many the nearer one, and the larger one of two equally near. All
comparisons are made between integers.

`floatText` writes that decimal without an exponent and with at least one place.
-/

namespace EmuScheduler

/-- The number `digits · 10^exponent`. -/
structure Decimal where
  digits : Nat
  exponent : Int
  deriving DecidableEq, Repr

namespace Shortest

/-- A positive double as `significand · 2^exponent`. -/
structure Binary where
  significand : Nat
  exponent : Int
  /-- The double below is only half as far away as the one above. -/
  closerBelow : Bool
  deriving Repr

/-- The parts of a finite double without its sign. -/
def Binary.ofBits (bits : UInt64) : Binary :=
  let fraction := (bits &&& 0xFFFFFFFFFFFFF).toNat
  let scale : Nat := (bits >>> 52 &&& 0x7FF).toNat
  if scale = 0 then ⟨fraction, -1074, false⟩
  else ⟨0x10000000000000 + fraction, (scale : Int) - 1075, fraction = 0 && scale > 1⟩

/-- The number of decimal digits. -/
def width (n : Nat) : Nat :=
  (Nat.toDigits 10 n).length

/-- The least `e` with `num / den < 10^e`, for positive `num` and `den`. -/
def magnitude (num den : Nat) : Int :=
  if den ≤ num then width (num / den)
  else
    let ceiling := (den + num - 1) / num
    1 - (width (ceiling - 1) : Int)

/-- A decimal with so many digits that rounds to the double: one of the two neighbours of the
double on that decimal grid. -/
def onGrid (b : Binary) (count : Nat) : Option Decimal :=
  let q := b.exponent - 2
  let num := 4 * b.significand * Nat.pow 2 q.toNat
  let den := Nat.pow 2 (-q).toNat
  let e := magnitude num den - count
  let scale := Nat.pow 2 q.toNat * Nat.pow 10 (-e).toNat
  let unit := den * Nat.pow 10 e.toNat
  let low := (4 * b.significand - (if b.closerBelow then 1 else 2)) * scale
  let high := (4 * b.significand + 2) * scale
  let exact := 4 * b.significand * scale
  let inside (d : Nat) : Bool :=
    if b.significand % 2 = 0 then low ≤ d * unit && d * unit ≤ high
    else low < d * unit && d * unit < high
  let d := exact / unit
  if inside d && (!inside (d + 1) || 2 * exact < (2 * d + 1) * unit) then some ⟨d, e⟩
  else if inside (d + 1) then
    -- a carry out of the last nine leaves a single digit
    some (if width (d + 1) = count then ⟨d + 1, e⟩ else ⟨1, e + count⟩)
  else none

/-- The shortest decimal of a positive double. Seventeen digits are always enough. -/
def ofBinary? (b : Binary) : Option Decimal :=
  (List.range 17).findSome? fun i => onGrid b (i + 1)

end Shortest

/-- A decimal without an exponent and with at least one place. -/
def Decimal.positional (d : Decimal) : String :=
  let ds := Nat.toDigits 10 d.digits
  let places := (-d.exponent).toNat
  if d.exponent ≥ 0 then String.ofList (ds ++ List.replicate d.exponent.toNat '0') ++ ".0"
  else
    let padded := List.replicate (places + 1 - ds.length) '0' ++ ds
    let whole := padded.length - places
    String.ofList (padded.take whole ++ '.' :: padded.drop whole)

/-- A double as a message shows it. -/
def floatText (x : Float) : String :=
  if x.isNaN then "NaN"
  else
    let sign := if x.toBits ≥ 0x8000000000000000 then "-" else ""
    if x.isInf then sign ++ "inf"
    else
      match Shortest.ofBinary? (Shortest.Binary.ofBits x.toBits) with
      | some d => if x == 0 then sign ++ "0.0" else sign ++ d.positional
      | none => sign ++ "0.0"

end EmuScheduler
