import EmuScheduler.Toml.Quoted

/-!
# Numbers in TOML

Integers in four bases and floating-point numbers. Each reader takes its number from the front of
the characters and gives what follows. Between two digits there may be an underscore.
-/

namespace EmuScheduler
namespace Toml
namespace Number

/-- A decimal digit. -/
def isDigit (c : Char) : Bool :=
  '0' ≤ c && c ≤ '9'

/-- The fault of an underscore that no digit follows. -/
def missingDigit (cs : List Char) : Fault :=
  ((Fault.before cs).expecting [.digit]).last

/-- The digits from here on, each with at most one underscore before it. -/
def moreDigits (isDigit : Char → Bool) : List Char → Taken (List Char)
  | '_' :: c :: rest =>
    if isDigit c then (moreDigits isDigit rest).map fun (ds, rest') => (c :: ds, rest')
    else .error (missingDigit (c :: rest))
  | ['_'] => .error (missingDigit [])
  | c :: rest =>
    if isDigit c then (moreDigits isDigit rest).map fun (ds, rest') => (c :: ds, rest')
    else .ok ([], c :: rest)
  | [] => .ok ([], [])

/-- At least one digit. -/
def digits (isDigit : Char → Bool) : List Char → Taken (List Char)
  | c :: rest =>
    if isDigit c then (moreDigits isDigit rest).map fun (ds, rest') => (c :: ds, rest')
    else .error (.before (c :: rest))
  | [] => .error (.before [])

/-- At least one decimal digit, and only one if it is a zero. -/
def unpadded : List Char → Taken (List Char)
  | '0' :: rest => .ok (['0'], rest)
  | cs => (digits isDigit cs).mapError (Fault.within .integer)

/-- The number that digits stand for. -/
def valueOf (base : Nat) (ds : List Char) : Nat :=
  ds.foldl (fun n c => n * base + (hexDigit? c).getD 0) 0

/-- A sign, if there is one: whether it is a minus. -/
def sign : List Char → Bool × List Char
  | '-' :: rest => (true, rest)
  | '+' :: rest => (false, rest)
  | cs => (false, cs)

/-- An integer of 64 bits that was taken from the front of `cs`, when `rest` follows. -/
def inRange (cs : List Char) (n : Int) (rest : List Char) : Taken Int :=
  if n > 9223372036854775807 then .error ((Fault.before cs).because .tooLarge).last
  else if n < -9223372036854775808 then .error ((Fault.before cs).because .tooSmall).last
  else .ok (n, rest)

/-- An integer that begins with the mark of its base. -/
def based (part : Part) (base : Nat) (cs : List Char) : Taken Int :=
  match digits (fun c => (hexDigit? c).any (· < base)) (cs.drop 2) with
  | .ok (ds, rest) => inRange cs (valueOf base ds) rest
  | .error f => .error (f.within part).last

/-- An integer. Only a decimal one may have a sign. -/
def integer (cs : List Char) : Taken Int :=
  match cs with
  | '0' :: 'x' :: _ => based .hexadecimalInteger 16 cs
  | '0' :: 'o' :: _ => based .octalInteger 8 cs
  | '0' :: 'b' :: _ => based .binaryInteger 2 cs
  | _ =>
    match unpadded (sign cs).2 with
    | .ok (ds, rest) =>
      let n : Int := valueOf 10 ds
      inRange cs (if (sign cs).1 then -n else n) rest
    | .error f => .error f

/-- The double nearest to digits with a decimal exponent. The exponent of the first digit tells the
numbers that are zero or infinite in any case. -/
def scaled (ds : List Char) (exponent : Int) : Float :=
  let significant := ds.dropWhile (· = '0')
  let top : Int := significant.length + exponent
  if significant = [] ∨ top < -400 then 0
  else if top > 400 then 1 / 0
  else Float.ofScientific (valueOf 10 significant) (exponent < 0) exponent.natAbs

/-- An exponent of ten. After its mark digits must follow. -/
def exponent : List Char → Taken Int
  | c :: rest =>
    if c = 'e' ∨ c = 'E' then
      match digits isDigit (sign rest).2 with
      | .ok (ds, rest') =>
        let n : Int := valueOf 10 ds
        .ok (if (sign rest).1 then -n else n, rest')
      | .error f => .error f.last
    else .error (.before (c :: rest))
  | [] => .error (.before [])

/-- The digits after a decimal point. After the point digits must follow. -/
def fraction : List Char → Taken (List Char)
  | '.' :: rest => (digits isDigit rest).mapError fun f => (f.expecting [.digit]).last
  | cs => .error (.before cs)

/-- The part of a floating-point number after its whole digits: an exponent, or a fraction and
perhaps an exponent. -/
def scaling (whole cs : List Char) : Taken Float :=
  either ((exponent cs).map fun (e, rest) => (scaled whole e, rest)) <|
    match fraction cs with
    | .error f => .error f
    | .ok (part, rest) =>
      (either (exponent rest) (.ok (0, rest))).map fun (e, rest') =>
        (scaled (whole ++ part) (e - part.length), rest')

/-- A word for a floating-point number, after its sign. -/
def word : List Char → Taken Float
  | 'i' :: 'n' :: 'f' :: rest => .ok (1 / 0, rest)
  | 'n' :: 'a' :: 'n' :: rest => .ok (0 / 0, rest)
  | cs => .error (.before cs)

/-- A floating-point number in digits. One beyond the largest double is refused, unless a minus
stands before it. -/
def decimal (cs : List Char) : Taken Float :=
  match unpadded (sign cs).2 with
  | .error f => .error f
  | .ok (whole, rest) =>
    match scaling whole rest with
    | .error f => .error f
    | .ok (x, rest) =>
      if (sign cs).1 then .ok (-x, rest)
      else if x.isInf then .error (Fault.before cs).last
      else .ok (x, rest)

/-- A floating-point number. -/
def float (cs : List Char) : Taken Float :=
  let named := (word (sign cs).2).map fun (x, rest) => (if (sign cs).1 then -x else x, rest)
  (either (decimal cs) named).mapError (Fault.within .float)

end Number
end Toml
end EmuScheduler
