import EmuScheduler.Toml.Number

/-!
# Dates and times in TOML

A date, a time, or both, with an offset or without. The readers check the ranges of all parts, the
length of the month among them, and give what follows. The first hyphen of a date and the first
colon of a time decide that it is one, and what is wrong after that is a final fault.
-/

namespace EmuScheduler
namespace Toml
namespace DateTime

/-- So many digits, as a number in the given range. -/
def field (count low high : Nat) (cs : List Char) : Taken Nat :=
  let ds := cs.take count
  let n := Number.valueOf 10 ds
  if ds.length < count || !ds.all Number.isDigit then .error (.before cs)
  else if n < low || high < n then .error ((Fault.before cs).because .outOfRange)
  else .ok (n, cs.drop count)

/-- One given character, and what follows. -/
def mark (c : Char) : List Char → Except Fault (List Char)
  | d :: rest => if d = c then .ok rest else .error (.before (d :: rest))
  | [] => .error (.before [])

/-- A year of the Gregorian calendar with a twenty-ninth of February. -/
def isLeap (year : Nat) : Bool :=
  year % 4 = 0 && (year % 100 ≠ 0 || year % 400 = 0)

/-- The length of a month. -/
def daysIn (year month : Nat) : Nat :=
  if month = 2 then if isLeap year then 29 else 28
  else if month = 4 ∨ month = 6 ∨ month = 9 ∨ month = 11 then 30
  else 31

/-- Month and day of a year. -/
def monthDay (year : Nat) (cs : List Char) : Except Fault (List Char) := do
  let (month, cs) ← field 2 1 12 cs
  let cs ← mark '-' cs
  let (_, cs) ← field 2 1 (daysIn year month) cs
  return cs

/-- Year, month and day. -/
def date (cs : List Char) : Except Fault (List Char) := do
  let (year, cs) ← field 4 0 9999 cs
  let cs ← mark '-' cs
  (monthDay year cs).mapError Fault.last

/-- A fraction of a second, if there is one. -/
def skipFraction : List Char → List Char
  | '.' :: c :: rest =>
    if Number.isDigit c then rest.dropWhile Number.isDigit else '.' :: c :: rest
  | cs => cs

/-- Minute and second. -/
def minuteSecond (cs : List Char) : Except Fault (List Char) := do
  let (_, cs) ← field 2 0 59 cs
  let cs ← mark ':' cs
  let (_, cs) ← field 2 0 60 cs
  return skipFraction cs

/-- Hour, minute and second. -/
def time (cs : List Char) : Except Fault (List Char) := do
  let (_, cs) ← field 2 0 23 cs
  let cs ← mark ':' cs
  (minuteSecond cs).mapError Fault.last

/-- Hours and minutes of an offset. -/
def hourMinute (cs : List Char) : Except Fault (List Char) := do
  let (_, cs) ← field 2 0 23 cs
  let cs ← mark ':' cs
  let (_, cs) ← field 2 0 59 cs
  return cs

/-- The offset from universal time, if there is one. -/
def skipOffset : List Char → Except Fault (List Char)
  | c :: rest =>
    if c = 'Z' ∨ c = 'z' then .ok rest
    else if c = '+' ∨ c = '-' then (hourMinute rest).mapError fun f => (f.within .offset).last
    else .ok (c :: rest)
  | [] => .ok []

/-- A time after a date, if there is one, with an offset or without. -/
def skipTime (cs : List Char) : Except Fault (List Char) :=
  match cs with
  | c :: rest =>
    if c = 'T' ∨ c = 't' ∨ c = ' ' then
      match time rest with
      | .ok rest => skipOffset rest
      | .error f => if f.final then .error f else .ok cs
    else .ok cs
  | [] => .ok cs

/-- What follows a date and perhaps a time. -/
def dateTime (cs : List Char) : Except Fault (List Char) := do
  let cs ← date cs
  skipTime cs

/-- A date, a time or both, as the text it is written with. -/
def read (cs : List Char) : Taken (List Char) :=
  let taken (r : Except Fault (List Char)) : Taken (List Char) :=
    r.map fun rest => (cs.take (cs.length - rest.length), rest)
  either ((taken (dateTime cs)).mapError (Fault.within .dateTime))
    ((taken (time cs)).mapError (Fault.within .time))

end DateTime
end Toml
end EmuScheduler
