import EmuScheduler.Toml.Number

/-!
# Keys in TOML

A key has one part or several with dots between them. A part stands in quotes unless all its
characters are letters, digits, hyphens and underscores of ASCII.
-/

namespace EmuScheduler
namespace Toml

/-- One part of a key, and where it is written. -/
structure Key where
  name : String
  place : Span
  deriving DecidableEq, Repr, Inhabited

namespace Key

/-- The largest number of parts of a key. -/
def limit : Nat := 79

/-- A character of a part without quotes. -/
def isBare (c : Char) : Bool :=
  Number.isDigit c || ('a' ≤ c && c ≤ 'z') || ('A' ≤ c && c ≤ 'Z') || c = '_' || c = '-'

/-- A name as a part of a key, with quotes where it needs them. -/
def text (name : String) : String :=
  let cs := name.toList
  if cs ≠ [] && cs.all isBare then name else String.ofList (Quoted.writeLine cs)

/-- One part. -/
def readPart (cs : List Char) : Taken Key :=
  let quoted (cs : List Char) : Taken Key :=
    (Quoted.readLine cs).map fun (name, rest) => (⟨String.ofList name, .between cs rest⟩, rest)
  match cs with
  | '"' :: _ | '\'' :: _ => quoted cs
  | _ =>
    match cs.takeWhile isBare with
    | [] => .error (.before cs)
    | name =>
      let rest := cs.dropWhile isBare
      .ok (⟨String.ofList name, .between cs rest⟩, rest)

/-- The rest after spaces and tabs. -/
def skipBlanks (cs : List Char) : List Char :=
  cs.dropWhile isBlank

/-- The parts of a key with the blanks around them, at most so many. A dot that no part follows is
left. -/
def readParts : Nat → List Char → Taken (List Key)
  | 0, cs => .error (.before cs)
  | count + 1, cs =>
    match readPart (skipBlanks cs) with
    | .error f => .error f
    | .ok (part, rest) =>
      match skipBlanks rest with
      | '.' :: rest' =>
        match readParts count rest' with
        | .ok (parts, rest'') => .ok (part :: parts, rest'')
        | .error f => if f.final then .error f else .ok ([part], '.' :: rest')
      | rest' => .ok ([part], rest')

/-- A key: the path before its last part, and that part. -/
def read (cs : List Char) : Taken (List Key × Key) :=
  match readParts (cs.length + 1) cs with
  | .error f => .error (f.within .key)
  | .ok (parts, rest) =>
    if parts.length ≤ limit then .ok ((parts.dropLast, parts.getLastD default), rest)
    else .error ((Fault.before cs).because .tooDeep)

end Key
end Toml
end EmuScheduler
