import EmuScheduler.Log.Pattern.Element

/-!
# Classes of characters in a pattern

A class between brackets lists characters, ranges of them, classes that have a name, and other
classes between brackets. Two hyphens, ampersands or tildes join what stands before and after them
to one class. `Pattern.class?` reads a class, `CharSet.depth` says how deep it is and
`CharSet.isAllowed` under which switches it may stand.
-/

namespace EmuScheduler
namespace Pattern

/-- A class of characters, or a part of one. -/
inductive CharSet where
  /-- What stands between two marks that join classes, if that is nothing. -/
  | nothing
  | character (c : Char)
  | range (first last : Char)
  | shorthand (negated : Bool)
  /-- A class that has a name. -/
  | named (negated : Bool)
  | bracketed (negated : Bool) (content : CharSet)
  | union (members : List CharSet)
  | joined (left right : CharSet)

namespace CharSet

mutual

/-- How many brackets, lists and joints stand in one another. -/
def depth : CharSet → Nat
  | .bracketed _ content => content.depth + 1
  | .union members => depthOfAll members + 1
  | .joined left right => max left.depth right.depth + 1
  | .nothing | .character _ | .range _ _ | .shorthand _ | .named _ => 0

/-- The depth of the deepest of some classes. -/
def depthOfAll : List CharSet → Nat
  | [] => 0
  | s :: rest => max s.depth (depthOfAll rest)

end

mutual

/-- Whether a class may stand under these switches. The two cases of a letter are known for bytes
only. A class of bytes holds those alone that are characters by themselves, so that it cannot be
turned round. -/
def isAllowed (on : Switches) : CharSet → Bool
  | .nothing => true
  | .character c | .range _ c =>
    if on.contains .unicode then !on.contains .caseless else c.toNat < 0x80
  | .shorthand negated => !on.contains .unicode && !negated
  | .named negated => if on.contains .unicode then !on.contains .caseless else !negated
  | .bracketed negated content => (on.contains .unicode || !negated) && content.isAllowed on
  | .union members => areAllowed on members
  | .joined left right => left.isAllowed on && right.isAllowed on

/-- Whether each of some classes may stand under these switches. -/
def areAllowed (on : Switches) : List CharSet → Bool
  | [] => true
  | s :: rest => s.isAllowed on && areAllowed on rest

end

/-- The class that lists these members. -/
def ofMembers : List CharSet → CharSet
  | [] => .nothing
  | [member] => member
  | members => .union members

/-- The member that an element is: a character, or a shorthand for a class. -/
def ofElement? : Element → Option CharSet
  | .character c _ => some (.character c)
  | .shorthand negated => some (.shorthand negated)
  | .textEdge | .wordEdge => none

/-- The range between two elements, if they are characters in ascending order. -/
def ofEnds? : Element → Element → Option CharSet
  | .character first _, .character last _ => if first ≤ last then some (.range first last) else none
  | _, _ => none

/-- Of these characters two make a joint. -/
def joints : List Char := ['&', '-', '~']

/-- The names that a class may have. -/
def names : List String :=
  ["alnum", "alpha", "ascii", "blank", "cntrl", "digit", "graph", "lower", "print", "punct",
   "space", "upper", "word", "xdigit"]

end CharSet

/-- Whether a mark says that a class is turned round, and the rest after it. -/
def negation (cs : List Char) : Bool × List Char :=
  if cs.head? = some '^' then (true, cs.tail) else (false, cs)

/-- Whether a class that has a name is turned round, and the rest after it, from after its opening
bracket on. -/
def named? : List Char → Option (Bool × List Char)
  | ':' :: rest =>
    let (negated, rest) := negation rest
    match rest.dropWhile (· ≠ ':') with
    | ':' :: ']' :: after =>
      if CharSet.names.contains (String.ofList (rest.takeWhile (· ≠ ':'))) then
        some (negated, after)
      else none
    | _ => none
  | _ => none

/-- An element of a class, and the rest. -/
def classElement? (on : Switches) : List Char → Option (Element × List Char)
  | [] => none
  | '\\' :: rest => escape? on rest
  | c :: rest => some (.character c false, rest)

/-- The character that is taken to follow a hyphen: the next one that is neither white space nor
begins a comment, be it in the comment. -/
def afterHyphen (on : Switches) (cs : List Char) : Option Char :=
  if on.contains .spaced then
    let beyond := cs.dropWhile isWhiteSpace
    let beyond := if beyond.head? = some '#' then beyond.tail.dropWhile isWhiteSpace else beyond
    beyond.head?.or cs.head?
  else cs.head?

/-- A member of a class: an element, or a range between two. A hyphen before the closing bracket or
before another hyphen makes no range. -/
def member? (on : Switches) (cs : List Char) : Option (CharSet × List Char) :=
  match classElement? on cs with
  | none => none
  | some (first, rest) =>
    let rest := blanks on rest
    let next? := afterHyphen on rest.tail
    if rest.head? = some '-' && next? ≠ some ']' && next? ≠ some '-' then
      match classElement? on (blanks on rest.tail) with
      | some (last, rest) => (CharSet.ofEnds? first last).map (·, rest)
      | none => none
    else (CharSet.ofElement? first).map (·, rest)

/-- The rest of a class up to its closing bracket, and what follows. `left?` is what stands before
the last joint, `members` are those since, the last one first. At the start hyphens, or one closing
bracket, stand for themselves. The number bounds the length. -/
def content? (on : Switches) : Nat → Bool → Option CharSet → List CharSet → List Char →
    Option (CharSet × List Char)
  | 0, _, _, _, _ => none
  | size + 1, isStart, left?, members, cs =>
    let right := CharSet.ofMembers members.reverse
    let whole :=
      match left? with
      | some left => .joined left right
      | none => right
    match blanks on cs with
    | [] => none
    | c :: rest =>
      if isStart && c = '-' then content? on size true left? (.character c :: members) rest
      else if isStart && members.isEmpty && c = ']' then
        content? on size false left? [.character c] rest
      else if c = ']' then some (whole, rest)
      else if CharSet.joints.contains c && rest.head? = some c then
        content? on size false (some whole) [] rest.tail
      else if c = '[' then
        match named? rest with
        | some (negated, rest) => content? on size false left? (.named negated :: members) rest
        | none =>
          let (negated, rest) := negation (blanks on rest)
          match content? on size true none [] rest with
          | some (inner, rest) =>
            content? on size false left? (.bracketed negated inner :: members) rest
          | none => none
      else
        match member? on (c :: rest) with
        | some (member, rest) => content? on size false left? (member :: members) rest
        | none => none

/-- A class from after its opening bracket on, and the rest. -/
def class? (on : Switches) (cs : List Char) : Option (CharSet × List Char) :=
  let (negated, rest) := negation (blanks on cs)
  (content? on (rest.length + 1) true none [] rest).map fun (content, rest) =>
    (.bracketed negated content, rest)

end Pattern
end EmuScheduler
