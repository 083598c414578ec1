import EmuScheduler.Log.Pattern.CharSet

/-!
# Patterns

A directive of the log filter may ask for a field whose value matches a pattern, a regular
expression. No line has such a field, so all that matters is whether the pattern is well-formed
(`Pattern.isWellFormed`): that it can be read (`Pattern.read?`), that its parts are not too deep in
one another (`Pattern.depth`), and that each is allowed under the switches that are on where it
stands (`Pattern.after?`). A directive ends a pattern at a comma, an equals sign or a closing brace,
so a repetition between braces is never complete.
-/

namespace EmuScheduler

/-- A regular expression. -/
inductive Pattern where
  /-- What matches the empty text. -/
  | nothing
  /-- Turns switches on or off up to the end of the group. -/
  | settings (s : Pattern.Settings)
  | element (e : Pattern.Element)
  /-- A dot. -/
  | anyCharacter
  | oneOf (s : Pattern.CharSet)
  | repeated (p : Pattern)
  /-- A group, with the switches that it turns on or off within itself. -/
  | group (s : Pattern.Settings) (p : Pattern)
  | sequence (parts : List Pattern)
  | choice (branches : List Pattern)

namespace Pattern

mutual

/-- How many groups, repetitions, lists and classes stand in one another. -/
def depth : Pattern → Nat
  | .nothing | .settings _ | .element _ | .anyCharacter => 0
  | .oneOf s => s.depth
  | .repeated p => p.depth + 1
  | .group _ p => p.depth + 1
  | .sequence parts => depthOfAll parts + 1
  | .choice branches => depthOfAll branches + 1

/-- The depth of the deepest of some patterns. -/
def depthOfAll : List Pattern → Nat
  | [] => 0
  | p :: rest => max p.depth (depthOfAll rest)

end

/-- How deep a pattern may be. -/
def maxDepth : Nat := 250

mutual

/-- The switches after a pattern, if each part of it is allowed under those where it stands. A dot
matches characters, so it is not allowed where the text is bytes. -/
def after? (on : Switches) : Pattern → Option Switches
  | .nothing => some on
  | .settings s => some (on.set s)
  | .element e => if e.isAllowed on then some on else none
  | .anyCharacter => if on.contains .unicode then some on else none
  | .oneOf s => if s.isAllowed on then some on else none
  | .repeated p => after? on p
  | .group s p => (after? (on.set s) p).map fun _ => on
  | .sequence parts => afterAll? on parts
  | .choice branches => afterAll? on branches

/-- The switches after some patterns, one after the other. -/
def afterAll? (on : Switches) : List Pattern → Option Switches
  | [] => some on
  | p :: rest => (after? on p).bind fun on => afterAll? on rest

end

/-- The pattern of these parts, one after the other. -/
def ofParts : List Pattern → Pattern
  | [] => .nothing
  | [part] => part
  | parts => .sequence parts

/-- The pattern of these branches, any of which may match. -/
def ofBranches : List Pattern → Pattern
  | [branch] => branch
  | branches => .choice branches

/-- Whether a mark for repetition may follow. -/
def isRepeatable : Pattern → Bool
  | .nothing | .settings _ => false
  | _ => true

/-- The names of the groups that were read. -/
abbrev Names := List (List Char)

/-- The name of a group, up to the bracket that ends it, and the rest. -/
def name? (cs : List Char) : Option (List Char × List Char) :=
  match cs.takeWhile (· ≠ '>'), cs.dropWhile (· ≠ '>') with
  | c :: name, _ :: rest =>
    let isName := (c = '_' || isLetter c) && name.all fun d =>
      isAlphanumeric d || d = '_' || d = '.' || d = '[' || d = ']'
    if isName then some (c :: name, rest) else none
  | _, _ => none

/-- What an opening bracket begins. -/
inductive Opening where
  /-- Settings for the rest of the group around them. -/
  | settings (s : Settings)
  /-- A group, with the names of groups up to its own. -/
  | group (s : Settings) (names : Names)

/-- What an opening bracket begins, and the rest, when groups of these names came before. -/
def opening? (names : Names) (cs : List Char) : Option (Opening × List Char) :=
  let named (cs : List Char) : Option (Opening × List Char) :=
    (name? cs).bind fun (name, rest) =>
      if names.contains name then none else some (.group [] (name :: names), rest)
  match cs with
  | '?' :: 'P' :: '<' :: rest => named rest
  | '?' :: '<' :: rest => named rest
  | '?' :: rest =>
    match settings? true [] rest with
    | some (s, ':' :: rest) => some (.group s names, rest)
    | some (s, _ :: rest) => if s.isEmpty then none else some (.settings s, rest)
    | _ => none
  | _ => some (.group [] names, cs)

/-- A part that is neither a group nor repeated, and the rest. -/
def part? (on : Switches) : List Char → Option (Pattern × List Char)
  | [] => none
  | '\x7b' :: _ => none
  | '[' :: rest => (class? on rest).map fun (s, rest) => (.oneOf s, rest)
  | '\\' :: rest => (escape? on rest).map fun (e, rest) => (.element e, rest)
  | '.' :: rest => some (.anyCharacter, rest)
  | '^' :: rest | '$' :: rest => some (.element .textEdge, rest)
  | c :: rest => some (.element (.character c false), rest)

/-- The rest after a mark for repetition, and one more that makes it short. -/
def afterRepetition (cs : List Char) : List Char :=
  if cs.head? = some '?' then cs.tail else cs

/-- The branches up to the end of a group, the names after it, and the rest from the bracket that
ends it. `done` are the branches that are complete, `parts` those of the last one, both the last one
first. The number bounds the length. -/
def branches? : Nat → Switches → Names → List Pattern → List Pattern → List Char →
    Option (Pattern × Names × List Char)
  | 0, _, _, _, _, _ => none
  | size + 1, on, names, done, parts, cs =>
    let branches := ofParts parts.reverse :: done
    match blanks on cs with
    | [] => some (ofBranches branches.reverse, names, [])
    | c :: rest =>
      if c = ')' then some (ofBranches branches.reverse, names, c :: rest)
      else if c = '|' then branches? size on names branches [] rest
      else if c = '(' then
        match opening? names (blanks on rest) with
        | some (.settings s, rest) =>
          branches? size (on.set s) names done (.settings s :: parts) rest
        | some (.group s names, rest) =>
          match branches? size (on.set s) names [] [] rest with
          | some (p, names, ')' :: rest) => branches? size on names done (.group s p :: parts) rest
          | _ => none
        | none => none
      else if c = '?' || c = '*' || c = '+' then
        match parts with
        | p :: parts =>
          if p.isRepeatable then
            branches? size on names done (.repeated p :: parts) (afterRepetition rest)
          else none
        | [] => none
      else
        match part? on (c :: rest) with
        | some (p, rest) => branches? size on names done (p :: parts) rest
        | none => none

/-- The pattern that a text writes. -/
def read? (cs : List Char) : Option Pattern :=
  match branches? (cs.length + 1) .initial [] [] [] cs with
  | some (p, _, []) => some p
  | _ => none

/-- Whether a text writes a pattern that can be matched. -/
def isWellFormed (cs : List Char) : Bool :=
  (read? cs).any fun p => p.depth ≤ maxDepth && (p.after? .initial).isSome

end Pattern
end EmuScheduler
