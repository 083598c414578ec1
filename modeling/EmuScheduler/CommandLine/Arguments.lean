import EmuScheduler.Path
import EmuScheduler.Text.Terminal

/-!
# Arguments

The application takes one ROM and the number of frames to run it for. An option may be followed by
its value or hold it after `=`; after `--` everything is a value. A value is judged when the next
known option or value arrives or the arguments end, so an argument that nothing knows is reported
first.
-/

namespace EmuScheduler

/-- What the application is asked to do. -/
inductive Invocation where
  | help
  | run (rom? : Option Path) (frames : Nat)
  deriving DecidableEq, Repr

/-- What is wrong with a number. -/
inductive NumberFault where
  | empty
  | invalidDigit
  | tooLarge
  deriving DecidableEq, Repr

/-- What is wrong with the arguments. -/
inductive ArgumentError where
  | unexpected (argument : String)
  | unexpectedValue (value option : String)
  | missingValue (option : String)
  | repeated (option : String)
  | invalidValue (value option : String) (fault : NumberFault)
  deriving DecidableEq, Repr

/-- The text of a fault in a number. -/
def NumberFault.message : NumberFault → String
  | .empty => "cannot parse integer from empty string"
  | .invalidDigit => "invalid digit found in string"
  | .tooLarge => "number too large to fit in target type"

namespace ArgumentError

/-- A text between the marks that set it off, without what would steer a terminal. -/
def marked (s : String) : String :=
  "'" ++ Terminal.plain s ++ "'"

/-- What is wrong, in one sentence. -/
def message : ArgumentError → String
  | .unexpected a => "unexpected argument " ++ marked a ++ " found"
  | .unexpectedValue v o =>
    "unexpected value " ++ marked v ++ " for " ++ marked o ++ " found; no more were expected"
  | .missingValue o => "a value is required for " ++ marked o ++ " but none was supplied"
  | .repeated o => "the argument " ++ marked o ++ " cannot be used multiple times"
  | .invalidValue v o fault =>
    "invalid value " ++ marked v ++ " for " ++ marked o ++ ": " ++ fault.message

end ArgumentError

namespace Arguments

/-- The option for the number of frames, as messages show it. -/
def framesOption : String := "--frames <FRAMES>"

/-- The place of the ROM, as messages show it. -/
def romPlace : String := "[ROM]"

/-- The number of frames that is run for unless another is asked for. -/
def defaultFrames : Nat := 300

/-- Reads digits from left to right. The first that is none, or that makes the number too large for
64 bits, is the fault. -/
def digits (n : Nat) : List Char → Except NumberFault Nat
  | [] => .ok n
  | c :: rest =>
    if c.isDigit then
      let n' := n * 10 + (c.toNat - '0'.toNat)
      if n' < UInt64.size then digits n' rest else .error .tooLarge
    else .error .invalidDigit

/-- A number of 64 bits; a plus may stand before it. -/
def number (s : String) : Except NumberFault Nat :=
  match s.toList with
  | [] => .error .empty
  | ['+'] => .error .invalidDigit
  | '+' :: rest => digits 0 rest
  | cs => digits 0 cs

/-- What was given and not judged yet. -/
inductive Pending where
  | nothing
  /-- The option for the number of frames, and its value if there is one. -/
  | frames (value? : Option String)
  | rom (value : String)
  deriving DecidableEq, Repr

/-- What was read so far. -/
structure Reading where
  rom? : Option Path := none
  frames? : Option Nat := none
  pending : Pending := .nothing
  /-- Whether a ROM was given, judged or not. -/
  romGiven : Bool := false
  /-- Whether everything that follows is a value. -/
  valuesOnly : Bool := false

namespace Reading

/-- Judges what was given and not judged yet. -/
def settle (r : Reading) : Except ArgumentError Reading :=
  match r.pending with
  | .nothing => .ok r
  | .rom value =>
    if value = "" then .error (.missingValue romPlace)
    else .ok { r with rom? := some (.ofString value), pending := .nothing }
  | .frames none => .error (.missingValue framesOption)
  | .frames (some value) =>
    if r.frames?.isSome then .error (.repeated framesOption)
    else
      match number value with
      | .ok n => .ok { r with frames? := some n, pending := .nothing }
      | .error fault => .error (.invalidValue value framesOption fault)

/-- Takes a value that belongs to no option. -/
def positional (r : Reading) (a : String) : Except ArgumentError Reading :=
  if r.romGiven then .error (.unexpected a)
  else
    match r.settle with
    | .error e => .error e
    | .ok r => .ok { r with romGiven := true, pending := .rom a }

/-- Takes a value: that of the option before it, or the ROM. -/
def value (r : Reading) (a : String) : Except ArgumentError Reading :=
  match r.pending, r.valuesOnly with
  | .frames none, false => .ok { r with pending := .frames (some a) }
  | _, _ => r.positional a

end Reading

/-- What one argument comes to: more is to be read, or help is asked for. -/
inductive Taken where
  | reading (r : Reading)
  | help

/-- Help is shown if nothing given before it is at fault. -/
def askHelp (r : Reading) : Except ArgumentError Taken :=
  match r.settle with
  | .error e => .error e
  | .ok _ => .ok .help

/-- Takes a long option without its dashes, and its value after `=`. -/
def takeLong (r : Reading) (name : String) (value? : Option String) : Except ArgumentError Taken :=
  if name = "frames" then
    match r.settle with
    | .error e => .error e
    | .ok r =>
      match value? with
      | none => .ok (.reading { r with pending := .frames none })
      | some _ => ({ r with pending := .frames value? }.settle).map .reading
  else if name = "help" then
    match value? with
    | none => askHelp r
    | some v => .error (.unexpectedValue v "--help")
  else .error (.unexpected ("--" ++ name))

/-- Takes one argument. -/
def take (r : Reading) (a : String) : Except ArgumentError Taken :=
  if r.valuesOnly then (r.value a).map .reading
  else
    match a.toList with
    | ['-', '-'] => .ok (.reading { r with valuesOnly := true })
    | '-' :: '-' :: rest =>
      let name := String.ofList (rest.takeWhile (· ≠ '='))
      match rest.dropWhile (· ≠ '=') with
      | [] => takeLong r name none
      | _ :: value => takeLong r name (some (String.ofList value))
    | ['-', 'h'] => askHelp r
    | '-' :: 'h' :: _ => askHelp r
    | '-' :: c :: _ => .error (.unexpected (String.ofList ['-', c]))
    | _ => (r.value a).map .reading

/-- Reads the arguments from left to right. -/
def read (r : Reading) : List String → Except ArgumentError Invocation
  | [] =>
    match r.settle with
    | .error e => .error e
    | .ok r => .ok (.run r.rom? (r.frames?.getD defaultFrames))
  | a :: rest =>
    match take r a with
    | .error e => .error e
    | .ok .help => .ok .help
    | .ok (.reading r) => read r rest

/-- What the arguments ask for. -/
def parse (arguments : List String) : Except ArgumentError Invocation :=
  read {} arguments

end Arguments
end EmuScheduler
