import LangBundle.CommandLine.Usage

/-!
# Reading arguments

Arguments are read from the left, and the first fault ends the reading.  A value that is a part of
its argument, as in `--port=80`, is looked at at once.  A value that is an argument of its own is
pending: it is looked at when the next parameter comes or the arguments end, so an argument behind
it that makes no sense is reported first.
-/

namespace LangBundle.CommandLine

/-- The form of an argument. -/
inductive Form where
  /-- Two dashes alone: only words follow. -/
  | separator
  /-- A name behind two dashes. -/
  | long (cs : List Char)
  /-- Letters behind one dash. -/
  | short (cs : List Char)
  | word
  deriving Repr, DecidableEq

/-- The form of an argument; a dash alone is a word. -/
def Form.of (argument : String) : Form :=
  match argument.toList with
  | ['-', '-'] => .separator
  | '-' :: '-' :: cs => .long cs
  | '-' :: c :: cs => .short (c :: cs)
  | _ => .word

/-- What has been read. -/
structure Reading where
  /-- The parameters that were accepted with their values, the last one first. -/
  given : List (Parameter × Value) := []
  /-- A parameter that waits for its value, or has it and has not been looked at. -/
  pending : Option (Parameter × Option String) := none
  deriving Repr, DecidableEq

namespace Reading

/-- Whether a parameter was given. -/
def has (r : Reading) (p : Parameter) : Bool :=
  r.given.any (·.1 = p)

/-- The text given for a parameter. -/
def text? (r : Reading) (p : Parameter) : Option String :=
  r.given.findSome? fun (q, v) => match v with
    | .text s => if q = p then some s else none
    | _ => none

/-- The texts given for a parameter in their order. -/
def texts (r : Reading) (p : Parameter) : List String :=
  r.given.reverse.filterMap fun (q, v) => match v with
    | .text s => if q = p then some s else none
    | _ => none

/-- The number given for a parameter. -/
def number? (r : Reading) (p : Parameter) : Option Nat :=
  r.given.findSome? fun (q, v) => match v with
    | .number n => if q = p then some n else none
    | _ => none

/-- Looks at a parameter and its value: the value must be there, the parameter must not have been
given before, and the value must be of the parameter's kind, in this order. -/
def add (r : Reading) (p : Parameter) (value : Option String) : Except Stop Reading :=
  match p, p.kind?, value with
  | .version, _, _ => .error .version
  | .help, _, _ => .error .help
  | _, some _, none => .error (.misuse (.missingValue p))
  | _, none, _ =>
    if r.has p then .error (.misuse (.repeated p))
    else .ok { r with given := (p, .nothing) :: r.given }
  | _, some kind, some s =>
    if r.has p && !p.isRepeatable then .error (.misuse (.repeated p))
    else match kind.read s with
      | .ok v => .ok { r with given := (p, v) :: r.given }
      | .error .missing => .error (.misuse (.missingValue p))
      | .error (.invalid reason) => .error (.misuse (.invalidValue p s reason))

/-- Looks at what is pending. -/
def settle (r : Reading) : Except Stop Reading :=
  match r.pending with
  | none => .ok r
  | some (p, value) => { r with pending := none }.add p value

/-- Looks at what is pending, then at a parameter. -/
def accept (r : Reading) (p : Parameter) (value : Option String) : Except Stop Reading := do
  (← r.settle).add p value

/-- Looks at what is pending, then lets a parameter wait for its value. -/
def await (r : Reading) (p : Parameter) : Except Stop Reading := do
  return { ← r.settle with pending := some (p, none) }

/-- Reads a name behind two dashes; a value may follow after `=`. -/
def readLong (r : Reading) (parameters : List Parameter) (cs : List Char) : Except Stop Reading :=
  let name := String.ofList (cs.takeWhile (· != '='))
  match parameters.find? (·.name = name), cs.dropWhile (· != '=') with
  | none, _ => .error (.misuse (.unexpected ("--" ++ name)))
  | some p, [] => if p.kind?.isSome then r.await p else r.accept p none
  | some p, _ :: value =>
    let value := String.ofList value
    if p.kind?.isSome then r.accept p (some value)
    else .error (.misuse (.unwantedValue p value))

/-- Reads letters behind one dash.  The first that stands for a parameter with a value takes the
rest as its value, less a `=` in front. -/
def readShort (r : Reading) (parameters : List Parameter) : List Char → Except Stop Reading
  | [] => .ok r
  | c :: rest =>
    match parameters.find? (·.letter? = some c) with
    | none => .error (.misuse (.unexpected (String.ofList ['-', c])))
    | some p =>
      if p.kind?.isNone then do (← r.accept p none).readShort parameters rest
      else match rest with
        | [] => r.await p
        | '=' :: value => r.accept p (some (String.ofList value))
        | value => r.accept p (some (String.ofList value))

/-- Reads the arguments of a command. -/
def readCommand (r : Reading) (parameters : List Parameter) : List String → Except Stop Reading
  | [] => r.settle
  | a :: rest =>
    match Form.of a with
    | .separator => match rest with
      | [] => r.settle
      | word :: _ => .error (.misuse (.unexpected word))
    | .long cs => do (← r.readLong parameters cs).readCommand parameters rest
    | .short cs => do (← r.readShort parameters cs).readCommand parameters rest
    | .word => match r.pending with
      | some (p, none) => { r with pending := some (p, some a) }.readCommand parameters rest
      | _ => .error (.misuse (.unexpected a))

end Reading

/-- What the arguments lack if there is no command among them. -/
def Reading.withoutCommand (r : Reading) : Stop :=
  .misuse (if r.given.isEmpty then .nothingGiven else .noCommand)

/-- Reads the words behind `help`, which may name one command. -/
def readHelp : List String → Stop
  | [] => .help
  | word :: rest =>
    if (Command.ofName? word).isNone && word ≠ "help" then .misuse (.unknownCommand word)
    else match rest with
      | [] => .help
      | more :: _ => .misuse (.unknownCommand more)

/-- Reads what stands before the command; gives the command and its arguments. -/
def readProgram (r : Reading) : List String → Except Stop (Command × List String)
  | [] => .error r.withoutCommand
  | a :: rest =>
    match Command.ofName? a, Form.of a with
    | some c, _ => .ok (c, rest)
    | none, .separator => match rest with
      | [] => .error r.withoutCommand
      | word :: _ =>
        if (Command.ofName? word).isSome || word = "help" then
          .error (.misuse (.unexpected word))
        else .error (.misuse (.unknownCommand word))
    | none, .long cs => do readProgram (← r.readLong programParameters cs) rest
    | none, .short cs => do readProgram (← r.readShort programParameters cs) rest
    | none, .word =>
      .error (if a = "help" then readHelp rest else .misuse (.unknownCommand a))

end LangBundle.CommandLine
