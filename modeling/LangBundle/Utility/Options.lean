import LangBundle.Process.Setting
import LangBundle.Utility.Quoting

/-!
# Options and operands

How the programs of the system take their arguments apart, and what they say about them.  Options
may stand behind operands, but not behind two dashes.
-/

namespace LangBundle.Utility

open Files (Fault)
open Process

/-- A program of the system: what it does with its setting, the name it was called by, and its
arguments. -/
abbrev Program := Setting → (name : String) → (args : List String) → Behaviour

/-- Whether an option has a value. -/
inductive Value where
  | no
  | yes
  | maybe
  deriving Repr, DecidableEq

/-- An option: its letter, its long name and whether it has a value. -/
structure Choice where
  letter : Char
  long : String := ""
  value : Value := .no

/-- Options that were given, each with its value, and operands. -/
structure Arguments where
  options : List (Char × String) := []
  operands : List String := []

namespace Arguments

/-- Whether an option was given. -/
def has (a : Arguments) (letter : Char) : Bool :=
  a.options.any (·.1 == letter)

/-- The last value of an option. -/
def value? (a : Arguments) (letter : Char) : Option String :=
  (a.options.filter (·.1 == letter)).getLast?.map (·.2)

/-- All values of an option. -/
def values (a : Arguments) (letter : Char) : List String :=
  (a.options.filter (·.1 == letter)).map (·.2)

/-- The last of some options that was given. -/
def last? (a : Arguments) (letters : List Char) : Option Char :=
  (a.options.filter fun o => letters.contains o.1).getLast?.map (·.1)

end Arguments

/-- The letters of one argument. -/
def takeLetters (known : List Choice) : List Char → List String →
    Except String (List (Char × String) × List String)
  | [], rest => .ok ([], rest)
  | c :: cs, rest =>
    match known.find? (·.letter == c) with
    | none => .error ("invalid option -- '" ++ c.toString ++ "'")
    | some o =>
      match o.value with
      | .no => do
        let (more, rest) ← takeLetters known cs rest
        return ((c, "") :: more, rest)
      | .maybe => .ok ([(c, String.ofList cs)], rest)
      | .yes =>
        if !cs.isEmpty then .ok ([(c, String.ofList cs)], rest)
        else match rest with
          | value :: rest => .ok ([(c, value)], rest)
          | [] => .error ("option requires an argument -- '" ++ c.toString ++ "'")

/-- A long option: its name may be cut short as long as only one begins like that. -/
def takeLong (known : List Choice) (text : String) (rest : List String) :
    Except String (List (Char × String) × List String) :=
  let name := String.ofList (text.toList.takeWhile (· != '='))
  let given : Option String :=
    if name.length < text.length then some (String.ofList (text.toList.drop (name.length + 1)))
    else none
  let named := known.filter fun o => !o.long.isEmpty && o.long.startsWith name
  let found := match named.filter (·.long == name) with
    | [] => named
    | exact => exact
  match found with
  | [] => .error ("unrecognized option '--" ++ text ++ "'")
  | o :: others =>
    if others.any (·.letter != o.letter) then
      .error ("option '--" ++ text ++ "' is ambiguous; possibilities:" ++
        String.join (found.map fun o => " '--" ++ o.long ++ "'"))
    else match o.value, given with
      | .no, some _ => .error ("option '--" ++ o.long ++ "' doesn't allow an argument")
      | .no, none => .ok ([(o.letter, "")], rest)
      | .maybe, _ => .ok ([(o.letter, given.getD "")], rest)
      | .yes, some value => .ok ([(o.letter, value)], rest)
      | .yes, none => match rest with
        | value :: rest => .ok ([(o.letter, value)], rest)
        | [] => .error ("option '--" ++ o.long ++ "' requires an argument")

/-- Whether an argument is no option. -/
def isOperand (a : String) : Bool :=
  !a.startsWith "-" || a == "-"

/-- Takes arguments apart; no option stands behind an argument that `ends` them. -/
def takeArguments (known : List Choice) (ends : String → Bool) : (fuel : Nat) → List String →
    Except String Arguments
  | 0, args => .ok { operands := args }
  | fuel + 1, args =>
    let behind (found : List (Char × String) × List String) : Except String Arguments := do
      let more ← takeArguments known ends fuel found.2
      return { more with options := found.1 ++ more.options }
    match args with
    | [] => .ok {}
    | "--" :: rest => .ok { operands := rest }
    | a :: rest =>
      if ends a then .ok { operands := args }
      else match a.toList with
        | '-' :: '-' :: cs => do behind (← takeLong known (String.ofList cs) rest)
        | '-' :: c :: cs => do behind (← takeLetters known (c :: cs) rest)
        | _ => do
          let more ← takeArguments known ends fuel rest
          return { more with operands := a :: more.operands }

/-- Says something that a program has to say. -/
def complain (s : Setting) (name text : String) (next : Behaviour) : Behaviour :=
  s.say (name ++ ": " ++ text ++ "\n") next

/-- Says what is wrong with the arguments and where help is found. -/
def misused (s : Setting) (name text : String) (code : Nat) : Behaviour :=
  s.say (name ++ ": " ++ text ++ "\nTry '" ++ name ++ " --help' for more information.\n")
    (exit code)

/-- Goes on with options and operands; wrong ones end the program with a code. -/
def withArguments (s : Setting) (name : String) (code : Nat) (known : List Choice)
    (args : List String) (k : Arguments → Behaviour) (ends : String → Bool := fun _ => false) :
    Behaviour :=
  match takeArguments known ends (args.length + 1) args with
  | .ok a => k a
  | .error text => misused s name text code

/-- A value that an option can have, and the words for it. -/
structure Wording (α : Type) where
  words : List String
  value : α

/-- The value that a word stands for.  It may be cut short as long as all words that begin like that
stand for one value. -/
def worded {α : Type} [BEq α] (known : List (Wording α)) (option text : String) :
    Except String α :=
  let exact := known.filter (·.words.contains text)
  let begun := known.filter (·.words.any (·.startsWith text))
  let refused (what : String) : Except String α :=
    .error (what ++ " argument " ++ quoted text ++ " for " ++ quoted option ++
      "\nValid arguments are:" ++ String.join (known.map fun w =>
        "\n  - " ++ ", ".intercalate (w.words.map quoted)))
  match if exact.isEmpty then begun else exact with
  | [] => refused "invalid"
  | w :: others => if others.all (·.value == w.value) then .ok w.value else refused "ambiguous"

/-- Says that an operand is missing. -/
def missing (s : Setting) (name operand : String) : Behaviour :=
  misused s name ("missing " ++ operand) 1

/-- Ends with a text that was kept back up to the end. -/
def finishWith (s : Setting) (name : String) (text : Bytes) (code : Nat) (failed : Nat := 1) :
    Behaviour :=
  if text.isEmpty then exit code
  else s.write 1 text fun
    | .ok () => exit code
    | .error fault => complain s name ("write error: " ++ fault.description) (exit failed)

/-- Ends with a text of octets that was kept back up to the end. -/
def finishText (s : Setting) (name text : String) (code : Nat) : Behaviour :=
  finishWith s name (Octets.toBytes text) code

/-- Does something for each of a row, passing on what has been gathered. -/
def forEach {α β : Type} (each : α → β → (β → Behaviour) → Behaviour) : List α → β →
    (β → Behaviour) → Behaviour
  | [], b, k => k b
  | a :: rest, b, k => each a b fun b => forEach each rest b k

end LangBundle.Utility
