import LangBundle.Shell.Job

/-!
# Calling a command of the shell

A command that the shell runs itself is called with its arguments.  It goes on with the shell as it
leaves it, or fails with a message; options stand in front of its operands.
-/

namespace LangBundle.Shell

open Process

/-- A call of a command that the shell runs itself. -/
structure Call where
  name : String
  args : List String
  /-- How the whole command is looked at. -/
  mode : Mode
  /-- What follows a call that fails, and the end of the shell. -/
  exits : Exits
  run : Runner

/-- A command that the shell runs itself. -/
abbrev Builtin := Call → Env → Rest → Behaviour

/-- A text between single quotes; single quotes within it stand between double quotes. -/
def singleQuoted (s : String) : String :=
  let rec go : (fuel : Nat) → List Char → List Char
    | 0, _ => []
    | fuel + 1, cs =>
      let plain := cs.takeWhile (· != '\x27')
      let rest := cs.drop plain.length
      let quotes := rest.takeWhile (· == '\x27')
      let first := '\x27' :: plain ++ ['\x27']
      if quotes.isEmpty then first
      else
        let behind := rest.drop quotes.length
        first ++ '\x22' :: quotes ++ '\x22' :: if behind.isEmpty then [] else go fuel behind
  String.ofList (go (s.length + 1) s.toList)

namespace Call

/-- Fails with a message. -/
def fail (c : Call) (e : Env) (text : String) : Behaviour :=
  e.fault text c.exits

/-- Prints a text and goes on. -/
def print (c : Call) (e : Env) (text : String) (k : Rest) : Behaviour :=
  if text.isEmpty then k e
  else e.setting.write 1 (Octets.toBytes text) fun
    | .ok () => k e
    | .error _ => e.complain (c.name ++ ": I/O error") (k (e.after (e.status ||| 1)))

/-- The letters of an argument as options: those with values take the rest of the argument or the
next argument. -/
def letters (known : List Char) (valued : List Char) : List Char → List String →
    Except String (List (Char × String) × List String)
  | [], args => .ok ([], args)
  | c :: rest, args => do
    if valued.contains c then
      match rest, args with
      | [], [] => throw ("No arg for -" ++ c.toString ++ " option")
      | [], value :: args => return ([(c, value)], args)
      | rest, args => return ([(c, String.ofList rest)], args)
    else if known.contains c then
      let (more, args) ← letters known valued rest args
      return ((c, "") :: more, args)
    else throw ("Illegal option -" ++ c.toString)

/-- Takes the options in front of operands. -/
def takeOptions (known valued : List Char) : (fuel : Nat) → List String →
    Except String (List (Char × String) × List String)
  | 0, args => .ok ([], args)
  | fuel + 1, args =>
    match args with
    | a :: rest =>
      match a.toList with
      | ['-', '-'] => .ok ([], rest)
      | '-' :: c :: cs => do
        let (first, rest) ← letters known valued (c :: cs) rest
        let (more, rest) ← takeOptions known valued fuel rest
        return (first ++ more, rest)
      | _ => .ok ([], args)
    | [] => .ok ([], [])

/-- Goes on with the options and the operands of a call. -/
def withOptions (c : Call) (e : Env) (known valued : List Char)
    (k : List (Char × String) → List String → Behaviour) : Behaviour :=
  match takeOptions known valued (c.args.length + 1) c.args with
  | .ok (options, operands) => k options operands
  | .error text => c.fail e text

/-- Goes on with the operands of a call that takes no options. -/
def withOperands (c : Call) (e : Env) (k : List String → Behaviour) : Behaviour :=
  c.withOptions e [] [] fun _ => k

/-- Goes on with the number that a word writes. -/
def withNumber (c : Call) (e : Env) (word : String) (k : Nat → Behaviour) : Behaviour :=
  match number? word with
  | some n => k n
  | none => c.fail e ("Illegal number: " ++ word)

end Call

end LangBundle.Shell
