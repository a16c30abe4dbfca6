import LangBundle.Shell.Builtin.Call

/-!
# Variables, options and arguments

The commands that change what a shell knows: `set`, `export`, `readonly`, `local`, `unset`, `shift`
and `getopts`.
-/

namespace LangBundle.Shell.Builtin

open Process

/-- The name and the value of an argument that assigns. -/
def assignmentOf (arg : String) : String × Option String :=
  let cs := arg.toList
  (String.ofList (cs.takeWhile (· != '=')),
    match cs.dropWhile (· != '=') with
    | [] => none
    | _ :: value => some (String.ofList value))

/-- The variables that a shell never forgets. -/
def lastingNames : List String :=
  ["IFS", "MAIL", "MAILPATH", "PATH", "PS1", "PS2", "PS4", "OPTIND"]

/-- Changes a variable, unless it has no proper name or must not be changed. -/
def change (c : Call) (e : Env) (name : String) (f : Variable → Option Variable) (k : Rest) :
    Behaviour :=
  if !Reader.isName name.toList then c.fail e (name ++ ": bad variable name")
  else if !e.mayAssign name then c.fail e (name ++ ": is read only")
  else k ((e.setVariable name (f (e.binding name))).noticing name)

/-- A variable with a new value. -/
def withValue (e : Env) (value : String) (v : Variable) : Variable :=
  { v with value := some value, exported := v.exported || e.has 'a' }

/-- The lines that show variables, behind a word for each. -/
def shownVariables (e : Env) (word : String) (isShown : Variable → Bool) : String :=
  let rows := (e.vars.filter fun (_, v) => isShown v).mergeSort fun a b => !(b.1 < a.1)
  String.join (rows.map fun (n, v) =>
    word ++ n ++ (match v.value with
      | some value => "=" ++ singleQuoted value
      | none => "") ++ "\n")

/-- Marks variables, which may be assigned at the same time, or shows those that are marked. -/
def mark (word : String) (isMarked : Variable → Bool) (marked : Variable → Variable) : Builtin :=
  fun c e k => c.withOptions e ['p'] [] fun options operands =>
    let rec each : List String → Env → Behaviour
      | [], e => k (e.after 0)
      | a :: rest, e =>
        match assignmentOf a with
        | (name, some value) =>
          change c e name (fun v => some (marked (withValue e value v))) (each rest)
        | (name, none) =>
          if (e.vars.lookup name).isSome then
            each rest (e.setVariable name (some (marked (e.binding name))))
          else change c e name (fun v => some (marked v)) (each rest)
    if options.isEmpty && !operands.isEmpty then each operands e
    else c.print (e.after 0) (shownVariables e (word ++ " ") isMarked) k

/-- Lets programs have variables. -/
def exporting : Builtin :=
  mark "export" (·.exported) fun v => { v with exported := true }

/-- Fixes the values of variables. -/
def fixing : Builtin :=
  mark "readonly" (·.readOnly) fun v => { v with readOnly := true }

/-- Makes a variable local to the command that runs, and gives it a value if there is one. -/
def makeLocal (c : Call) (exported : Bool) (name : String) (value : Option String) (e : Env)
    (k : Rest) : Behaviour :=
  let old := e.vars.lookup name
  let mark (v : Variable) : Variable := { v with exported := v.exported || exported }
  match value with
  | some value =>
    change c (e.remember (.binding name old)) name (fun v => some (mark (withValue e value v))) k
  | none =>
    if old.isSome then k (e.remember (.binding name old))
    else change c (e.remember (.binding name old)) name (fun v => some (mark v)) k

/-- Makes variables that a function has for itself. -/
def localize : Builtin := fun c e k =>
  let rec each : List String → Env → Behaviour
    | [], e => k (e.after 0)
    | "-" :: rest, e => each rest (e.remember (.options e.options))
    | a :: rest, e =>
      let (name, value) := assignmentOf a
      makeLocal c false name value e (each rest)
  if e.undo.isEmpty then c.fail e "not in a function" else each c.args e

/-- Forgets variables, or functions with `-f`. -/
def unsetting : Builtin := fun c e k => c.withOptions e ['v', 'f'] [] fun options operands =>
  let rec each : List String → Env → Behaviour
    | [], e => k (e.after 0)
    | name :: rest, e =>
      change c e name (fun v => if lastingNames.contains name then some { v with value := none }
        else none) (each rest)
  match options.getLast? with
  | some ('f', _) =>
    k ({ e with functions := e.functions.filter fun f => !operands.contains f.1 }.after 0)
  | _ => each operands e

/-- The options by letter and name, in the order in which they are shown. -/
def optionNames : List (Char × String) :=
  [('e', "errexit"), ('f', "noglob"), ('I', "ignoreeof"), ('i', "interactive"), ('m', "monitor"),
    ('n', "noexec"), ('s', "stdin"), ('x', "xtrace"), ('v', "verbose"), ('V', "vi"),
    ('E', "emacs"), ('C', "noclobber"), ('a', "allexport"), ('b', "notify"), ('u', "nounset"),
    ('p', "privileged"), ('0', "nolog"), ('1', "debug")]

/-- Turns an option on or off. -/
def turn (on : Bool) (letter : Char) (options : List Char) : List Char :=
  let others := options.filter (· != letter)
  let others := if on && letter = 'V' then others.filter (· != 'E')
    else if on && letter = 'E' then others.filter (· != 'V')
    else others
  if on then letter :: others else others

/-- The lines that show the options. -/
def shownOptions (asCommands : Bool) (options : List Char) : String :=
  let row (letter : Char) (name : String) : String :=
    let on := options.contains letter
    if asCommands then "set " ++ (if on then "-o " else "+o ") ++ name ++ "\n"
    else name ++ String.ofList (List.replicate (16 - name.length) ' ') ++
      (if on then "on" else "off") ++ "\n"
  (if asCommands then "" else "Current option settings\n") ++
    String.join (optionNames.map fun (letter, name) => row letter name)

/-- What options change: the letters that are on, the arguments if they are replaced, and a text
that shows the options. -/
structure Settled where
  options : List Char
  params : Option (List String) := none
  shown : String := ""
  /-- A script stands behind the options. -/
  asksScript : Bool := false
  /-- The arguments behind the options. -/
  rest : List String := []

/-- The letters of one argument. -/
def settleLetters (atStart on : Bool) : List Char → List String → Settled → Except String Settled
  | [], args, s => .ok { s with rest := args }
  | 'o' :: cs, args, s =>
    match args with
    | [] => settleLetters atStart on cs [] { s with
        shown := s.shown ++ shownOptions (!on) s.options }
    | name :: args =>
      match optionNames.find? (·.2 == name) with
      | some (letter, _) =>
        settleLetters atStart on cs args { s with options := turn on letter s.options }
      | none => .error ("Illegal option -o " ++ name)
  | c :: cs, args, s =>
    if atStart && c = 'c' then settleLetters atStart on cs args { s with asksScript := true }
    else if atStart && c = 'l' then settleLetters atStart on cs args s
    else if optionNames.any fun (letter, _) => letter == c && c != '0' && c != '1' then
      settleLetters atStart on cs args { s with options := turn on c s.options }
    else .error ("Illegal option -" ++ c.toString)

/-- Takes options in front of arguments, those of the shell itself at its start. -/
def settle (atStart : Bool) : (fuel : Nat) → List String → Settled → Except String Settled
  | 0, args, s => .ok { s with rest := args }
  | fuel + 1, args, s =>
    match args with
    | [] => .ok { s with rest := [] }
    | a :: rest =>
      match a.toList with
      | ['-'] => .ok { s with
          rest
          options := if atStart then s.options else turn false 'x' (turn false 'v' s.options) }
      | ['-', '-'] => .ok { s with
          rest, params := if atStart || !rest.isEmpty then none else some [] }
      | sign :: cs =>
        if sign = '-' || sign = '+' then do
          let s ← settleLetters atStart (sign = '-') cs rest s
          settle atStart fuel s.rest s
        else .ok { s with rest := args }
      | [] => .ok { s with rest := args }

/-- What is said where jobs should be controlled. -/
def noControl : String :=
  "can't access tty; job control turned off"

/-- Sets options and arguments, or shows the variables. -/
def setting : Builtin := fun c e k =>
  if c.args.isEmpty then
    c.print (e.after 0) (shownVariables e "" (·.value.isSome)) k
  else match settle false (c.args.length + 1) c.args { options := e.options } with
    | .error text => c.fail e text
    | .ok s =>
      let params := if s.rest.isEmpty then s.params.getD e.params else s.rest
      let isReplaced := !s.rest.isEmpty || s.params.isSome
      let e := { e with options := turn false 'm' s.options, params }
      let e := if isReplaced then { e with nextOption := 1, letter := none } else e
      let go := c.print (e.after 0) s.shown k
      if s.options.contains 'm' then e.complain noControl go else go

/-- Drops arguments of the shell. -/
def shifting : Builtin := fun c e k =>
  c.withNumber e (c.args.headD "1") fun n =>
    if e.params.length < n then c.fail e "can't shift that many"
    else k ({ e with params := e.params.drop n, nextOption := 1, letter := none }.after 0)

/-! ## Letters of arguments -/

/-- What a step through the letters of arguments finds. -/
structure Found where
  letter : Char := '?'
  value : Option String := none
  message : String := ""
  isOver : Bool := false
  nextOption : Nat
  /-- How many letters of the argument have been read, if some are left. -/
  read : Option Nat := none

/-- The known letters, and whether each has a value: a colon stands behind it then. -/
def knownLetters : List Char → List (Char × Bool)
  | c :: ':' :: rest => (c, true) :: knownLetters rest
  | c :: rest => (c, false) :: knownLetters rest
  | [] => []

/-- One step through the letters of arguments. -/
def nextLetter (letters : List Char) (args : List String) (nextOption : Nat)
    (read : Option Nat) : Found :=
  let argAt (i : Nat) : Option (List Char) := if i = 0 then none else args[i - 1]?.map (·.toList)
  let silent := letters.head? = some ':'
  let step (cs : List Char) (next : Nat) : Found :=
    match cs with
    | [] => { nextOption := next, isOver := true }
    | c :: rest =>
      let left : Option Nat :=
        if rest.isEmpty then none else some (((argAt (next - 1)).getD []).length - rest.length)
      match (knownLetters letters).lookup c with
      | none =>
        { value := if silent then some c.toString else none
          message := if silent then "" else "Illegal option -" ++ c.toString ++ "\n"
          nextOption := next, read := left }
      | some false => { letter := c, value := some "", nextOption := next, read := left }
      | some true =>
        if !rest.isEmpty then
          { letter := c, value := some (String.ofList rest), nextOption := next }
        else match argAt next with
          | some value =>
            { letter := c, value := some (String.ofList value), nextOption := next + 1 }
          | none =>
            { letter := if silent then ':' else '?'
              value := if silent then some c.toString else none
              message := if silent then "" else "No arg for -" ++ c.toString ++ " option\n"
              nextOption := next }
  let inside : List Char := match read with
    | some n => ((argAt (nextOption - 1)).getD []).drop n
    | none => []
  if !inside.isEmpty then step inside nextOption
  else match argAt nextOption with
    | some ['-', '-'] => { nextOption := nextOption + 1, isOver := true }
    | some ('-' :: c :: cs) => step (c :: cs) (nextOption + 1)
    | _ => { nextOption, isOver := true }

/-- Reads the next letter of the arguments. -/
def lettering : Builtin := fun c e k => c.withOperands e fun operands =>
  match operands with
  | letters :: name :: args =>
    let args := if args.isEmpty then e.params else args
    let stale := args.length + 1 < e.nextOption
    let found := nextLetter letters.toList args (if stale then 1 else e.nextOption)
      (if stale then none else e.letter)
    let finish (e : Env) : Behaviour :=
      let e := { e with nextOption := found.nextOption, letter := found.read }
      k (e.after (if found.isOver then 1 else 0))
    let e := if found.isOver then e
      else match found.value with
        | some value => e.assign "OPTARG" value
        | none => e.setVariable "OPTARG" none
    let assign (e : Env) : Behaviour :=
      let e := e.assign "OPTIND" (toString found.nextOption)
      change c e name (fun v => some (withValue e found.letter.toString v)) finish
    if found.message.isEmpty then assign e else e.setting.say found.message (assign e)
  | _ => c.fail e "Usage: getopts optstring var [arg...]"

end LangBundle.Shell.Builtin
