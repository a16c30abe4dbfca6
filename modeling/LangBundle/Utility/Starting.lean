import LangBundle.Process.Signal
import LangBundle.Process.Starting
import LangBundle.Utility.Plain

/-!
# Programs that start others

`env` changes the variables first, `nohup` a signal, and `timeout` ends what it starts after a time.
-/

namespace LangBundle.Utility

open Files (Fault)
open Process

/-- A program that starts another one. -/
abbrev StartingProgram := Starter → Program

/-- The search path of a setting. -/
def searchPathOf (s : Setting) : String :=
  (s.environmentValue "PATH").getD "/bin:/usr/bin"

/-- The code that says why a program cannot be started. -/
def faultCode (fault : Fault) : Nat :=
  if fault = .notFound then 127 else 126

/-- Goes on as the program that arguments name; `failed` says what follows if there is none. -/
def goOnAs (start : Starter) (s : Setting) (args : List String) (failed : Fault → Behaviour) :
    Behaviour :=
  .look fun w => match startNamed start s (searchPathOf s) args w.tree with
    | .ok program => s.settle program
    | .error fault => failed fault

/-! ## Variables -/

/-- Replaces the value of a variable where it stands, or adds it behind the others. -/
def setVariable (name value : String) (vars : List (String × String)) :
    List (String × String) :=
  if (vars.lookup name).isSome then
    vars.map fun (n, v) => (n, if n = name then value else v)
  else vars ++ [(name, value)]

/-- Where the splitting of a text into arguments is. -/
structure Splitting where
  /-- The arguments so far, the last one first. -/
  done : List String := []
  /-- The characters of the present argument, the last one first, if it has begun. -/
  word : Option (List Char) := none
  /-- The quote in which the text is. -/
  quote : Option Char := none

namespace Splitting

/-- Adds characters to the present argument. -/
def add (s : Splitting) (cs : List Char) : Splitting :=
  { s with word := some (cs.reverse ++ s.word.getD []) }

/-- Ends the present argument. -/
def close (s : Splitting) : Splitting :=
  match s.word with
  | some cs => { s with done := String.ofList cs.reverse :: s.done, word := none }
  | none => s

/-- Ends the text. -/
def finish (s : Splitting) : Except String (List String) :=
  if s.quote.isSome then .error "no terminating quote in -S string"
  else .ok s.close.done.reverse

/-- The name of a variable between braces, and what stands behind it. -/
def variableName? (cs : List Char) : Option (String × List Char) :=
  match cs with
  | '\x7b' :: rest =>
    let name := rest.takeWhile (· != '\x7d')
    let isName := match name with
      | [] => false
      | c :: cs => (c.isAlpha || c == '_') && cs.all fun c => Text.isAsciiAlphanumeric c || c == '_'
    if isName && name.length < rest.length then
      some (String.ofList name, rest.drop (name.length + 1))
    else none
  | _ => none

/-- Splits a text into arguments. -/
def run (value : String → Option String) : (fuel : Nat) → Splitting → List Char →
    Except String (List String)
  | 0, s, _ | _ + 1, s, [] => s.finish
  | fuel + 1, s, c :: rest =>
    let single := s.quote = some '\x27'
    let double := s.quote = some '\x22'
    let plain (c : Char) (rest : List Char) : Except String (List String) :=
      run value fuel (s.add [c]) rest
    let quote (c : Char) : Except String (List String) :=
      run value fuel { s.add [] with quote := if s.quote.isSome then none else some c } rest
    match c with
    | '\x27' => if double then plain c rest else quote c
    | '\x22' => if single then plain c rest else quote c
    | '\x5c' =>
      let next := rest.head?
      if single && next != some '\x5c' && next != some '\x27' then plain c rest
      else match rest with
        | [] => .error "invalid backslash at end of string in -S"
        | d :: rest =>
          match d with
          | '\x22' | '#' | '$' | '\x27' | '\x5c' => plain d rest
          | '_' => if double then plain ' ' rest else run value fuel s.close rest
          | 'c' => if double then
              .error "'\\c' must not appear in double-quoted -S string" else s.finish
          | 'f' => plain '\x0c' rest
          | 'n' => plain '\n' rest
          | 'r' => plain '\r' rest
          | 't' => plain '\t' rest
          | 'v' => plain '\x0b' rest
          | d => .error ("invalid sequence '\\" ++ d.toString ++ "' in -S")
    | '$' =>
      if single then plain c rest
      else match variableName? rest with
        | some (name, rest) =>
          run value fuel (match value name with
            | some text => s.add text.toList
            | none => s) rest
        | none => .error ("only $\x7bVARNAME\x7d expansion is supported, error at: " ++
            String.ofList (c :: rest))
    | '#' => if s.quote.isSome || s.word.isSome then plain c rest else s.finish
    | c =>
      if Text.isGap c && s.quote.isNone then run value fuel s.close rest else plain c rest

end Splitting

/-- What the options of `env` ask for. -/
structure Changes where
  ignores : Bool := false
  unset : List String := []
  directory : Option String := none
  zero : Bool := false
  /-- Whether everything that is done is said. -/
  verbose : Bool := false
  /-- What has been said of it. -/
  report : String := ""

/-- The lines that are said about arguments, with a title in front of each. -/
def reportLines (title : Nat → String) (args : List String) : String :=
  String.join (args.zipIdx.map fun (a, i) => title i ++ quoted a ++ "\n")

/-- The options of `env`. -/
def envChoices : List Choice :=
  [⟨'i', "ignore-environment", .no⟩, ⟨'0', "null", .no⟩, ⟨'u', "unset", .yes⟩,
    ⟨'C', "chdir", .yes⟩, ⟨'S', "split-string", .yes⟩, ⟨'v', "debug", .no⟩]

/-- Reads the options of `env`; what is wrong comes with whether help is offered. -/
def readChanges (value : String → Option String) : (fuel : Nat) → Changes → List String →
    Except (String × Bool) (Changes × List String)
  | 0, c, args => .ok (c, args)
  | fuel + 1, c, args =>
    match args with
    | [] => .ok (c, [])
    | "--" :: rest => .ok (c, rest)
    | "-" :: rest => .ok ({ c with ignores := true }, rest)
    | a :: rest =>
      let taken := match a.toList with
        | '-' :: '-' :: cs => some (takeLong envChoices (String.ofList cs) rest)
        | '-' :: cs => some (takeLetters envChoices cs rest)
        | _ => none
      match taken with
      | none => .ok (c, args)
      | some (.error text) => .error (text, true)
      | some (.ok (options, rest)) =>
        let c := options.foldl (fun (c : Changes) (letter, value) => match letter with
          | 'i' => { c with ignores := true }
          | 'u' => { c with unset := c.unset ++ [value] }
          | 'C' => { c with directory := some value }
          | '0' => { c with zero := true }
          | 'v' => { c with verbose := true }
          | _ => c) c
        match options.lookup 'S' with
        | none => readChanges value fuel c rest
        | some text =>
          match Splitting.run value (text.length + 1) {} text.toList with
          | .error text => .error (text, false)
          | .ok words =>
            let report := c.report ++ if !c.verbose then "" else
              "split -S:  " ++ quoted text ++ "\n" ++
                reportLines (fun i => if i = 0 then " into:    " else "     &    ") words
            readChanges value fuel { c with report } (words ++ rest)

/-- The arguments that set variables, and the others. -/
def takeSettings : List String → List (String × String) × List String
  | [] => ([], [])
  | a :: rest =>
    let cs := a.toList
    let name := cs.takeWhile (· != '=')
    if name.length < cs.length then
      let (settings, rest) := takeSettings rest
      ((String.ofList name, String.ofList (cs.drop (name.length + 1))) :: settings, rest)
    else ([], a :: rest)

/-- Starts a program with other variables, or prints the variables. -/
def env : StartingProgram := fun start s name args =>
  let fail (text : String) : Behaviour := complain s name text (exit 125)
  match readChanges s.environmentValue (2 * args.length + 64) {} args with
  | .error (text, true) => misused s name text 125
  | .error (text, false) => fail text
  | .ok (c, rest) =>
    let wrong := c.unset.find? fun n => n.isEmpty || n.toList.contains '='
    let (settings, command) := takeSettings rest
    let old := if c.ignores then [] else s.environment.filter fun (n, _) => !c.unset.contains n
    let environment := settings.foldl (fun vs (n, v) => setVariable n v vs) old
    let say (text : String) (next : Behaviour) : Behaviour :=
      if c.verbose then s.say text next else next
    let changed := c.report ++ (if c.ignores then "cleaning environ\n"
        else String.join (c.unset.map fun n => "unset:    " ++ n ++ "\n")) ++
      String.join (settings.map fun (n, v) => "setenv:   " ++ n ++ "=" ++ v ++ "\n")
    match wrong with
    | some n => fail ("cannot unset " ++ quoted n ++ ": " ++ Fault.invalidArgument.description)
    | none =>
      if command.isEmpty then
        if c.directory.isSome then misused s name "must specify command with --chdir (-C)" 125
        else
          let ending := if c.zero then "\x00" else "\n"
          let text := String.join (environment.map fun (n, v) => n ++ "=" ++ v ++ ending)
          say changed (finishWith s name (bytes text) 0 125)
      else if c.zero then misused s name "cannot specify --null (-0) with command" 125
      else .look fun w =>
        let place : Except Fault Files.Place := match c.directory with
          | none => .ok s.cwd
          | some path => w.tree.directoryAt s.cwd (Octets.toText path)
        match place with
        | .error fault => fail ("cannot change directory to " ++
            quoted (c.directory.getD "") ++ ": " ++ fault.description)
        | .ok cwd =>
          let first := command.headD ""
          let report := changed ++
            String.join (c.directory.toList.map fun d => "chdir:    " ++ quoted d ++ "\n") ++
            "executing: " ++ first ++ "\n" ++
            reportLines (fun i => "   arg[" ++ toString i ++ "]= ") command
          say report <| goOnAs start { s with environment, cwd } command fun fault =>
            complain s name (quoted first ++ ": " ++ fault.description)
              (if fault = .notFound && first.toList.contains ' ' then
                complain s name "use -[v]S to pass options in shebang lines" (exit 127)
              else exit (faultCode fault))

/-! ## Signals and time -/

/-- Starts a program that the end of its terminal does not end. -/
def nohup : StartingProgram := fun start s name args =>
  match args with
  | [] => misused s name "missing operand" 125
  | first :: rest =>
    let command := if first = "--" then rest else args
    if first.startsWith "-" && first != "--" && first != "-" then
      match takeLetters [] (first.toList.drop 1) rest with
      | .error text => misused s name text 125
      | .ok _ => exit 125
    else if command.isEmpty then misused s name "missing operand" 125
    else .act (·.onMember s.process fun m => { m with ignored := 1 :: m.ignored }) fun _ =>
      goOnAs start s command fun fault =>
        complain s name ("failed to run command " ++ quoted (command.headD "") ++ ": " ++
          fault.description) (exit (faultCode fault))

/-- The processes that a process has started, and those that they have. -/
def processesBelow (w : World) : (fuel : Nat) → List Nat → List Nat
  | 0, ns => ns
  | fuel + 1, ns =>
    let more := w.system.members.filterMap fun (n, m) =>
      if ns.contains m.parent && !ns.contains n then some n else none
    if more.isEmpty then ns else processesBelow w fuel (ns ++ more)

/-- Sends a signal to a process and to all below it. -/
def signalBelow (process signal : Nat) (w : World) : World :=
  (processesBelow w w.system.members.length [process]).foldl (·.signal · signal) w

/-- How a program is ended after a time. -/
structure Deadline where
  signal : Nat := 15
  /-- After which time more the program is killed, if it still runs. -/
  killAfter : Option Nat := none
  verbose : Bool := false
  /-- Whether the code of the program counts also if it was ended. -/
  keepsCode : Bool := false

/-- Reads a time; what is said if it is none. -/
def timeOf (text : String) : Except String (Option Nat) :=
  match duration? text with
  | some time => .ok time
  | none => .error ("invalid time interval " ++ quoted text)

/-- How options say that a program is ended. -/
def deadlineOf (a : Arguments) : Except String Deadline :=
  a.options.foldlM (fun (d : Deadline) (letter, text) => match letter with
    | 'k' => do return { d with killAfter := (← timeOf text) }
    | 's' => match Signal.number? text with
      | some signal => .ok { d with signal }
      | none => .error (quoted text ++ ": invalid signal")
    | 'v' => .ok { d with verbose := true }
    | '\x01' => .ok { d with keepsCode := true }
    | _ => .ok d) {}

/-- What sends a process a signal after a time. -/
def timer (s : Setting) (name command : String) (d : Deadline) (time signal child : Nat) :
    Behaviour :=
  let send : Behaviour := .act (signalBelow child signal) fun _ => exit 0
  .hold [] (.sleep time (if d.verbose then
    complain s name ("sending signal " ++ Signal.name signal ++ " to command " ++ quoted command)
      send
    else send))

/-- Starts a program that is ended after a time. -/
def timeout : StartingProgram := fun start s name args =>
  let choices : List Choice :=
    [⟨'k', "kill-after", .yes⟩, ⟨'s', "signal", .yes⟩, ⟨'v', "verbose", .no⟩,
      ⟨'\x00', "foreground", .no⟩, ⟨'\x01', "preserve-status", .no⟩]
  withArguments s name 125 choices args (fun a =>
    match deadlineOf a, a.operands with
    | .error text, _ => misused s name text 125
    | .ok d, first :: command :: rest =>
      match timeOf first with
      | .error text => misused s name text 125
      | .ok time =>
        let child (n : Nat) : Behaviour :=
          goOnAs start { s with process := n } (command :: rest) fun fault =>
            complain s name ("failed to run command " ++ quoted command ++ ": " ++
              fault.description) (exit (faultCode fault))
        let first (child : Nat) : Behaviour := match time with
          | some (t + 1) => timer s name command d (t + 1) d.signal child
          | _ => .hold [] .hang
        let second (child : Nat) : Behaviour := match time, d.killAfter with
          | some (t + 1), some (after + 1) => timer s name command d (t + 1 + after + 1) 9 child
          | _, _ => .hold [] .hang
        .look fun w =>
          let isLate (now : Nat) : Bool := match time with
            | some (t + 1) => w.clock + t + 1 ≤ now
            | _ => false
          .fork child fun n => .fork (fun _ => first n) fun watch => .fork (fun _ => second n)
            fun guard => .reap n fun status =>
              .act (fun w => (w.signal watch 9).signal guard 9) fun w =>
                let late := isLate w.clock && !d.keepsCode
                match status with
                | .exited code => exit (if late then 124 else code)
                | .signalled number =>
                  if number = 9 then .done (.signalled 9)
                  else exit (if late then 124 else 128 + number)
    | _, _ => s.say ("Try '" ++ name ++ " --help' for more information.\n") (exit 125)) isOperand

end LangBundle.Utility
