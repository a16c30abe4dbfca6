import LangBundle.Process.Setting
import LangBundle.Process.Signal
import LangBundle.Shell.Grammar
import LangBundle.Text.Integer

/-!
# A shell while it runs

What a shell knows, what may follow a command, and how the shell ends.  What comes after a command
is a function of the shell as the command leaves it.  All texts of a shell are texts of bytes.

A command that leaves a loop or a function says so in the shell that it leaves behind: all commands
up to the end of that loop or function are then skipped.
-/

namespace LangBundle.Shell

open Files (Fault Place)
open Process

/-- A variable of a shell. -/
structure Variable where
  value : Option String := none
  exported : Bool := false
  readOnly : Bool := false
  deriving Repr, DecidableEq

/-- Why commands are skipped. -/
inductive Skip where
  | nothing
  /-- A number of loops is left. -/
  | loops (count : Nat)
  /-- A number of loops is left, and the last of them goes on with its next round. -/
  | round (count : Nat)
  /-- A function or a file of commands is left; `explicit` if with a result of its own. -/
  | function (explicit : Bool)
  deriving Repr, DecidableEq

/-- Processes that were started together.  The results of those that somebody waited for are
known. -/
structure Job where
  number : Nat
  processes : List (Nat × Option ExitStatus)
  /-- Whether somebody has waited for the whole job; it is forgotten when its number is needed. -/
  waited : Bool := false
  deriving Repr, DecidableEq

/-- What is undone at the end of a command. -/
inductive Undo where
  | binding (name : String) (old : Option Variable)
  | options (old : List Char)
  deriving Repr, DecidableEq

/-- A shell while it runs. -/
structure Env where
  /-- The name of the shell or its script. -/
  name : String
  params : List String := []
  vars : List (String × Variable) := []
  functions : List (String × Command) := []
  documents : List (Nat × Word) := []
  nextDocument : Nat := 0
  aliases : List (String × String) := []
  /-- The letters of the options that are on. -/
  options : List Char := []
  status : Nat := 0
  /-- The result of the last command whose output was taken. -/
  outputStatus : Nat := 0
  /-- The result of the last command before a script that answers a signal. -/
  statusBefore : Option Nat := none
  skip : Skip := .nothing
  loops : Nat := 0
  /-- The scripts that answer signals; number zero is the end of the shell. -/
  traps : List (Nat × String) := []
  /-- What is undone at the end of the commands that run, the innermost first. -/
  undo : List (List Undo) := []
  line : Nat := 1
  /-- The line up to which the text that runs has been read. -/
  lastLine : Nat := 1
  /-- The line up to which the script of the shell has been read, if it is no argument. -/
  scriptLine : Nat := 1
  /-- Whether the text that runs is that script. -/
  inScript : Bool := false
  /-- The command that messages name. -/
  command : Option String := none
  /-- Whether a trace of a command is being made. -/
  tracing : Bool := false
  jobs : List Job := []
  /-- The number of the last process in the background. -/
  background : Option Nat := none
  /-- The number of the shell itself, also within its subshells, and of the one that started it. -/
  number : Nat := 0
  parent : Nat := 0
  /-- The argument whose letters are read next, counted from one, and how many letters of the one
  before it have been read. -/
  nextOption : Nat := 1
  letter : Option Nat := none
  /-- The commands that were found in the search path. -/
  found : List String := []
  /-- The path by which the working directory was reached. -/
  here : String := ""
  /-- The descriptors from before the redirections that are in force, the innermost first, and the
  streams that were kept then. -/
  covered : List (List (Nat × Stream) × List Stream) := []
  setting : Setting

/-- What follows a command. -/
abbrev Rest := Env → Behaviour

/-- The ends of the shell: by itself, and by a fault that leaves commands unfinished. -/
structure Exits where
  quit : Rest
  fail : Rest

/-- How a command is looked at. -/
structure Mode where
  /-- Whether somebody looks at how the command ends; failing does not end a strict shell then. -/
  tested : Bool := false
  /-- Whether the shell ends with the command. -/
  last : Bool := false

/-- Runs a command in a shell. -/
abbrev Runner := Command → Mode → Exits → Env → Rest → Behaviour

namespace Env

/-! ## Results and messages -/

/-- The shell after a command with the given result. -/
def after (e : Env) (status : Nat) : Env :=
  { e with status }

/-- The text of a message: the script's name, the line and the command that runs. -/
def message (e : Env) (text : String) : String :=
  let command := match e.command with
    | some name => name ++ ": "
    | none => ""
  e.name ++ ": " ++ toString e.line ++ ": " ++ command ++ text ++ "\n"

/-- Says something on the error stream. -/
def complain (e : Env) (text : String) (next : Behaviour) : Behaviour :=
  e.setting.say (e.message text) next

/-- Says something and leaves the commands unfinished. -/
def fault (e : Env) (text : String) (exits : Exits) : Behaviour :=
  e.complain text (exits.fail (e.after 2))

/-- Whether an option is on. -/
def has (e : Env) (option : Char) : Bool :=
  e.options.contains option

/-! ## Variables -/

/-- The value of a variable, if it has one. -/
def value? (e : Env) (name : String) : Option String :=
  (e.vars.lookup name).bind (·.value)

/-- Replaces what a name stands for; a new name comes last. -/
def setVariable (e : Env) (name : String) (new : Option Variable) : Env :=
  { e with vars := match new with
      | none => e.vars.filter (·.1 != name)
      | some v =>
        if (e.vars.lookup name).isSome then
          e.vars.map fun (n, old) => (n, if n = name then v else old)
        else e.vars ++ [(name, v)] }

/-- What a shell knows of a variable. -/
def binding (e : Env) (name : String) : Variable :=
  (e.vars.lookup name).getD {}

/-- Whether a variable may be assigned. -/
def mayAssign (e : Env) (name : String) : Bool :=
  !(e.binding name).readOnly

/-- What changes with a variable: the arguments are read from the one that it counts, and commands
are looked for anew. -/
def noticing (e : Env) (name : String) : Env :=
  if name = "OPTIND" then
    let n := (Text.integer? false ((e.value? name).getD "").toList).getD 1
    { e with letter := none, nextOption := max 1 n.toNat }
  else if name = "PATH" then { e with found := [] }
  else e

/-- Gives a variable a value. -/
def assign (e : Env) (name value : String) (exported : Bool := false) : Env :=
  let old := e.binding name
  (e.setVariable name (some { old with
    value := some value
    exported := old.exported || exported || e.has 'a' })).noticing name

/-- Gives a variable a value, unless it must not be changed. -/
def assignOr (e : Env) (exits : Exits) (name value : String) (k : Rest) : Behaviour :=
  if e.mayAssign name then k (e.assign name value) else e.fault (name ++ ": is read only") exits

/-- The characters that divide fields. -/
def separators (e : Env) : List Char :=
  ((e.value? "IFS").getD " \t\n").toList

/-- Keeps a variable as it is for the end of the command that runs. -/
def remember (e : Env) (undo : Undo) : Env :=
  { e with undo := match e.undo with
      | first :: more => (undo :: first) :: more
      | [] => [] }

/-- Takes one change back. -/
def revert (e : Env) : Undo → Env
  | .binding name old => (e.setVariable name old).noticing name
  | .options old => { e with options := old }

/-- Takes the changes back that belong to the innermost commands, down to a number of commands. -/
def unwind (depth : Nat) (e : Env) : Env :=
  let inner := e.undo.take (e.undo.length - depth)
  { inner.flatten.foldl revert e with undo := e.undo.drop inner.length }

/-- The place of a variable among those that programs get: variables are kept in rows by the sum of
the bytes of their names. -/
def row (name : String) : Nat :=
  match name.toList with
  | [] => 0
  | first :: rest => ((first :: rest).map Char.toNat |>.foldl (· + ·) (first.toNat * 15)) % 39

/-- The variables that programs get. -/
def exports (e : Env) : List (String × String) :=
  let found := e.vars.filterMap fun (n, v) =>
    if v.exported then v.value.map (n, ·) else none
  (List.range 39).flatMap fun i => found.filter fun (n, _) => row n = i

/-! ## Subshells -/

/-- The scripts of a subshell: only the signals that do nothing stay so. -/
def withoutTraps (e : Env) : Env :=
  { e with traps := e.traps.filter (·.2.isEmpty) }

/-- Whether a script answers a signal or the end of the shell. -/
def hasTraps (e : Env) : Bool :=
  e.traps.any (!·.2.isEmpty)

/-- Whether a script answers a signal. -/
def answersSignals (e : Env) : Bool :=
  e.traps.any fun (n, script) => n != 0 && !script.isEmpty

/-- The shell as a process of its own. -/
def asProcess (e : Env) (process : Nat) : Env :=
  { e.withoutTraps with
    setting := { e.setting with process }
    jobs := []
    covered := []
    lastLine := e.scriptLine
    statusBefore := none }

/-- The setting of a program that the shell starts. -/
def programSetting (e : Env) : Setting :=
  { e.setting with environment := e.exports, kept := [] }

/-- The value of the search path. -/
def searchPath (e : Env) : String :=
  (e.value? "PATH").getD ""

end Env

/-- The result that a shell sees for a process that ended. -/
def codeOf : ExitStatus → Nat
  | .exited code => code
  | .signalled number => 128 + number

/-- The result of processes that worked together: that of the last one. -/
def Job.code (j : Job) : Nat :=
  match j.processes.getLast? with
  | some (_, some status) => codeOf status
  | _ => 0

/-- Whether somebody has waited for all processes of a job. -/
def Job.isDone (j : Job) : Bool :=
  j.processes.all (·.2.isSome)

/-- The number of a process within a text: decimal digits that are not too many. -/
def number? (text : String) : Option Nat :=
  match Text.integer? false text.toList with
  | some n => if 0 ≤ n && n ≤ 2147483647 then some n.toNat else none
  | none => none

end LangBundle.Shell
