import LangBundle.Shell.Builtin.Directory
import LangBundle.Shell.Builtin.Input
import LangBundle.Shell.Builtin.Lookup
import LangBundle.Shell.Builtin.Signals
import LangBundle.Shell.Condition
import LangBundle.Shell.Printing
import LangBundle.Shell.Script

/-!
# The commands of the shell

All commands that the shell runs itself, by name, and among them those that decide what runs next.
`exec` and `command` are no more than forms of other commands and have no place here.
-/

namespace LangBundle.Shell.Builtin

open Files (Fault)
open Process

/-- Goes on with a result. -/
def constant (status : Nat) : Builtin := fun _ e k =>
  k (e.after status)

/-- Leaves loops, or goes on with their next round. -/
def leavingLoops (skip : Nat → Skip) : Builtin := fun c e k =>
  let word := c.args.headD "1"
  c.withNumber e word fun n =>
    if n = 0 then c.fail e ("Illegal number: " ++ word)
    else
      let n := min n e.loops
      k ({ e with skip := if n = 0 then .nothing else skip n }.after 0)

/-- Leaves a function or a file of commands. -/
def returning : Builtin := fun c e k =>
  match c.args with
  | [] => k { e with skip := .function false }
  | word :: _ => c.withNumber e word fun n => k { e.after n with skip := .function true }

/-- Ends the shell. -/
def exiting : Builtin := fun c e _ =>
  let quit (status : Nat) : Behaviour := c.exits.quit { e.after status with statusBefore := none }
  match c.args with
  | [] => quit (e.statusBefore.getD e.status)
  | word :: _ => c.withNumber e word quit

/-- Runs arguments as a text. -/
def evaluating : Builtin := fun c e k =>
  let outer := e.command
  match c.args with
  | [] => k (e.after 0)
  | args =>
    let mode := { c.mode with last := false }
    runText c.run mode c.exits (" ".intercalate args) e fun e => k { e with command := outer }

/-- Runs a file of commands. -/
def sourcing : Builtin := fun c e k => c.withOperands e fun operands =>
  match operands with
  | [] => k (e.after 0)
  | name :: _ => .look fun w =>
    let path : Option String :=
      if name.toList.contains '/' then some name
      else (candidates e.searchPath name).find? fun path =>
        match w.tree.stat e.setting.cwd (Octets.toText path) with
        | .ok n => n.isFile
        | .error _ => false
    match path with
    | none => c.fail e (name ++ ": not found")
    | some path => e.setting.openFile .read path 0 fun
      | .error fault => c.fail e (Redirection.openFault false path fault)
      | .ok stream => readAll (some stream) fun result =>
        let text := Octets.ofBytes (result.toOption.getD [])
        runText c.run {} c.exits text { e with command := some path } fun e =>
          let skip := match e.skip with
            | .function _ => .nothing
            | skip => skip
          k { e with command := some c.name, skip }

/-- Prints texts. -/
def echoing : Builtin := fun c e k =>
  c.print (e.after 0) (Printing.echo c.args) k

/-- Prints arguments by a format. -/
def formatting : Builtin := fun c e k => c.withOperands e fun operands =>
  match operands with
  | [] => c.fail e "usage: printf format [arg ...]"
  | format :: args =>
    let printed := Printing.printf format args
    let text := String.ofList printed.text
    let print : Behaviour :=
      if printed.code = 2 then c.print e text fun e => c.exits.fail (e.after 2)
      else c.print (e.after printed.code) text k
    printed.faults.foldr (fun fault next => e.complain fault.message next) print

/-- Looks at a condition. -/
def testing : Builtin := fun c e k =>
  let decide (args : List String) : Behaviour := .look fun w =>
    match Condition.value w.tree e.setting.cwd args with
    | .ok b => k (e.after (if b then 0 else 1))
    | .error flaw => c.fail e flaw.message
  if c.name = "[" then
    if (c.args.getLast?.getD "").startsWith "]" then decide c.args.dropLast
    else c.fail e "missing ]"
  else decide c.args

/-- Shows limits: there are none. -/
def limiting : Builtin := fun c e k =>
  let letters := ['H', 'S', 'a', 'c', 'd', 'f', 'l', 'm', 'n', 'p', 'r', 's', 't', 'v', 'w']
  c.withOptions e letters [] fun _ operands =>
    match operands with
    | [] => c.print (e.after 0) "unlimited\n" k
    | [word] =>
      if word = "unlimited" || (Text.decimal? word.toList).isSome then k (e.after 0)
      else c.fail e "bad number"
    | _ => c.fail e "too many arguments"

/-- Shows the processor time that was used. -/
def timing : Builtin := fun c e k =>
  c.print (e.after 0) "0m0.000000s 0m0.000000s\n0m0.000000s 0m0.000000s\n" k

/-- A command that the shell runs itself, by its name. -/
def named? (name : String) : Option Builtin :=
  match name with
  | ":" | "true" => some (constant 0)
  | "false" => some (constant 1)
  | "." => some sourcing
  | "[" | "test" => some testing
  | "alias" => some aliasing
  | "break" => some (leavingLoops .loops)
  | "cd" | "chdir" => some moving
  | "command" => some finding
  | "continue" => some (leavingLoops .round)
  | "echo" => some echoing
  | "eval" => some evaluating
  | "exit" => some exiting
  | "export" => some exporting
  | "getopts" => some lettering
  | "hash" => some hashing
  | "bg" | "fg" => some resuming
  | "jobs" => some listing
  | "kill" => some killing
  | "local" => some localize
  | "printf" => some formatting
  | "pwd" => some showing
  | "read" => some reading
  | "readonly" => some fixing
  | "return" => some returning
  | "set" => some setting
  | "shift" => some shifting
  | "times" => some timing
  | "trap" => some trapping
  | "type" => some telling
  | "ulimit" => some limiting
  | "umask" => some masking
  | "unalias" => some unaliasing
  | "unset" => some unsetting
  | "wait" => some waiting
  | _ => none

end LangBundle.Shell.Builtin
