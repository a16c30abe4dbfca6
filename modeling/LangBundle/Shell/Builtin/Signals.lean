import LangBundle.Shell.Builtin.Call

/-!
# Signals and jobs

The commands that send signals, say what answers them, and wait for jobs.
-/

namespace LangBundle.Shell.Builtin

open Files (Fault)
open Process

/-- What is said of a word that names no job. -/
def noJob (word : String) : String :=
  if ["%", "%%", "%+"].contains word then "No current job"
  else if word = "%-" then "No previous job"
  else "No such job: " ++ word

/-- How `kill` is called. -/
def killUsage : String :=
  "Usage: kill [-s sigspec | -signum | -sigspec] [pid | job]... or\nkill -l [exitstatus]"

/-- The processes that a target of `kill` means; a group of processes is none. -/
def killTarget (c : Call) (e : Env) (word : String) (k : Option Nat → Behaviour) : Behaviour :=
  match word.toList with
  | '%' :: _ =>
    if (e.jobNamed? word).isSome then k none else c.fail e (noJob word)
  | '-' :: rest => c.withNumber e (String.ofList rest) fun _ => k none
  | _ => c.withNumber e word fun n => k (some n)

/-- Sends a signal to processes; the result is one if some of them are not there. -/
def sendAll (c : Call) (signal : Nat) : List String → (status : Nat) → Env → Rest → Behaviour
  | [], status, e, k => k (e.after status)
  | word :: rest, status, e, k => killTarget c e word fun target =>
    .act (fun w => match target with
        | some n => w.signal n signal
        | none => w) fun w =>
      let isThere : Bool := match target with
        | some n => (w.member? n).isSome || (w.ended? n).isSome
        | none => false
      if isThere then sendAll c signal rest status e k
      else e.complain (Fault.noSuchProcess.description ++ "\n") (sendAll c signal rest 1 e k)

/-- Prints the names of signals. -/
def listSignals (c : Call) (operands : List String) (e : Env) (k : Rest) : Behaviour :=
  match operands with
  | [] =>
    let names := (List.range Signal.last).map fun n => Signal.name (n + 1) ++ "\n"
    c.print (e.after 0) ("0\n" ++ String.join names) k
  | word :: _ => c.withNumber e word fun n =>
    let n := if 128 < n then n - 128 else n
    if 0 < n && n ≤ Signal.last then c.print (e.after 0) (Signal.name n ++ "\n") k
    else c.fail e ("invalid signal number or exit status: " ++ word)

/-- Sends a signal, or prints the names of signals. -/
def killing : Builtin := fun c e k =>
  let usage : Behaviour := c.fail e killUsage
  let send (signal : Nat) (operands : List String) : Behaviour :=
    if operands.isEmpty then usage else sendAll c signal operands 0 e k
  match c.args with
  | [] => usage
  | first :: rest =>
    match first.toList with
    | '-' :: name =>
      match (Signal.number? (String.ofList name)).filter (fun n => n != 0 || name = ['0']) with
      | some signal => send signal rest
      | none => c.withOptions e ['l'] ['s'] fun options operands =>
        let wanted := (options.filter (·.1 == 's')).getLast?.map (·.2)
        let isList := options.any (·.1 == 'l')
        match wanted with
        | some text =>
          match (Signal.number? text).filter (fun n => n != 0 || text = "0") with
          | some signal => if isList then usage else send signal operands
          | none => c.fail e ("invalid signal number or name: " ++ text)
        | none => if isList then listSignals c operands e k else send 15 operands
    | _ => send 15 (first :: rest)

/-- Sets the script that answers a signal. -/
def setTrap (n : Nat) (script : Option String) (e : Env) : Env :=
  { e with traps := (script.map (n, ·)).toList ++ e.traps.filter (·.1 != n) }

/-- Says which scripts answer signals, or sets them. -/
def trapping : Builtin := fun c e k => c.withOperands e fun operands =>
  let rec each (script : Option String) : List String → (done : List Nat) → Env → Behaviour
    | [], done, e => e.settleTraps done fun e => k (e.after 0)
    | word :: rest, done, e =>
      match Signal.number? word with
      | some n => each script rest (n :: done) (setTrap n script e)
      | none => e.setting.say ("trap: " ++ word ++ ": bad trap\n")
          (e.settleTraps done fun e => k (e.after 1))
  match operands with
  | [] =>
    let rows := e.traps.mergeSort fun a b => a.1 ≤ b.1
    c.print (e.after 0) (String.join (rows.map fun (n, script) =>
      "trap -- " ++ singleQuoted script ++ " " ++ Signal.name n ++ "\n")) k
  | [word] => each none [word] [] e
  | first :: rest =>
    if (Text.decimal? first.toList).any fun n => n ≤ Signal.last then each none operands [] e
    else each (if first = "-" then none else some first) rest [] e

/-- Waits for one job: goes on with its result, or with that of a signal that came before. -/
def waitForJob (e : Env) (j : Job) (interrupted : Rest) (k : Nat → Rest) : Behaviour :=
  if j.isDone then k j.code (e.waitedFor (·.number == j.number))
  else
    let missing := j.processes.filterMap fun (n, s) => if s.isNone then some n else none
    e.awaitAll true missing fun ended e =>
      match e.jobs.find? (·.number == j.number) with
      | some now =>
        if now.isDone then
          let words := missing.filterMap fun n => (ended.lookup n).map Env.lastWord
          words.foldr (fun word next => if word.isEmpty then next else e.setting.say word next)
            (k now.code (e.waitedFor (·.number == j.number)))
        else interrupted e
      | none => k 127 e

/-- Waits for all jobs, or for those that are named. -/
def waiting : Builtin := fun c e k => c.withOperands e fun operands =>
  let interrupted (e : Env) : Behaviour := .look fun w =>
    k (e.after (128 + (w.pending e.setting.process).headD 0))
  let rec each : List String → (status : Nat) → Env → Behaviour
    | [], status, e => k (e.after status)
    | word :: rest, _, e =>
      match e.jobNamed? word with
      | some j => waitForJob e j interrupted fun code e => each rest code e
      | none =>
        if word.toList.head? = some '%' then c.fail e (noJob word)
        else c.withNumber e word fun _ => each rest 127 e
  if operands.isEmpty then
    let processes := e.openProcesses
    e.awaitAll true processes fun _ e =>
      let e := e.waitedFor fun _ => true
      if e.openProcesses.isEmpty then k (e.after 0) else interrupted e
  else each operands 0 e

/-! ## Looking at jobs -/

/-- What is said of how a job is doing. -/
def jobState (j : Job) : String :=
  if !j.isDone then "Running"
  else match j.processes.getLast?.bind (·.2) with
    | some (.signalled n) => Signal.description n
    | some (.exited code) =>
      if code = 0 then "Done" else "Done(" ++ toString code ++ ")"
    | none => "Done"

/-- The line that shows a job; the newest job and the one before it have marks. -/
def jobLine (e : Env) (withNumbers : Bool) (j : Job) : String :=
  let has (i : Nat) : Bool := (e.jobs[i]?).any (·.number == j.number)
  let mark := if has 0 then "+" else if has 1 then "-" else " "
  let process := match j.processes.head? with
    | some (n, _) => if withNumbers then toString n ++ " " else ""
    | none => ""
  let text := "[" ++ toString j.number ++ "] " ++ mark ++ " " ++ process ++ jobState j
  text ++ String.ofList (List.replicate (max 1 (33 - text.length)) ' ') ++
    String.join (j.processes.tail.map fun _ => " | ") ++ "\n"

/-- Shows jobs; those that are over are forgotten then. -/
def listing : Builtin := fun c e k => c.withOptions e ['l', 'p'] [] fun options operands =>
  let letter := options.getLast?.map (·.1)
  let text (e : Env) (j : Job) : String :=
    if letter = some 'p' then
      String.join ((j.processes.head?).toList.map fun (n, _) => toString n ++ "\n")
    else jobLine e (letter = some 'l') j
  let rec each : List Job → Env → Behaviour
    | [], e => k (e.after 0)
    | j :: rest, e => c.print e (text e j) fun e =>
      each rest (if j.isDone then e.dropJob j.number else e)
  e.noteJobs fun e =>
    match operands.find? fun word => (e.jobNamed? word).isNone with
    | some word => c.fail e (noJob word)
    | none => each (if operands.isEmpty then e.jobs else operands.filterMap e.jobNamed?) e

/-- Brings a job to the foreground or lets it go on: no job can be moved so. -/
def resuming : Builtin := fun c e _ => c.withOperands e fun operands =>
  let word := operands.headD "%%"
  match e.jobNamed? word with
  | some _ => c.fail e ("job " ++ operands.headD "(null)" ++ " not created under job control")
  | none => c.fail e (noJob word)

end LangBundle.Shell.Builtin
