import LangBundle.Shell.Expansion

/-!
# Subshells and jobs

A subshell is a process with a copy of its shell.  The shell waits for the processes of a command
that it runs in the foreground, and says so if a signal ended one of them; those in the background
are its jobs.  Signals that a shell answers are answered between two commands.
-/

namespace LangBundle.Shell

open Process

namespace Env

/-- The subshell with a number, and what it sets right before it begins. -/
def beginSubshell (e : Env) (background : Bool) (work : Env → Behaviour) (process : Nat) :
    Behaviour :=
  let child := e.asProcess process
  let begin (m : Member) : Member :=
    { m with
      caught := []
      ignored := if background then 2 :: 3 :: m.ignored else m.ignored }
  if background || e.answersSignals then
    .act (·.onMember process begin) fun _ => work child
  else work child

/-- Starts a subshell. -/
def spawn (e : Env) (background : Bool) (work : Env → Behaviour) (k : Nat → Behaviour) :
    Behaviour :=
  .fork (e.beginSubshell background work) k

/-- What is said about a process that a signal ended, unless its end goes without saying. -/
def lastWord : ExitStatus → String
  | .signalled n => if n = 2 || n = 13 then "" else Signal.description n ++ "\n"
  | .exited _ => ""

/-- The shell that knows how the processes of its jobs ended. -/
def noteEnds (e : Env) (ended : List (Nat × ExitStatus)) : Env :=
  { e with jobs := e.jobs.map fun j =>
      { j with processes := j.processes.map fun (n, s) => (n, s <|> ended.lookup n) } }

/-- The processes of jobs that nobody has waited for. -/
def openProcesses (e : Env) : List Nat :=
  e.jobs.flatMap fun j => j.processes.filterMap fun (n, s) => if s.isNone then some n else none

/-- Forgets the processes among those given that have ended. -/
def collect (processes : List Nat) (w : World) : List (Nat × ExitStatus) × World :=
  let ended := processes.filterMap fun n => (w.ended? n).map (n, ·)
  (ended, ended.foldl (fun w (n, _) => w.forget n) w)

/-- Notes which jobs have ended by now. -/
def noteJobs (e : Env) (k : Rest) : Behaviour :=
  match e.openProcesses with
  | [] => k e
  | processes => .change (collect processes) fun ended => k (e.noteEnds ended)

/-- How long it takes until a shell that a signal woke goes on, in microseconds. -/
def wakingTime : Nat := 100

/-- Waits until processes have ended, or a caught signal comes if that matters.  A process that ends
right behind a signal has ended in time. -/
def awaitAll (e : Env) (interruptible : Bool) (processes : List Nat)
    (k : List (Nat × ExitStatus) → Rest) : Behaviour :=
  let own := e.setting.process
  let haveEnded (w : World) : Bool := processes.all fun n => (w.ended? n).isSome
  let finish : Behaviour :=
    .change (collect (processes ++ e.openProcesses)) fun ended => k ended (e.noteEnds ended)
  .await (fun w => haveEnded w || (interruptible && !(w.pending own).isEmpty))
    (.look fun w => if haveEnded w then finish else .sleep wakingTime finish)

/-- Waits for processes that were started together; the result is that of the last one. -/
def waitFor (e : Env) (processes : List Nat) (k : Rest) : Behaviour :=
  e.awaitAll false processes fun ended e =>
    let statuses := processes.map fun n => (ended.lookup n).getD (.exited 127)
    let code := (statuses.getLast?.map codeOf).getD 0
    statuses.foldr (fun status next =>
      match lastWord status with
      | "" => next
      | text => e.setting.say text next) (k (e.after code))

/-- The number that the next job gets: the least one that no job has, or a job that is over and was
waited for. -/
def nextJob (e : Env) : Nat :=
  ((List.range (e.jobs.length + 1)).find? fun i =>
    e.jobs.all fun j => j.number != i + 1 || (j.waited && j.isDone)).getD 0 + 1

/-- Without a job. -/
def dropJob (e : Env) (number : Nat) : Env :=
  { e with jobs := e.jobs.filter (·.number != number) }

/-- The shell as it starts processes: each command that runs in processes takes a number, also in
the foreground. -/
def makingRoom (e : Env) : Env :=
  e.dropJob e.nextJob

/-- Runs a subshell and waits for its end. -/
def call (e : Env) (work : Env → Behaviour) (k : Rest) : Behaviour :=
  let e := e.makingRoom
  e.spawn false work fun n => e.waitFor [n] k

/-- The shell with a new job. -/
def withJob (e : Env) (processes : List Nat) : Env :=
  let e := e.makingRoom
  { e with
    jobs := { number := e.nextJob, processes := processes.map (·, none) } :: e.jobs
    background := processes.getLast? <|> e.background }

/-- The job that a word names: a process of its own, or one behind a percent sign. -/
def jobNamed? (e : Env) (word : String) : Option Job :=
  match word.toList with
  | '%' :: rest =>
    match rest with
    | [] | ['%'] | ['+'] => e.jobs.head?
    | ['-'] => e.jobs[1]?
    | _ => (Text.decimal? rest).bind fun n => e.jobs.find? (·.number == n)
  | _ => (number? word).bind fun n =>
    e.jobs.find? fun j => (j.processes.getLast?.map (·.1)) == some n

/-- Somebody has waited for the jobs that are over. -/
def waitedFor (e : Env) (which : Job → Bool) : Env :=
  { e with jobs := e.jobs.map fun j => if which j && j.isDone then { j with waited := true } else j }

/-! ## Descriptors of subshells -/

/-- The subshell with other streams in place of some. -/
def withStreams (e : Env) (streams : List (Nat × Stream)) (next : Env → Behaviour) : Behaviour :=
  let setting := streams.foldl (fun s (d, stream) => s.set d (some stream)) e.setting
  setting.settle (next { e with setting })

/-- The shell holds one more stream while it goes on. -/
def keeping (e : Env) (streams : List Stream) : Env :=
  { e with setting := { e.setting with kept := streams ++ e.setting.kept } }

/-- The output of a subshell, without the line ends behind it. -/
def outputOf (e : Env) (work : Env → Behaviour) (k : String → Rest) : Behaviour :=
  let e := e.makingRoom
  .act (·.addPipe) fun w =>
    let pipe := PipeId.made w.nextNumber
    (e.keeping [.reader pipe, .writer pipe]).setting.settle
      (e.spawn false (fun child => child.withStreams [(1, .writer pipe)] work) fun n =>
        (e.keeping [.reader pipe]).setting.settle (readAll (some (.reader pipe)) fun result =>
          e.setting.settle (e.waitFor [n] fun after =>
            let data := result.toOption.getD []
            let cs := (Octets.ofBytes (data.filter (· != 0))).toList
            let text := String.ofList (cs.reverse.dropWhile (· == '\n')).reverse
            k text { after with status := e.status, outputStatus := after.status })))

/-! ## Signals -/

/-- Notes which signals a shell answers and which do nothing to it. -/
def settleTraps (e : Env) (signals : List Nat) (k : Rest) : Behaviour :=
  let change (m : Member) : Member :=
    signals.foldl (fun m n =>
      let m := { m with caught := m.caught.filter (· != n), ignored := m.ignored.filter (· != n) }
      match e.traps.lookup n with
      | none => m
      | some "" => { m with ignored := n :: m.ignored }
      | some _ => { m with caught := n :: m.caught }) m
  match signals.filter (· != 0) with
  | [] => k e
  | _ => .act (·.onMember e.setting.process change) fun _ => k e

end Env

end LangBundle.Shell
