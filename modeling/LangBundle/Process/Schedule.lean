import LangBundle.Process.Capture

/-!
# Running processes side by side

Time goes in rounds of a microsecond.  In each round every process that is ready takes steps until it
waits, sleeps, ends or has used its share; if none is ready, the clock goes to the next moment at
which one wakes.  A process that has taken very many steps is taken to be slow, so that one that
never ends does not hold up the time of the others.

A captured stream ends when nobody holds it any more.  Writing to one that has lost its reader ends
the writer.
-/

namespace LangBundle.Process

/-- What a process waits for. -/
inductive Wait where
  | nothing
  | time (moment : Nat)
  | world (isReady : World → Bool)

/-- A process with what it does next. -/
structure Thread where
  process : Nat
  code : Behaviour
  ports : List Port
  wait : Wait := .nothing
  /-- Whether the captured streams have lost their reader for it. -/
  unheard : Bool := false
  /-- How many steps it has taken. -/
  spent : Nat := 0

/-- What there is while processes run. -/
structure Run where
  world : World
  capture : Capture := {}
  threads : List Thread := []
  /-- The process that was launched. -/
  launched : Nat := 0
  /-- How the launched process ended, once it has. -/
  status : Option ExitStatus := none

/-- How many steps a process takes in a round at most. -/
def share : Nat := 10

/-- How long it takes until a process that was started takes its first step, in microseconds. -/
def birthTime : Nat := 100

/-- How long it takes until a process that is done has gone, in microseconds. -/
def farewellTime : Nat := 60

/-- How many steps a process takes before it counts as slow. -/
def patience : Nat := 300000

/-- How long one step of a slow process takes, in microseconds. -/
def slowStep : Nat := 1000

/-- The signal that ends a process that writes to a stream without a reader. -/
def brokenStream : ExitStatus := .signalled 13

/-- The ports of a process, without the captured streams if nobody reads them. -/
def audible (unheard : Bool) (ports : List Port) : List Port :=
  if unheard then ports.filter fun
    | .captured _ => false
    | _ => true
  else ports

namespace Run

/-- Whether nobody holds a captured stream. -/
def isFree (r : Run) (channel : Channel) : Bool :=
  !r.world.held.contains (.captured channel)

/-- A process holds the ports `new` in place of `old`; a captured stream that nobody holds any more
ends. -/
def exchange (r : Run) (old new : List Port) : Run :=
  let held := new ++ old.foldl List.erase r.world.held
  let r := { r with world := { r.world with held } }
  let flush (r : Run) (channel : Channel) : Run :=
    if old.contains (.captured channel) && r.isFree channel then
      { r with capture := r.capture.flush channel }
    else r
  flush (flush r .out) .err

/-- Adds a process that another one started. -/
def spawn (r : Run) (parent : Nat) (child : Nat → Behaviour) (ports : List Port) (unheard : Bool) :
    Run :=
  let process := r.world.system.nextProcess
  let code := (child process).andThen fun status => .sleep farewellTime (.done status)
  let thread : Thread := { process, code := .sleep birthTime code, ports, unheard }
  { r with
    world := { r.world.addMember parent with held := ports ++ r.world.held }
    threads := r.threads ++ [thread] }

/-- Takes a process away that has ended. -/
def bury (r : Run) (thread : Thread) (status : ExitStatus) : Run :=
  let r := r.exchange thread.ports []
  { r with
    world := r.world.removeMember thread.process status
    threads := r.threads.filter (·.process != thread.process)
    status := if thread.process = r.launched then some status else r.status }

/-- Lets the processes go that a signal has ended, except those that are about to go anyway. -/
def dismissDoomed (r : Run) : Run :=
  { r with
    threads := r.threads.map fun thread =>
      match thread.code, r.world.doomOf? thread.process with
      | .done _, _ | _, none => thread
      | _, some number =>
        { thread with
          code := .done (.signalled number)
          wait := .time (r.world.clock + farewellTime) } }

/-- Whether the launched process has ended and nobody holds the captured streams. -/
def isOver (r : Run) : Bool :=
  r.status.isSome && r.isFree .out && r.isFree .err

end Run

/-- Where a process stands after it has run for a while. -/
inductive Pause where
  | ended (status : ExitStatus)
  | waiting (wait : Wait) (code : Behaviour)

/-- What a process leaves after it has run for a while. -/
structure Slice where
  pause : Pause
  ports : List Port
  /-- How many of its steps it has not used. -/
  left : Nat
  run : Run

/-- Runs a process until it waits, ends or has taken `left` steps. -/
def Behaviour.advance (process : Nat) (unheard : Bool) :
    Behaviour → (left : Nat) → List Port → Run → Slice
  | .done status, left, ports, r => ⟨.ended status, ports, left, r⟩
  | .emit channel data next, left, ports, r =>
    if unheard then ⟨.ended brokenStream, ports, left, r⟩
    else next.advance process unheard left ports { r with capture := r.capture.feed channel data }
  | .hold new next, left, ports, r =>
    let new := audible unheard new
    next.advance process unheard left new (r.exchange ports new)
  | .act change next, 0, ports, r => ⟨.waiting .nothing (.act change next), ports, 0, r⟩
  | .act change next, left + 1, ports, r =>
    let seen := r.world
    let r := { r with world := change seen }
    match r.world.doomOf? process with
    | some number => ⟨.ended (.signalled number), ports, left, r⟩
    | none =>
      if r.world.isStopped process then ⟨.waiting .nothing (next seen), ports, left, r⟩
      else (next seen).advance process unheard left ports r
  | .await isReady next, left, ports, r =>
    if isReady r.world then next.advance process unheard left ports r
    else ⟨.waiting (.world isReady) next, ports, left, r⟩
  | .sleep time next, left, ports, r => ⟨.waiting (.time (r.world.clock + time)) next, ports, left, r⟩
  | .fork child next, left, ports, r =>
    let number := r.world.system.nextProcess
    (next number).advance process unheard left ports (r.spawn process child ports unheard)

namespace Run

/-- Whether a process can take a step. -/
def isReady (r : Run) (thread : Thread) : Bool :=
  !r.world.isStopped thread.process &&
    match thread.wait with
    | .nothing => true
    | .time moment => moment ≤ r.world.clock
    | .world isReady => isReady r.world

/-- Replaces a thread by what it has become. -/
def update (r : Run) (thread : Thread) : Run :=
  { r with threads := r.threads.map fun t => if t.process = thread.process then thread else t }

/-- Lets a process have its turn. -/
def turn (r : Run) (process : Nat) : Run :=
  match r.threads.find? (·.process = process) with
  | none => r
  | some thread =>
    if !r.isReady thread then r
    else
      let isSlow := patience ≤ thread.spent
      let steps := if isSlow then 1 else share
      let slice := thread.code.advance process thread.unheard steps thread.ports r
      let r := match slice.pause with
        | .ended status => slice.run.bury { thread with ports := slice.ports } status
        | .waiting wait code =>
          let wait : Wait := match wait with
            | .nothing => if isSlow then .time (r.world.clock + slowStep) else .nothing
            | wait => wait
          slice.run.update { thread with
            code, wait
            ports := slice.ports
            spent := thread.spent + (steps - slice.left) }
      r.dismissDoomed

/-- One round: every process has its turn. -/
def round (r : Run) : Run :=
  (r.threads.map (·.process)).foldl turn r

/-- The next moment at which a process can take a step, `now` being the present one. -/
def nextTime? (now : Nat) (r : Run) : Option Nat :=
  if r.threads.any r.isReady then some (now + 1)
  else (r.threads.filterMap fun thread => match thread.wait with
    | .time moment => if r.world.isStopped thread.process then none else some (max moment (now + 1))
    | _ => none).min?

/-- Lets time pass until the launched process is over or the deadline is reached; gives the time
at which it stopped and whether the process was over before the deadline. -/
def runUntil (deadline : Nat) (now : Nat) (r : Run) : Run × Nat × Bool :=
  if r.isOver then (r, now, true)
  else match r.nextTime? now with
    | none => (r, deadline, false)
    | some next =>
      let next := max next (now + 1)
      if next < deadline then
        runUntil deadline next { r with world := { r.world with clock := next } }.round
      else (r, deadline, false)
termination_by deadline - now

/-- Begins the launched process beside those that are there. -/
def start (now : Nat) (program : Nat → Behaviour) (r : Run) : Run :=
  let launched := r.world.system.nextProcess
  let r := { r with world := { r.world with clock := now }, capture := {}, launched, status := none }
  r.spawn 0 program [.captured .out, .captured .err] false

/-- Ends the launched process, if it has not ended, and nothing else. -/
def killLaunched (r : Run) : Run :=
  match r.threads.find? (·.process = r.launched) with
  | some thread => r.bury thread (.signalled 9)
  | none => r

/-- Takes the readers of the captured streams away. -/
def abandonStreams (r : Run) : Run :=
  { r with
    world := { r.world with held := audible true r.world.held }
    threads := r.threads.map fun thread =>
      { thread with ports := audible true thread.ports, unheard := true } }

end Run

end LangBundle.Process
