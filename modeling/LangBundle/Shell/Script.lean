import LangBundle.Shell.Job
import LangBundle.Shell.Redirection

/-!
# Running a text

A text is run line by line, and a line is read only after the one before it has run.  Scripts that
answer signals run between two commands, and the one for the end of the shell runs at its end.
-/

namespace LangBundle.Shell

open Process

/-- More lines than any text has. -/
def endlessLines : Nat := 0x1000000000000

/-- Runs what is left of a text; the result is that of the last command, or `status` if there is
none. -/
def runLines (run : Runner) (mode : Mode) (exits : Exits) : (lines : Nat) → Reading →
    (status : Nat) → Env → Rest → Behaviour
  | 0, _, _, e, k => k e
  | lines + 1, reading, status, e, k =>
    match { reading with aliases := e.aliases }.nextLine with
    | .error (fault, reading) =>
      { e with line := reading.line, lastLine := reading.line }.fault fault.message exits
    | .ok (none, _) => k (e.after status)
    | .ok (some command, reading) =>
      let e := { e with
        documents := reading.documents
        nextDocument := reading.nextDocument
        lastLine := reading.line
        scriptLine := if e.inScript then reading.line else e.scriptLine }
      let mode := { mode with last := mode.last && reading.isAtEnd }
      run command mode exits e fun e =>
        let status := if command.isNothing then status else e.status
        if e.skip ≠ .nothing then k (e.after status)
        else runLines run mode exits lines reading status e k

/-- Runs a text from its first line on. -/
def runAll (run : Runner) (mode : Mode) (exits : Exits) (text : String) (e : Env) (k : Rest) :
    Behaviour :=
  let reading := Reading.ofText text.toList e.aliases e.nextDocument
  runLines run mode exits endlessLines { reading with documents := e.documents } 0 e k

/-- Runs a text and goes on with the one in which it stands. -/
def runText (run : Runner) (mode : Mode) (exits : Exits) (text : String) (e : Env) (k : Rest) :
    Behaviour :=
  runAll run mode exits text { e with inScript := false } fun left =>
    k { left with inScript := e.inScript, lastLine := e.lastLine }

/-- Runs the scripts that answer signals, one after the other. -/
def answerAll (run : Runner) (exits : Exits) : (signals : List Nat) → Env → Rest → Behaviour
  | [], e, k => k e
  | n :: rest, e, k =>
    match e.traps.lookup n with
    | none | some "" => answerAll run exits rest e k
    | some script =>
      let status := (e.statusBefore).getD e.status
      runText run {} exits script { e with statusBefore := some status } fun left =>
        let left := { left with statusBefore := e.statusBefore }
        let left := if left.skip = .function true then left else left.after status
        answerAll run exits rest left k

/-- Answers the signals that have come. -/
def answer (run : Runner) (exits : Exits) (e : Env) (k : Rest) : Behaviour :=
  if !e.answersSignals || e.skip ≠ .nothing then k e
  else
    let own := e.setting.process
    .act (·.onMember own fun m => { m with pending := [] }) fun w =>
      answerAll run exits ((w.pending own).mergeSort fun a b => a ≤ b) e k

/-- The end of a shell after its last command. -/
def finish (e : Env) : Behaviour :=
  exit (e.status % 256)

/-- The end of a shell that may have a script for its end: with the result that it has now, unless
the script ends it with another one. -/
def ending (run : Runner) : Rest := fun e =>
  Redirection.uncover 0 { e.unwind 0 with skip := .nothing, loops := 0, command := none } fun e =>
    match e.traps.lookup 0 with
    | none | some "" => finish e
    | some script =>
      let e := { e with
        traps := e.traps.filter (·.1 != 0)
        statusBefore := some e.status }
      let back : Rest := fun left => finish (left.after e.status)
      .look fun _ => runText run {} { quit := finish, fail := finish } script e back

/-- The ends of a shell. -/
def Exits.ofShell (run : Runner) : Exits :=
  { quit := ending run, fail := ending run }

end LangBundle.Shell
