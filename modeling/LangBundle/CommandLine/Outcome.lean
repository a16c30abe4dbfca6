import LangBundle.CommandLine.Usage
import LangBundle.Http.ListenAddress
import LangBundle.Http.Server

/-!
# How the program ends

What the program writes, and whether it ends with a code or goes on to serve.
-/

namespace LangBundle.CommandLine

/-- Why a command fails, and what is behind that if more is known. -/
structure Failure where
  message : String
  cause : Option String := none
  deriving Repr, DecidableEq

namespace Failure

/-- The failure that an error of the build is. -/
def ofBuild (e : BuildError) : Failure :=
  { message := e.message }

/-- The failure of an attempt, with an error of the build behind it. -/
def behind (attempt : String) (e : BuildError) : Failure :=
  { message := attempt, cause := some e.message }

/-- A text whose lines are set off by four blanks. -/
def indented (s : String) : String :=
  String.join (s.toList.map fun c => if c = '\n' then "\n    " else c.toString)

/-- What is written about a failure. -/
def text (f : Failure) : String :=
  "Error: " ++ f.message ++ "\n" ++ match f.cause with
    | none => ""
    | some cause => "\nCaused by:\n    " ++ indented cause ++ "\n"

end Failure

/-- How the program ends. -/
inductive Ending where
  | exit (code : Nat)
  /-- It serves at an address. -/
  | listen (server : Http.Server) (address : Http.ListenAddress)

/-- What the program writes, and how it ends. -/
structure Outcome where
  ending : Ending
  stdout : String := ""
  stderr : String := ""

namespace Outcome

/-- The outcome of a command that wrote something and then ended well or failed. -/
def ofResult (stdout : String) : Except Failure Unit → Outcome
  | .ok () => { ending := .exit 0, stdout }
  | .error f => { ending := .exit 1, stdout, stderr := f.text }

/-- The outcome of arguments that are not read to their end. -/
def ofStop : Stop → Outcome
  | .version => { ending := .exit 0, stdout := "idiogen " ++ Http.Server.version ++ "\n" }
  | .help => { ending := .exit 0, stdout := purpose ++ "\n" }
  | .misuse m => { ending := .exit 2, stderr := m.message ++ "\n" }

/-- The code with which the program ends, if it does. -/
def code? (o : Outcome) : Option Nat :=
  match o.ending with
  | .exit code => some code
  | .listen .. => none

end Outcome

end LangBundle.CommandLine
