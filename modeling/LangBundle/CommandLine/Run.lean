import LangBundle.CommandLine.Build
import LangBundle.CommandLine.Doctor
import LangBundle.CommandLine.Invocation

/-!
# Running the program

From the arguments to the outcome.
-/

namespace LangBundle.CommandLine

/-- What the server says before it listens. -/
def greeting (host : String) (port : Nat) (root : String) : String :=
  let rule := String.ofList (List.replicate 50 '─') ++ "\n"
  let address := host ++ ":" ++ toString port
  "\nIdiogen Server - Language Bundle Compiler\n" ++ rule ++
    "  ◆ Compile:   POST http://" ++ address ++ "/compile\n" ++
    "  ◆ Health:    GET  http://" ++ address ++ "/health\n" ++
    "  ◆ Workspace: " ++ root ++ "\n" ++ rule ++ "Press Ctrl+C to stop\n\n"

/-- Begins to serve builds.  The limit on a body has to be a number of 64 bits; the address is
looked at after the greeting. -/
def serve (p : Pipeline) (host : String) (port maxBody : Nat) : Outcome :=
  let limit := maxBody * Invocation.bodyUnit
  if Text.maxUnsigned < limit then
    .ofResult "" (.error { message := "--max-body-mb " ++ toString maxBody ++ " is too large" })
  else match Http.ListenAddress.resolve host port with
    | .error e => .ofResult (greeting host port p.root) (.error { message := e.message })
    | .ok address => { ending := .listen ⟨p, limit⟩ address, stdout := greeting host port p.root }

/-- Does what the program is called to do. -/
def Invocation.run (i : Invocation) (h : Host) : Outcome × Host :=
  match i with
  | .build source output tools => buildOutcome (tools.pipeline h) source output h
  | .doctor tools => CommandLine.doctor (tools.pipeline h) h
  | .serve host port maxBody tools => (CommandLine.serve (tools.pipeline h) host port maxBody, h)

/-- Runs the program with its arguments. -/
def run (args : List String) (h : Host) : Outcome × Host :=
  match Invocation.ofArgs args with
  | .error stop => (.ofStop stop, h)
  | .ok i => i.run h

end LangBundle.CommandLine
