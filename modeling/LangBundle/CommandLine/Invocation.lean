import LangBundle.CommandLine.Reading
import LangBundle.Http.ListenAddress
import LangBundle.Http.Server

/-!
# What the program is called to do

`Invocation.ofArgs` turns the arguments into one of the three commands with all it needs to know,
the parameters that were not given filled in.
-/

namespace LangBundle.CommandLine

/-- Where the tools and the workspaces are, as far as the caller says. -/
structure ToolOptions where
  bison : Option String
  flex : Option String
  emcc : Option String
  supportLibs : List String
  /-- The time limit of each stage, in seconds. -/
  stageTimeout : Nat
  workspaceRoot : Option String
  deriving Repr, DecidableEq

/-- The pipeline that the options ask for: what they leave open is looked for on the host. -/
def ToolOptions.pipeline (o : ToolOptions) (h : Host) : Pipeline :=
  let found := Toolchain.detect h
  { root := o.workspaceRoot.getD h.temporary
    tools := {
      bison := o.bison.getD found.bison
      flex := o.flex.getD found.flex
      emcc := o.emcc.getD found.emcc
      supportLibs := if o.supportLibs.isEmpty then found.supportLibs else o.supportLibs
      stageTimeout := o.stageTimeout * 1000 } }

/-- What the program is called to do. -/
inductive Invocation where
  /-- Build from files. -/
  | build (source : Role → String) (output : String) (tools : ToolOptions)
  /-- Look for the tools and try one of them. -/
  | doctor (tools : ToolOptions)
  /-- Serve builds; the limit on a body is a number of `bodyUnit`s. -/
  | serve (host : String) (port maxBody : Nat) (tools : ToolOptions)

namespace Invocation

/-- Where the bundle goes if the caller does not say. -/
def defaultOutput : String := Bundle.downloadName

/-- The unit of the limit on a body. -/
def bodyUnit : Nat := 1024 * 1024

/-- The limit on a body if the caller does not say, in units. -/
def defaultMaxBody : Nat := 32

theorem defaultMaxBody_mul_bodyUnit :
    defaultMaxBody * bodyUnit = Http.Server.defaultMaxBody := by
  decide

/-- The time limit of a stage if the caller does not say, in seconds. -/
def defaultStageTimeout : Nat := 120

/-- The options on tools that were read. -/
def toolOptions (r : Reading) : ToolOptions where
  bison := r.text? .bison
  flex := r.text? .flex
  emcc := r.text? .emcc
  supportLibs := r.texts .supportLib
  stageTimeout := (r.number? .stageTimeout).getD defaultStageTimeout
  workspaceRoot := r.text? .workspaceRoot

/-- What a command with the parameters that were read asks for.  A build needs a file for each role.
-/
def ofReading (c : Command) (r : Reading) : Except Stop Invocation :=
  match c with
  | .build =>
    if Role.all.all fun role => r.has (.input role) then
      .ok (.build (fun role => (r.text? (.input role)).getD "")
        ((r.text? .output).getD defaultOutput) (toolOptions r))
    else .error (.misuse .missingParameter)
  | .doctor => .ok (.doctor (toolOptions r))
  | .serve => .ok (.serve ((r.text? .host).getD Http.ListenAddress.defaultHost)
      ((r.number? .port).getD Http.ListenAddress.defaultPort)
      ((r.number? .maxBody).getD defaultMaxBody) (toolOptions r))

/-- What the arguments ask for. -/
def ofArgs (args : List String) : Except Stop Invocation := do
  let (c, rest) ← readProgram {} args
  ofReading c (← Reading.readCommand {} c.parameters rest)

end Invocation

end LangBundle.CommandLine
