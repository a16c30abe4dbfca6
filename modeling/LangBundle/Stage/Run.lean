import LangBundle.Artifact
import LangBundle.Stage.Command

/-!
# Running a stage

A stage starts its tool in the workspace, captures both output streams, and ends when the tool has
ended and nobody holds the streams, or when the time limit is reached.  Of several reasons to fail
the first one counts: the tool cannot be started, runs too long, ends badly, leaves an output out.
-/

namespace LangBundle.Stage

open Process (ExitStatus Run)

/-- What a stage that succeeded gives. -/
structure Output where
  stage : Stage
  outputs : List String
  diagnostics : String
  /-- How long the stage took, in milliseconds. -/
  elapsed : Nat
  deriving Repr, DecidableEq

/-- Whether a path names a regular file that is not empty. -/
def isPresent (h : Host) (path : String) : Bool :=
  match h.files.stat h.cwd path with
  | .ok (.file _ _ data) => !data.isEmpty
  | .ok (.program _) => true
  | _ => false

/-- Runs a started program beside what runs already, up to a time limit in milliseconds.  If it is
still there then, its streams lose their readers, so an unfinished line is lost, and it is ended. -/
def runProgram (h : Host) (program : Nat → Process.Behaviour) (limit : Nat) : Run × Nat × Bool :=
  let world : Process.World :=
    { tree := h.files, system := h.system, held := h.leftovers.flatMap (·.ports), clock := h.clock }
  let begun : Run := { world, threads := h.leftovers }
  let deadline := h.clock + limit * 1000
  let (r, now, ended) :=
    if limit = 0 then (begun, deadline, false)
    else (begun.start h.clock program).runUntil deadline h.clock
  if ended then (r, now, true) else (r.abandonStreams.killLaunched, now, false)

/-- The status with which the launched process ended, as a failure if it is one. -/
def failureOf? (status : Option ExitStatus) : Option Failure :=
  match status with
  | some status =>
    if status.isSuccess then none else some (.exitStatus (status.code?.map Int.ofNat))
  | none => none

namespace Command

/-- What a command gives whose tool has ended in time with a status, in milliseconds. -/
def conclude (c : Command) (status : Option ExitStatus) (diagnostics : String) (elapsed : Nat) :
    Service Output := fun h =>
  match failureOf? status with
  | some failure => .error (c.fail failure diagnostics) h
  | none =>
    match c.outputs.find? (!isPresent h ·) with
    | some path => .error (c.fail (.missingOutput path) diagnostics) h
    | none => .ok ⟨c.stage, c.outputs, diagnostics, elapsed⟩ h

/-- Runs a command in a working directory with a time limit in milliseconds. -/
def run (c : Command) (workdir : String) (limit : Nat) : Service Output := fun h =>
  let h := h.note (.called c)
  match h.launch h.files h.cwd workdir c.program c.args with
  | .error fault => .error (c.fail (.launch fault.message) "") h
  | .ok program =>
    let (r, now, ended) := runProgram h program limit
    let after := { h with
      files := r.world.tree, system := r.world.system, clock := now, leftovers := r.threads }
    let diagnostics := Utf8.decodeLossy r.capture.merged
    if !ended then .error (c.fail (.timeout limit) diagnostics) after
    else c.conclude r.status diagnostics ((now - h.clock) / 1000) after

end Command

/-- The artifacts of a build whose stages have run. -/
def artifacts (workspace : String) (inputs : Inputs) : ArtifactSet :=
  let stem := moduleStem inputs.interpreter.entryName
  let made (label name : String) : Artifact := ⟨label, Path.join workspace name, name⟩
  { parserSource := made "parser" parserSource
    lexerSource := made "lexer" lexerSource
    interpreterSource := .ofInput "interpreter" inputs.interpreter
    moduleGlue := made "module" (stem ++ ".js")
    moduleBinary := made "module" (stem ++ ".wasm")
    documentation := .ofInput "documentation" inputs.documentation
    sample := .ofInput "example" inputs.sample }

/-- The command of a stage for the stored inputs. -/
def commandFor (tools : Toolchain) (workspace : String) (inputs : Inputs) : Stage → Command
  | .grammar => .grammar tools workspace inputs.grammar.path
  | .lexer => .lexer tools workspace inputs.lexer.path
  | .link => .link tools workspace inputs.interpreter.path (moduleStem inputs.interpreter.entryName)

/-- Runs the three stages over the stored inputs; the first that fails ends the build. -/
def runAll (tools : Toolchain) (workspace : String) (inputs : Inputs) : Service ArtifactSet := do
  let run (stage : Stage) :=
    (commandFor tools workspace inputs stage).run workspace tools.stageTimeout
  let _ ← run .grammar
  let _ ← run .lexer
  let _ ← run .link
  return artifacts workspace inputs

end LangBundle.Stage
