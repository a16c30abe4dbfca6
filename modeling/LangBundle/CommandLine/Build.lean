import LangBundle.CommandLine.Outcome
import LangBundle.Pipeline

/-!
# Building from files

The build of the command line takes the five inputs from files and copies the bundle to a file.
Nothing outside the workspace is touched before the bundle is complete.
-/

namespace LangBundle.CommandLine

/-- What is said if the file of a role cannot be taken in. -/
def unreadable (role : Role) : String :=
  "Failed to read " ++ role.partName ++ " input"

/-- What is said if the bundle cannot be copied. -/
def unwritable (output : String) : String :=
  "Failed to write " ++ output

/-- Takes in the files of roles in their order. -/
def storeFiles (source : Role → String) : List Role → EStateM Failure (Intake × Host) Unit
  | [] => return
  | role :: rest => do
    let _ ← (Intake.storeFile role (source role)).adaptExcept (Failure.behind (unreadable role))
    storeFiles source rest

/-- Takes in the five files and builds them in a workspace; gives the path of the bundle. -/
def buildFiles (p : Pipeline) (source : Role → String) (w : Workspace) (h : Host) :
    Except Failure String × Host :=
  match storeFiles source Role.all ({ workspace := w.path }, h) with
  | .error f (_, h) => (.error f, h)
  | .ok () (intake, h) =>
    match intake.finish with
    | .error e => (.error (.ofBuild e), h)
    | .ok inputs =>
      match p.build w.path inputs h with
      | .error e h => (.error (.ofBuild e), h)
      | .ok bundle h => (.ok bundle, h)

/-- Copies a file; the copy is opened after the file. -/
def copyFile (source target : String) (h : Host) : Except Files.Fault Host := do
  let data ← h.files.read h.cwd source
  return { h with files := ← h.files.write h.cwd target data }

/-- Builds from five files and copies the bundle to `output`.  The workspace is removed however this
ends. -/
def build (p : Pipeline) (source : Role → String) (output : String) (h : Host) :
    Except Failure Unit × Host :=
  match p.acquireWorkspace h with
  | .error e h => (.error (.ofBuild e), h)
  | .ok w h =>
    match buildFiles p source w h with
    | (.error f, h) => (.error f, w.drop h)
    | (.ok bundle, h) =>
      match copyFile bundle output h with
      | .error fault => (.error ⟨unwritable output, fault.message⟩, w.drop h)
      | .ok h => (.ok (), w.drop h)

/-- The outcome of a build. -/
def buildOutcome (p : Pipeline) (source : Role → String) (output : String) (h : Host) :
    Outcome × Host :=
  match build p source output h with
  | (.ok (), h) => (.ofResult ("Wrote " ++ output ++ "\n") (.ok ()), h)
  | (.error f, h) => (.ofResult "" (.error f), h)

end LangBundle.CommandLine
