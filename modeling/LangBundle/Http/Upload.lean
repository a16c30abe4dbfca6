import LangBundle.Http.Multipart
import LangBundle.Intake

/-!
# Storing an upload

The parts of an upload are stored in their order, each under the role that its name says; parts of
other names are passed over.
-/

namespace LangBundle.Http.Upload

/-- The role of a part. -/
def roleOf? (head : PartHead) : Option Role :=
  head.name.bind Role.ofPartName?

/-- Stores one part. -/
def storePart (p : Part) : Intake.Step Unit := do
  match roleOf? p.head with
  | none => return
  | some role =>
    let u ← Intake.begin role p.head.fileName
    let u ← Intake.write u p.data
    Intake.commit u

/-- Stores parts in their order. -/
def storeParts : List Part → Intake.Step Unit
  | [] => return
  | p :: rest => do
    storePart p
    storeParts rest

/-- Begins the part whose data has no end, as far as it has a role. -/
def beginBroken (fault : Multipart.Fault) : Intake.Step Unit := do
  match fault with
  | .incompletePart head =>
    match roleOf? head with
    | none => return
    | some role => let _ ← Intake.begin role head.fileName
  | _ => return

/-- Stores the parts of a body in a workspace; gives the intake. -/
def store (boundary : String) (body : Bytes) (workspace : Workspace) (h : Host) :
    Except Error Intake × Host :=
  let (parts, fault) := Multipart.read boundary body
  let step : Intake.Step Unit := do
    storeParts parts
    fault.forM beginBroken
  match step ({ workspace := workspace.path }, h), fault with
  | .error e (_, h), _ => (.error (.build e), h)
  | .ok _ (_, h), some fault => (.error (.multipart 400 fault.message), h)
  | .ok _ (intake, h), none => (.ok intake, h)

end LangBundle.Http.Upload
