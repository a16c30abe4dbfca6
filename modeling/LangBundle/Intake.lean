import LangBundle.EntryName
import LangBundle.Workspace

/-!
# Taking inputs in

Uploads are written to files in the workspace whose names come from their roles, so no declared name
reaches the file system and no tool's output can have an input's path.  A role can be begun once,
even if that upload fails later.
-/

namespace LangBundle

open Files (Sink Source)

/-- The directory of the stored inputs in a workspace. -/
def inputsDirectory : String := "inputs"

/-- An input that is kept in the workspace. -/
structure StoredInput where
  role : Role
  path : String
  /-- The name of its entry in the bundle. -/
  entryName : String
  size : Nat
  deriving Repr, DecidableEq

/-- The five inputs of a build. -/
structure Inputs where
  grammar : StoredInput
  lexer : StoredInput
  interpreter : StoredInput
  documentation : StoredInput
  sample : StoredInput
  deriving Repr, DecidableEq

/-- The inputs in intake order. -/
def Inputs.toList (i : Inputs) : List StoredInput :=
  [i.grammar, i.lexer, i.interpreter, i.documentation, i.sample]

/-- An input that is being written. -/
structure Upload where
  role : Role
  path : String
  entryName : String
  sink : Sink
  written : Nat := 0
  deriving Repr, DecidableEq

/-- The inputs taken in so far. -/
structure Intake where
  /-- The path of the workspace. -/
  workspace : String
  claimed : List Role := []
  /-- The inputs that are complete, at most one for each role. -/
  stored : List StoredInput := []
  deriving Repr, DecidableEq

namespace Intake

/-- A step of the intake: it changes the intake and the host, also when it fails. -/
abbrev Step (α : Type) := EStateM BuildError (Intake × Host) α

/-- The stored input of a role. -/
def stored? (i : Intake) (role : Role) : Option StoredInput :=
  i.stored.find? (·.role = role)

/-- The name of the entry of an input. -/
def entryName (role : Role) (declared : Option String) : String :=
  (declared.bind EntryName.ofDeclared?).getD role.defaultFileName

/-- The name of the file in which an input is kept. -/
def fileName (role : Role) (entryName : String) : String :=
  role.partName ++ "." ++ (EntryName.safeExtension? entryName).getD role.defaultExtension

/-- Begins an upload: claims its role, makes the directory of the inputs and the file. -/
def begin (role : Role) (declared : Option String) : Step Upload := fun (i, h) =>
  if i.claimed.contains role then .error (.duplicatePart role.partName) (i, h)
  else
    let i := { i with claimed := role :: i.claimed }
    let entry := entryName role declared
    let directory := Path.join i.workspace inputsDirectory
    let path := Path.join directory (fileName role entry)
    let h := h.note (.storing path)
    match h.files.makeDirectories h.cwd directory with
    | (.error fault, t) => .error (.io directory fault.message) (i, { h with files := t })
    | (.ok (), t) =>
      match t.openWrite h.cwd path with
      | .error fault => .error (.io path fault.message) (i, { h with files := t })
      | .ok (sink, t) =>
        .ok { role, path, entryName := entry, sink } (i, { h with files := t })

/-- Writes the next piece of an upload. -/
def write (u : Upload) (data : Bytes) : Step Upload := fun (i, h) =>
  let h := h.note (.storing u.path)
  match h.files.writeAt u.sink u.written data with
  | .error fault => .error (.io u.path fault.message) (i, h)
  | .ok t => .ok { u with written := u.written + data.length } (i, { h with files := t })

/-- Records an upload that is complete. -/
def commit (u : Upload) : Step Unit := fun (i, h) =>
  let input : StoredInput := ⟨u.role, u.path, u.entryName, u.written⟩
  .ok () ({ i with stored := input :: i.stored.filter (·.role ≠ u.role) }, h)

/-- Stores what a reader yields; `failure` is what the reader says if it fails after that. -/
def store (role : Role) (declared : Option String) (data : Bytes) (failure : Option String) :
    Step Nat := do
  let u ← begin role declared
  let u ← write u data
  match failure with
  | some detail => throw (.io u.path detail)
  | none =>
    commit u
    return data.length

/-- Stores a file.  The file is opened before its role is claimed. -/
def storeFile (role : Role) (source : String) : Step Nat := fun (i, h) =>
  match h.files.openRead h.cwd source with
  | .error fault => .error (.io source fault.message) (i, h)
  | .ok opened =>
    let (data, failure) := match h.files.readAll opened with
      | .ok data => (data, none)
      | .error fault => ([], some fault.message)
    store role (Path.fileName? source) data failure (i, h)

/-- The five inputs, if none is missing. -/
def finish (i : Intake) : Except BuildError Inputs := do
  let require (role : Role) : Except BuildError StoredInput :=
    match i.stored? role with
    | some input => .ok input
    | none => .error (.missingPart role.partName)
  return {
    grammar := ← require .grammar
    lexer := ← require .lexer
    interpreter := ← require .interpreter
    documentation := ← require .documentation
    sample := ← require .example }

end Intake

end LangBundle
