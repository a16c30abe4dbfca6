import LangBundle.Host

/-!
# Workspaces

Every build works in a directory of its own, named after a fresh identifier and made exclusively.
Whoever holds the `Workspace` owns the directory: `release` removes it, and `drop`, which ends every
use of a workspace, releases it if that has not been done.
-/

namespace LangBundle

open Files (Fault)

/-- A directory that one build owns. -/
structure Workspace where
  id : Uuid
  path : String
  released : Bool := false

namespace Workspace

/-- What every workspace's name begins with. -/
def namePrefix : String := "idiogen-"

/-- The mode of a workspace: nobody else may look inside. -/
def mode : Nat := 0o700

/-- The path of the workspace with an identifier. -/
def pathOf (root : String) (id : Uuid) : String :=
  Path.join root (namePrefix ++ id.text)

/-- Makes the workspace with an identifier; fails if anything has its path. -/
def acquire (root : String) (id : Uuid) : Service Workspace := do
  let path := pathOf root id
  Service.onFiles path fun t cwd => return ((), ← t.makeDirectory cwd path mode)
  Service.note (.acquired path)
  return { id, path }

/-- The path of a file in the workspace. -/
def join (w : Workspace) (name : String) : String :=
  Path.join w.path name

/-- Removes the directory, unless that has been tried before.  A directory that is gone is fine. -/
def release (w : Workspace) (h : Host) : Except BuildError Unit × Workspace × Host :=
  if w.released then (.ok (), w, h)
  else
    let w := { w with released := true }
    match h.files.removeDirectoryTree h.cwd w.path with
    | (.ok (), t) | (.error .notFound, t) =>
      (.ok (), w, { h with files := t }.note (.released w.path))
    | (.error fault, t) => (.error (.io w.path fault.message), w, { h with files := t })

/-- Ends the use of a workspace. -/
def drop (w : Workspace) (h : Host) : Host :=
  (w.release h).2.2

/-- The number of workspaces in a directory. -/
def count (root : String) : Service Nat := do
  let names ← Service.look root fun t cwd => t.list cwd root
  return names.countP (·.startsWith namePrefix)

end Workspace

end LangBundle
