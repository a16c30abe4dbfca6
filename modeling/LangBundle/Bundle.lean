import LangBundle.Archive.Zip
import LangBundle.Artifact

/-!
# Assembling the bundle

The bundle is an archive whose first entry is itself an archive, that of the sources; behind it
stand the module, the documentation and the example.
-/

namespace LangBundle.Bundle

open Files (Sink)

/-- The archive of the sources. -/
def sourcesArchive : String := "combined.zip"

/-- The archive that the caller gets. -/
def resultArchive : String := "output.zip"

/-- The name under which the caller is told to save the archive. -/
def downloadName : String := "build-output.zip"

/-- The names that an entry may take, in the order in which they are tried. -/
def candidate (label entryName : String) : Nat → String
  | 0 => entryName
  | 1 => label ++ "-" ++ entryName
  | n + 2 => label ++ "-" ++ toString (n + 2) ++ "-" ++ entryName

/-- The first candidate that is not taken.  One of the first `taken.length + 1` is free, for no two
candidates are equal. -/
def freeName (taken : List String) (label entryName : String) : String :=
  (((List.range (taken.length + 1)).map (candidate label entryName)).find?
    (!taken.contains ·)).getD entryName

/-- The entry names of artifacts behind the names that are taken, the newest first. -/
def entryNamesAfter (taken : List String) : List Artifact → List String
  | [] => taken.reverse
  | a :: rest => entryNamesAfter (freeName taken a.label a.entryName :: taken) rest

/-- The entry names of artifacts: their own, or one with the label in front if that is taken. -/
def entryNames (artifacts : List Artifact) : List String :=
  entryNamesAfter [] artifacts

/-- The entry of an artifact, if it fits into the format. -/
def fitting (a : Artifact) (entry : Archive.Entry) : Service Archive.Entry :=
  match entry.fault? with
  | some fault => throw (.io a.path fault.message)
  | none => return entry

/-- The entry of an artifact under a name. -/
def entryOf (a : Artifact) (name : String) : Service Archive.Entry := do
  let source ← Service.look a.path fun t cwd => t.openRead cwd a.path
  if 65535 < (Utf8.ofString name).length then
    throw (.io a.path Archive.EntryFault.nameTooLong.message)
  let data ← Service.look a.path fun t _ => t.readAll source
  fitting a ⟨name, data⟩

/-- The entries of artifacts, the first one that cannot be had ending the row. -/
def entriesOf : List (Artifact × String) → Service (List Archive.Entry)
  | [] => return []
  | (a, name) :: rest => do
    let entry ← entryOf a name
    let more ← entriesOf rest
    return entry :: more

/-- Writes artifacts to a new archive.  The archive's file is made first, and is left as it is then
if an artifact cannot be had. -/
def writeArchive (path : String) (artifacts : List Artifact) : Service Unit := do
  let sink ← Service.onFiles path fun t cwd => t.openWrite cwd path
  let entries ← entriesOf (artifacts.zip (entryNames artifacts))
  Service.onFiles path fun t _ => return ((), ← t.writeAt sink 0 (Archive.write entries))

/-- The entries of the result: the archive of the sources, then the deliverables. -/
def resultArtifacts (artifacts : ArtifactSet) (directory : String) : List Artifact :=
  ⟨"sources", Path.join directory sourcesArchive, sourcesArchive⟩ :: artifacts.deliverables

/-- Assembles both archives in a directory; gives the path of the result. -/
def assemble (artifacts : ArtifactSet) (directory : String) : Service String := do
  let result := Path.join directory resultArchive
  writeArchive (Path.join directory sourcesArchive) artifacts.sources
  writeArchive result (resultArtifacts artifacts directory)
  return result

end LangBundle.Bundle
