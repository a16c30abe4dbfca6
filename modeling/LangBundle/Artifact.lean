import LangBundle.Intake

/-!
# What a build leaves for the bundle

The files of a finished build that go into the bundle, in the order in which they go there.
-/

namespace LangBundle

/-- A file that goes into a bundle. -/
structure Artifact where
  /-- What is put in front of the entry name if that name is taken. -/
  label : String
  path : String
  entryName : String
  deriving Repr, DecidableEq

/-- The artifact of a stored input. -/
def Artifact.ofInput (label : String) (input : StoredInput) : Artifact :=
  ⟨label, input.path, input.entryName⟩

/-- The seven artifacts of a build. -/
structure ArtifactSet where
  parserSource : Artifact
  lexerSource : Artifact
  interpreterSource : Artifact
  moduleGlue : Artifact
  moduleBinary : Artifact
  documentation : Artifact
  sample : Artifact
  deriving Repr, DecidableEq

namespace ArtifactSet

/-- The entries of the archive of sources. -/
def sources (s : ArtifactSet) : List Artifact :=
  [s.lexerSource, s.parserSource, s.interpreterSource]

/-- The entries of the bundle behind the archive of sources. -/
def deliverables (s : ArtifactSet) : List Artifact :=
  [s.moduleGlue, s.moduleBinary, s.documentation, s.sample]

end ArtifactSet

end LangBundle
