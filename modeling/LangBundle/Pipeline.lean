import LangBundle.Bundle
import LangBundle.Stage.Run

/-!
# The build pipeline

A build goes from a fresh workspace with five inputs through the stages to the bundle.  The pipeline
itself holds only its configuration.
-/

namespace LangBundle

/-- Where workspaces are made, and the tools. -/
structure Pipeline where
  root : String
  tools : Toolchain
  deriving Repr, DecidableEq

namespace Pipeline

/-- Makes a workspace with a fresh identifier. -/
def acquireWorkspace (p : Pipeline) : Service Workspace := do
  let id ← Service.drawId
  Workspace.acquire p.root id

/-- Runs the stages over the inputs in a workspace and assembles the bundle; gives its path. -/
def build (p : Pipeline) (workspace : String) (inputs : Inputs) : Service String := do
  let artifacts ← Stage.runAll p.tools workspace inputs
  Bundle.assemble artifacts workspace

end Pipeline

end LangBundle
