import LangBundle.CommandLine.Run
import LangBundle.Shell.Launch

/-!
# The program

The outermost layer: it brings the files that the arguments name into a file tree, runs the program
over it, and writes what came out.
-/

namespace LangBundle

open CommandLine (Invocation ToolOptions)

/-- The files that an invocation reads, its tools first. -/
def filesOf : Invocation → List String × List String
  | .build source _ tools => (toolFiles tools, Role.all.map source)
  | .doctor tools | .serve _ _ _ tools => (toolFiles tools, [])
where
  /-- The tools that the options name. -/
  toolFiles (o : ToolOptions) : List String :=
    [o.bison, o.flex, o.emcc].filterMap id

/-- Puts a file of the real file system into a tree, if it can be read. -/
def load (cwd : Files.Place) (mode : Nat) (t : Files.Tree) (path : String) : IO Files.Tree := do
  try
    let data := (← IO.FS.readBinFile path).toList
    let names := if Path.isAbsolute path then Path.names path else cwd ++ Path.names path
    let above := "/" ++ "/".intercalate names.dropLast
    let (_, t) := t.makeDirectories [] above
    return { t.put names (.file t.nextSerial mode data) with nextSerial := t.nextSerial + 1 }
  catch _ => return t

/-- The host on which an invocation runs. -/
def hostOf (i : Invocation) : IO Host := do
  let cwd := Path.names (← IO.currentDir).toString
  let searchPath := Text.split ':' ((← IO.getEnv "PATH").getD "/usr/local/bin:/usr/bin:/bin")
  let temporary := (← IO.getEnv "TMPDIR").getD "/tmp"
  let seed ← IO.rand 0 0x4000000000000000
  let found := searchPath.flatMap fun dir => ["bison", "flex", "emcc"].map (Path.join dir)
  let (tools, sources) := filesOf i
  let system := Shell.install ["bin"] (Shell.install ["usr", "bin"] {})
  let t := ["/bin", "/usr/bin", "/" ++ "/".intercalate cwd, temporary].foldl
    (fun t d => (t.makeDirectories [] d).2) system
  let t ← (found ++ tools).foldlM (load cwd 0o755) t
  let t ← sources.foldlM (load cwd Files.Tree.fileMode) t
  return {
    files := t, cwd, searchPath, temporary, launch := Shell.launch searchPath
    ids := fun n => Uuid.ofBits (seed + n) }

end LangBundle

open LangBundle CommandLine in
/-- Runs the program; a build that ended well leaves its bundle in the real file system. -/
def main (args : List String) : IO UInt32 := do
  let (outcome, bundle) ← match Invocation.ofArgs args with
    | .error stop => pure (Outcome.ofStop stop, none)
    | .ok i => do
      let (outcome, h) := i.run (← hostOf i)
      let bundle := match i, outcome.code? with
        | .build _ output _, some 0 => ((h.files.read h.cwd output).toOption).map (output, ·)
        | _, _ => none
      pure (outcome, bundle)
  if let some (output, data) := bundle then
    IO.FS.writeBinFile output (ByteArray.mk data.toArray)
  IO.print outcome.stdout
  IO.eprint outcome.stderr
  return (outcome.code?.getD 0).toUInt32
