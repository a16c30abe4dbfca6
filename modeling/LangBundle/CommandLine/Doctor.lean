import LangBundle.CommandLine.Outcome
import LangBundle.Pipeline

/-!
# Examining the tools

The examination says which tools are found and has the compiler compile a small program in a
workspace.
-/

namespace LangBundle.CommandLine

/-- The name of the small program's source in the workspace. -/
def probeSource : String := "main.c"

/-- The small program. -/
def probeProgram : String :=
  "#include <stdio.h>\nint main(int argc, char **argv) \x7b\n    printf(\"Hello world!\\n\");\n" ++
    "    return 0;\n\x7d\n"

/-- A text filled up with blanks to a width. -/
def padded (width : Nat) (s : String) : String :=
  s ++ String.ofList (List.replicate (width - s.length) ' ')

/-- The line about one tool or library. -/
def statusLine (name mark path : String) : String :=
  "  " ++ padded 6 name ++ " " ++ padded 8 mark ++ " " ++ path ++ "\n"

/-- The lines about the tools and the support libraries. -/
def statusLines (tools : Toolchain) (r : ToolchainReport) : String :=
  let tool (name : String) (s : ToolStatus) : String :=
    statusLine name (if s.available then "ok" else "missing") s.path
  tool "bison" r.bison ++ tool "flex" r.flex ++ tool "emcc" r.emcc ++
    String.join (tools.supportLibs.map (statusLine "lib" "ok"))

/-- A span of time with one decimal in the largest unit that fits. -/
def elapsedText (milliseconds : Nat) : String :=
  if milliseconds = 0 then "0.0ns"
  else if milliseconds < 1000 then toString milliseconds ++ ".0ms"
  else
    let tenths := (milliseconds + 50) / 100
    toString (tenths / 10) ++ "." ++ toString (tenths % 10) ++ "s"

/-- Compiles the small program in a workspace. -/
def probe (p : Pipeline) (w : Workspace) (h : Host) : Except Failure Stage.Output × Host :=
  let source := w.join probeSource
  let h := h.note (.storing source)
  match h.files.write h.cwd source (Utf8.ofString probeProgram) with
  | .error fault => (.error { message := fault.message }, h)
  | .ok files =>
    let command := Stage.Command.probe p.tools w.path source
    match command.run w.path p.tools.stageTimeout { h with files } with
    | .error e h => (.error (.ofBuild e), h)
    | .ok o h => (.ok o, h)

/-- Says which tools are found and tries the compiler. -/
def doctor (p : Pipeline) (h : Host) : Outcome × Host :=
  let report := p.tools.report h
  let found := statusLines p.tools report
  if !report.emcc.available then
    (.ofResult found
      (.error { message := "emcc not found; install emscripten or pass --emcc" }), h)
  else match p.acquireWorkspace h with
    | .error e h => (.ofResult found (.error (.ofBuild e)), h)
    | .ok w h =>
      match probe p w h with
      | (.error f, h) => (.ofResult found (.error f), w.drop h)
      | (.ok o, h) =>
        (.ofResult (found ++ "emcc compiled hello world in " ++ elapsedText o.elapsed ++ "\n" ++
          o.diagnostics) (.ok ()), w.drop h)

end LangBundle.CommandLine
