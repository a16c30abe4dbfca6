/-!
# The outside tools

Where the three tools are and how the link tool is called.
-/

namespace LangBundle

/-- The three tools and their settings. -/
structure Toolchain where
  /-- Turns a grammar into a parser. -/
  bison : String := "bison"
  /-- Turns rules into a scanner. -/
  flex : String := "flex"
  /-- Compiles sources to a module. -/
  emcc : String := "emcc"
  /-- Libraries that are linked in. -/
  supportLibs : List String := []
  optimization : String := "-O3"
  /-- The name of the function that makes instances of the module. -/
  exportName : String := "createInterpreterModule"
  /-- The time limit of each stage, in milliseconds. -/
  stageTimeout : Nat := 120000
  deriving Repr, DecidableEq

namespace Toolchain

/-- The settings given to the link tool.  The module exports its main function and what is needed to
write files and to call functions inside it. -/
def settings (t : Toolchain) : List String :=
  ["WASM=1", "MODULARIZE=1", "EXPORT_NAME=" ++ t.exportName, "EXPORTED_FUNCTIONS=['_main']",
    "EXPORTED_RUNTIME_METHODS=['FS','ccall','cwrap']"]

end Toolchain

end LangBundle
