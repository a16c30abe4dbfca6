import LangBundle.EntryName
import LangBundle.Error
import LangBundle.Toolchain

/-!
# The commands of the stages

What each tool is called with, and the files it has to leave behind.  All paths are built from the
workspace's own path, so nothing that a request says reaches a command line but the extension of a
stored input and the module's stem.
-/

namespace LangBundle.Stage

/-- The source of the parser. -/
def parserSource : String := "y.tab.c"

/-- The header of the parser, which the scanner includes. -/
def parserHeader : String := "y.tab.h"

/-- The source of the scanner. -/
def lexerSource : String := "lex.yy.c"

/-- The stem of the module that the probe makes. -/
def probeStem : String := "probe"

/-- A call of a tool. -/
structure Command where
  stage : Stage
  program : String
  args : List String
  /-- What has to be there, and not be empty, once the tool has ended well. -/
  outputs : List String
  deriving Repr, DecidableEq

namespace Command

/-- The error of a command that failed. -/
def fail (c : Command) (failure : Failure) (diagnostics : String) : BuildError :=
  .stage c.stage failure diagnostics

/-- Makes the parser from the grammar. -/
def grammar (tools : Toolchain) (workspace input : String) : Command :=
  let source := Path.join workspace parserSource
  { stage := .grammar
    program := tools.bison
    args := ["-d", "-o", source, input]
    outputs := [source, Path.join workspace parserHeader] }

/-- Makes the scanner from its rules. -/
def lexer (tools : Toolchain) (workspace input : String) : Command :=
  let source := Path.join workspace lexerSource
  { stage := .lexer
    program := tools.flex
    args := ["-o", source, input]
    outputs := [source] }

/-- Compiles sources to a module with the given stem. -/
def compile (tools : Toolchain) (workspace : String) (sources : List String) (stem : String) :
    Command :=
  let glue := Path.join workspace (stem ++ ".js")
  { stage := .link
    program := tools.emcc
    args := sources ++ tools.optimization :: tools.settings.flatMap (["-s", ·]) ++ ["-o", glue]
    outputs := [glue, Path.join workspace (stem ++ ".wasm")] }

/-- Links the generated sources, the interpreter and the support libraries. -/
def link (tools : Toolchain) (workspace interpreter stem : String) : Command :=
  compile tools workspace
    ([Path.join workspace lexerSource, Path.join workspace parserSource, interpreter] ++
      tools.supportLibs) stem

/-- Compiles a single source, to see whether the tool works. -/
def probe (tools : Toolchain) (workspace source : String) : Command :=
  compile tools workspace [source] probeStem

end Command

end LangBundle.Stage
