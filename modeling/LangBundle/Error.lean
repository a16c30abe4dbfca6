import LangBundle.Role

/-!
# Why a build fails

The stages of a build, the ways in which a stage fails, and the errors of a build with their texts.
-/

namespace LangBundle

/-- The three stages of a build, each run by a tool of its own. -/
inductive Stage where
  /-- From the grammar to the parser's source. -/
  | grammar
  /-- From the scanner's rules to its source. -/
  | lexer
  /-- From all sources to the module. -/
  | link
  deriving Repr, DecidableEq

namespace Stage

/-- The stages in the order in which they run. -/
def all : List Stage :=
  [.grammar, .lexer, .link]

/-- The name of a stage. -/
def name : Stage → String
  | .grammar => "grammar"
  | .lexer => "lexer"
  | .link => "link"

/-- Why a stage counts as failed. -/
inductive Failure where
  /-- The tool ended with a code that is not zero, or was ended by a signal. -/
  | exitStatus (code : Option Int)
  /-- The tool ended well, but an output it declared is missing or empty. -/
  | missingOutput (path : String)
  | launch (detail : String)
  | timeout (milliseconds : Nat)
  deriving Repr, DecidableEq

namespace Failure

/-- A short word for the kind of failure. -/
def reason : Failure → String
  | .exitStatus _ => "exit-status"
  | .missingOutput _ => "missing-output"
  | .launch _ => "launch"
  | .timeout _ => "timeout"

/-- What is said about a failure.  A time limit is given in whole seconds. -/
def message : Failure → String
  | .exitStatus (some code) => "exit status " ++ toString code
  | .exitStatus none => "terminated by signal"
  | .missingOutput path => "missing output " ++ path
  | .launch detail => "could not launch tool: " ++ detail
  | .timeout ms => "timeout after " ++ toString (ms / 1000) ++ "s"

end Failure

end Stage

/-- Why a build fails. -/
inductive BuildError where
  | missingPart (part : String)
  | duplicatePart (part : String)
  | validation (detail : String)
  | io (path detail : String)
  /-- A tool rejected its input; `diagnostics` is what it wrote. -/
  | stage (stage : Stage) (failure : Stage.Failure) (diagnostics : String)
  deriving Repr, DecidableEq

namespace BuildError

/-- The text of an error. -/
def message : BuildError → String
  | .missingPart part => "missing required part '" ++ part ++ "'"
  | .duplicatePart part => "part '" ++ part ++ "' was supplied more than once"
  | .validation detail => "invalid request: " ++ detail
  | .io path detail => "IO error at " ++ path ++ ": " ++ detail
  | .stage s failure diagnostics =>
    s.name ++ " stage failed (" ++ failure.message ++ "):\n" ++ diagnostics

/-- Whether the caller has to mend the request. -/
def isRequestFault : BuildError → Bool
  | .missingPart _ | .duplicatePart _ | .validation _ => true
  | .io .. | .stage .. => false

/-- The stage that failed, if one did. -/
def stage? : BuildError → Option Stage
  | .stage s _ _ => some s
  | _ => none

end BuildError

end LangBundle
