/-!
# The five inputs of a build

Every build takes five files, one for each role.  `Role.all` lists the roles in the order in which
they are taken in and in which a missing one is reported.
-/

namespace LangBundle

/-- What an input is for. -/
inductive Role where
  | grammar
  | lexer
  | interpreter
  | documentation
  | example
  deriving Repr, DecidableEq

namespace Role

/-- The roles in intake order. -/
def all : List Role :=
  [.grammar, .lexer, .interpreter, .documentation, .example]

theorem mem_all (role : Role) : role ∈ all := by
  cases role <;> simp [all]

theorem nodup_all : all.Nodup := by
  simp [all]

/-- The name of the upload part that carries the role. -/
def partName : Role → String
  | .grammar => "grammar"
  | .lexer => "lexer"
  | .interpreter => "interpreter"
  | .documentation => "documentation"
  | .example => "example"

/-- The role of an upload part.  `parser`, `README` and `readme` are older names of two roles. -/
def ofPartName? : String → Option Role
  | "grammar" | "parser" => some .grammar
  | "lexer" => some .lexer
  | "interpreter" => some .interpreter
  | "documentation" | "README" | "readme" => some .documentation
  | "example" => some .example
  | _ => none

theorem ofPartName?_partName (role : Role) : ofPartName? role.partName = some role := by
  cases role <;> rfl

/-- The extension of a stored input whose own name has none that is safe. -/
def defaultExtension : Role → String
  | .grammar => "y"
  | .lexer => "l"
  | .interpreter => "c"
  | .documentation => "md"
  | .example => "txt"

/-- The entry name of an input that came without a usable name. -/
def defaultFileName : Role → String
  | .grammar => "grammar.y"
  | .lexer => "lexer.l"
  | .interpreter => "interpreter.c"
  | .documentation => "README.md"
  | .example => "example.txt"

end Role

end LangBundle
