import LangBundle.CommandLine.Parameter

/-!
# Misuse of the command line

The ways in which a row of arguments makes no sense, and what is said about them.
-/

namespace LangBundle.CommandLine

/-- What the program is for. -/
def purpose : String :=
  "Compile bison/flex language implementations to WebAssembly bundles"

/-- Why a row of arguments makes no sense. -/
inductive Misuse where
  | nothingGiven
  | noCommand
  | unknownCommand (word : String)
  | unexpected (argument : String)
  | missingValue (p : Parameter)
  | repeated (p : Parameter)
  | invalidValue (p : Parameter) (value reason : String)
  /-- A value for a parameter that takes none. -/
  | unwantedValue (p : Parameter) (value : String)
  | missingParameter
  deriving Repr, DecidableEq

/-- What is said about misuse.  Where nothing is given, that is what the program is for. -/
def Misuse.message : Misuse → String
  | .nothingGiven => purpose
  | .noCommand => "error: 'idiogen' requires a subcommand but one was not provided"
  | .unknownCommand word => "error: unrecognized subcommand '" ++ word ++ "'"
  | .unexpected argument => "error: unexpected argument '" ++ argument ++ "' found"
  | .missingValue p => "error: a value is required for '" ++ p.usage ++ "' but none was supplied"
  | .repeated p => "error: the argument '" ++ p.usage ++ "' cannot be used multiple times"
  | .invalidValue p value reason =>
    "error: invalid value '" ++ value ++ "' for '" ++ p.usage ++ "': " ++ reason
  | .unwantedValue p value => "error: unexpected value '" ++ value ++ "' for '" ++ p.usage ++
      "' found; no more were expected"
  | .missingParameter => "error: the following required arguments were not provided:"

/-- Why reading the arguments ends early. -/
inductive Stop where
  | misuse (m : Misuse)
  /-- The version is asked for. -/
  | version
  | help
  deriving Repr, DecidableEq

end LangBundle.CommandLine
