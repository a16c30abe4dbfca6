import LangBundle.Role
import LangBundle.Text.MachineNumber

/-!
# The parameters of the command line

Everything that is given on the command line by a name with dashes is a `Parameter`.  Each of the
three commands takes some of them, and the program itself takes a few before the command.
-/

namespace LangBundle.CommandLine

open Text

/-- What the value of a parameter has to be. -/
inductive ValueKind where
  /-- A text that is not empty. -/
  | path
  | text
  /-- A number of 64 bits that is not zero. -/
  | positive
  | port
  deriving Repr, DecidableEq

/-- A value that was accepted. -/
inductive Value where
  | nothing
  | text (s : String)
  | number (n : Nat)
  deriving Repr, DecidableEq

/-- Why a value is not accepted. -/
inductive ValueFault where
  /-- An empty path counts as no value. -/
  | missing
  | invalid (reason : String)
  deriving Repr, DecidableEq

/-- Reads a value. -/
def ValueKind.read (kind : ValueKind) (s : String) : Except ValueFault Value :=
  match kind with
  | .path => if s.isEmpty then .error .missing else .ok (.text s)
  | .text => .ok (.text s)
  | .positive => match unsigned s with
    | .error fault => .error (.invalid fault.message)
    | .ok 0 => .error (.invalid ("0 is not in 1.." ++ toString maxUnsigned))
    | .ok n => .ok (.number n)
  | .port => match signed s with
    | .error fault => .error (.invalid fault.message)
    | .ok (.ofNat n) =>
      if n ≤ 65535 then .ok (.number n)
      else .error (.invalid (toString n ++ " is not in 0..=65535"))
    | .ok n => .error (.invalid (toString n ++ " is not in 0..=65535"))

/-- A parameter. -/
inductive Parameter where
  /-- The file of an input. -/
  | input (role : Role)
  | output
  | bison
  | flex
  | emcc
  | supportLib
  | stageTimeout
  | workspaceRoot
  | host
  | port
  | maxBody
  | verbose
  | version
  | help
  deriving Repr, DecidableEq

namespace Parameter

/-- The name of a parameter, without its dashes. -/
def name : Parameter → String
  | .input role => role.partName
  | .output => "output"
  | .bison => "bison"
  | .flex => "flex"
  | .emcc => "emcc"
  | .supportLib => "support-lib"
  | .stageTimeout => "stage-timeout"
  | .workspaceRoot => "workspace-root"
  | .host => "host"
  | .port => "port"
  | .maxBody => "max-body-mb"
  | .verbose => "verbose"
  | .version => "version"
  | .help => "help"

/-- The letter that stands for a parameter after a single dash. -/
def letter? : Parameter → Option Char
  | .output => some 'o'
  | .port => some 'p'
  | .verbose => some 'v'
  | .version => some 'V'
  | .help => some 'h'
  | _ => none

/-- What the value of a parameter has to be; a parameter without a kind takes no value. -/
def kind? : Parameter → Option ValueKind
  | .input _ | .output | .bison | .flex | .emcc | .supportLib | .workspaceRoot => some .path
  | .host => some .text
  | .stageTimeout | .maxBody => some .positive
  | .port => some .port
  | .verbose | .version | .help => none

/-- Whether a parameter may be given more than once. -/
def isRepeatable : Parameter → Bool
  | .supportLib => true
  | _ => false

/-- The name of a parameter's value. -/
def valueName (p : Parameter) : String :=
  match p with
  | .supportLib => "SUPPORT_LIBS"
  | _ => p.name.map fun c => if c = '-' then '_' else c.toUpper

/-- How messages name a parameter. -/
def usage (p : Parameter) : String :=
  match p.kind? with
  | some _ => "--" ++ p.name ++ " <" ++ p.valueName ++ ">"
  | none => "--" ++ p.name

end Parameter

/-- A command. -/
inductive Command where
  | build
  | doctor
  | serve
  deriving Repr, DecidableEq

namespace Command

/-- The command with a name. -/
def ofName? : String → Option Command
  | "build" => some .build
  | "doctor" => some .doctor
  | "serve" => some .serve
  | _ => none

/-- The parameters of every command. -/
def sharedParameters : List Parameter :=
  [.bison, .flex, .emcc, .supportLib, .stageTimeout, .workspaceRoot, .verbose, .help]

/-- The parameters of a command. -/
def parameters : Command → List Parameter
  | .build => Role.all.map .input ++ .output :: sharedParameters
  | .doctor => sharedParameters
  | .serve => .host :: .port :: .maxBody :: sharedParameters

end Command

/-- The parameters that stand before the command. -/
def programParameters : List Parameter :=
  [.verbose, .version, .help]

end LangBundle.CommandLine
