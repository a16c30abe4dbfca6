import LangBundle.Shell.Command
import LangBundle.Text.Classes

/-!
# Reading a script

A script is read one command line at a time, and each line is run before the next one is read.  What
the reader keeps between two tokens is a `Reading`: the text that is left, the line it stands on, the
last token, which can be pushed back, and the documents that the line announced and whose texts begin
behind it.

Between most tokens a backslash in front of a line end takes both away.
-/

namespace LangBundle.Shell

open Text

/-- A token and what it is called in messages. -/
inductive Token where
  | endOfFile
  | newline
  | redirection
  | word
  /-- An operator or a reserved word. -/
  | sign (name : String)
  deriving Repr, DecidableEq

/-- What a message calls a token. -/
def Token.shown : Token → String
  | .endOfFile => "end of file"
  | .newline => "newline"
  | .redirection => "redirection"
  | .word => "word"
  | .sign name => "\"" ++ name ++ "\""

/-- Why a text is no script. -/
inductive Malformed where
  | unexpected (token : Token) (expected : Option Token)
  | unterminatedQuote
  | unterminatedBackquote
  | missingBrace
  | missingBrackets
  | badLoopVariable
  | badFunctionName
  | badDescriptor
  deriving Repr, DecidableEq

/-- What is said about a text that is no script; the names of two tokens are cut to fit. -/
def Malformed.message : Malformed → String
  | .unexpected token expected =>
    let text := token.shown ++ " unexpected" ++ match expected with
      | some token => " (expecting " ++ token.shown ++ ")"
      | none => ""
    "Syntax error: " ++ String.ofList (text.toList.take 63)
  | .unterminatedQuote => "Syntax error: Unterminated quoted string"
  | .unterminatedBackquote => "Syntax error: EOF in backquote substitution"
  | .missingBrace => "Syntax error: Missing '\x7d'"
  | .missingBrackets => "Syntax error: Missing '))'"
  | .badLoopVariable => "Syntax error: Bad for loop variable"
  | .badFunctionName => "Syntax error: Bad function name"
  | .badDescriptor => "Syntax error: Bad fd number"

/-- A redirection operator. -/
inductive RedirectSign where
  | read
  | write
  | overwrite
  | append
  | readWrite
  | copyInput
  | copyOutput
  | document (strip : Bool)
  deriving Repr, DecidableEq

/-- A document whose text has not been read yet. -/
structure Announced where
  number : Nat
  /-- The line that ends it. -/
  mark : List Char
  /-- Whether nothing is expanded in it. -/
  exact : Bool
  /-- Whether the tabs in front of its lines are dropped. -/
  strip : Bool

/-- An alias whose text is being read: it ends where `left` characters are left. -/
structure AliasUse where
  name : String
  left : Nat
  /-- Whether the word behind it may be an alias too. -/
  opens : Bool

/-- What a reader keeps between two tokens. -/
structure Reading where
  rest : List Char
  line : Nat := 1
  pushed : Bool := false
  last : Token := .newline
  /-- The last word, and whether a part of it was quoted. -/
  word : Word := []
  quoted : Bool := false
  /-- The last redirection operator and its descriptor. -/
  redirect : Nat × RedirectSign := (0, .read)
  /-- What the next token may be: line ends are skipped, reserved words and aliases count. -/
  newlines : Bool := false
  reserved : Bool := false
  aliased : Bool := false
  /-- Whether the next word ends a document, and nothing in it is expanded. -/
  isMark : Bool := false
  announced : List Announced := []
  documents : List (Nat × Word) := []
  nextDocument : Nat := 0
  aliases : List (String × String) := []
  inUse : List AliasUse := []

/-- A reader that may find the script malformed. -/
abbrev Reader := EStateM Malformed Reading

namespace Reader

/-- Blanks between tokens. -/
def isSpace (c : Char) : Bool :=
  c == ' ' || c == '\t'

/-- The characters that end a word. -/
def endsWord (c : Char) : Bool :=
  isSpace c || c == '\n' || c == ';' || c == '&' || c == '|' || c == '<' || c == '>' || c == '(' ||
    c == ')'

/-- The characters a variable's name begins with. -/
def startsName (c : Char) : Bool :=
  ('a' ≤ c && c ≤ 'z') || ('A' ≤ c && c ≤ 'Z') || c == '_'

/-- The characters of a variable's name. -/
def inName (c : Char) : Bool :=
  startsName c || ('0' ≤ c && c ≤ '9')

/-- The decimal digits. -/
def isDigit (c : Char) : Bool :=
  (digit? c).isSome

/-- Whether a text is a variable's name. -/
def isName (cs : List Char) : Bool :=
  match cs with
  | c :: rest => startsName c && rest.all inName
  | [] => false

/-- The names of the parameters that are one sign. -/
def isSpecial (c : Char) : Bool :=
  ['@', '*', '#', '?', '$', '!', '-'].contains c || isDigit c

/-- A text without the backslashes at its beginning that stand in front of line ends, and how many
there were. -/
def skipJoins : List Char → List Char × Nat
  | '\x5c' :: '\n' :: rest =>
    let (cs, n) := skipJoins rest
    (cs, n + 1)
  | cs => (cs, 0)

/-- The next character; lines that are joined are one. -/
def peek : Reader (Option Char) := do
  let r ← get
  let (rest, joins) := skipJoins r.rest
  set { r with rest, line := r.line + joins }
  return rest.head?

/-- Drops a character; a line end begins a new line. -/
def skip : Reader Unit :=
  modify fun r => match r.rest with
    | '\n' :: rest => { r with rest, line := r.line + 1 }
    | _ :: rest => { r with rest }
    | [] => r

/-- Takes the next character. -/
def next : Reader (Option Char) := do
  let c ← peek
  skip
  return c

/-- Takes the next character as it is written. -/
def nextRaw : Reader (Option Char) := do
  let r ← get
  skip
  return r.rest.head?

/-- Takes the next character if it is the wanted one. -/
def accept (wanted : Char) : Reader Bool := do
  if (← peek) = some wanted then
    skip
    return true
  else return false

/-- Takes characters while they belong to a class. -/
def takeWhile (belongs : Char → Bool) : (fuel : Nat) → List Char → Reader (List Char)
  | 0, acc => return acc.reverse
  | fuel + 1, acc => do
    match ← peek with
    | some c =>
      if belongs c then
        skip
        takeWhile belongs fuel (c :: acc)
      else return acc.reverse
    | none => return acc.reverse

/-- More characters than any script has. -/
def endless : Nat := 0x1000000000000

/-- Takes the longest row of characters of a class. -/
def span (belongs : Char → Bool) : Reader (List Char) :=
  takeWhile belongs endless []

/-- Takes everything up to a character, which is dropped. -/
def untilRaw (stop : Char) : (fuel : Nat) → List Char → Reader (Option (List Char))
  | 0, _ => return none
  | fuel + 1, acc => do
    match ← nextRaw with
    | none => return none
    | some c => if c = stop then return some acc.reverse else untilRaw stop fuel (c :: acc)

end Reader

end LangBundle.Shell
