import LangBundle.Shell.Word

/-!
# The grammar of scripts

`nextLine` reads one command line: lists of pipelines of commands, which may go on over many lines.
A reserved word counts as one only where a command may begin.  Where the grammar is broken, the
message names the token that stands there and, where only one could, the one that should.
-/

namespace LangBundle.Shell

namespace Reader

/-- The reserved words. -/
def reservedWords : List String :=
  ["!", "case", "do", "done", "elif", "else", "esac", "fi", "for", "if", "in", "then", "until",
    "while", "\x7b", "\x7d"]

/-- The commands of the shell whose failure ends it, and whose assignments stay. -/
def specialNames : List String :=
  [".", ":", "break", "continue", "eval", "exec", "exit", "export", "local", "readonly", "return",
    "set", "shift", "times", "trap", "unset"]

/-- The tokens that end a list of commands. -/
def endsList : Token → Bool
  | .endOfFile => true
  | .sign name =>
    [")", ";;", "do", "done", "elif", "else", "esac", "fi", "then", "\x7d"].contains name
  | _ => false

/-- Drops blanks and comments. -/
def skipBlanks : (fuel : Nat) → Reader Unit
  | 0 => return
  | fuel + 1 => do
    match ← peek with
    | some '#' =>
      modify fun r => { r with rest := r.rest.dropWhile (· != '\n') }
      skipBlanks fuel
    | some c =>
      if isSpace c then
        skip
        skipBlanks fuel
      else return
    | none => return

/-- Reads the redirection operator at an angle bracket.  `digit` is the descriptor in front of it. -/
def redirectSign (digit : Option Nat) : Reader Token := do
  let sign : Reader (Nat × RedirectSign) := do
    if ← accept '>' then
      if ← accept '>' then return (1, .append)
      else if ← accept '|' then return (1, .overwrite)
      else if ← accept '&' then return (1, .copyOutput)
      else return (1, .write)
    else
      skip
      if ← accept '<' then return (0, .document (← accept '-'))
      else if ← accept '&' then return (0, .copyInput)
      else if ← accept '>' then return (0, .readWrite)
      else return (0, .read)
  let (standard, sign) ← sign
  modify fun r => { r with redirect := (digit.getD standard, sign) }
  return .redirection

/-- Reads a word, or the redirection operator that it turns out to begin. -/
def wordToken (inner : Reader Command) : Reader Token := do
  modify fun r => { r with quoted := false }
  let parts ← plainText inner endless false []
  let digit : Option (Option Nat) := match parts with
    | [] => some none
    | [.text [d] false] => (Text.digit? d).map some
    | _ => none
  let c ← peek
  match digit with
  | some digit =>
    if c = some '<' || c = some '>' then
      if !(← get).quoted then return ← redirectSign digit
  | none => pure ()
  modify fun r => { r with word := finishWord parts }
  return .word

/-- Reads the next token, whatever it is, or takes the one that was pushed back. -/
def anyToken (inner : Reader Command) : Reader Token := do
  let r ← get
  if r.pushed then
    set { r with pushed := false }
    return r.last
  skipBlanks endless
  let doubled (c : Char) (one two : String) : Reader Token := do
    skip
    return .sign (if ← accept c then two else one)
  let token ← match ← peek with
    | none => pure .endOfFile
    | some '\n' => do skip; pure .newline
    | some '&' => doubled '&' "&" "&&"
    | some '|' => doubled '|' "|" "||"
    | some ';' => doubled ';' ";" ";;"
    | some '(' => do skip; pure (.sign "(")
    | some ')' => do skip; pure (.sign ")")
    | _ => wordToken inner
  modify fun r => { r with last := token }
  return token

/-- Reads tokens up to one that is no line end. -/
def afterNewlines (inner : Reader Command) : (fuel : Nat) → Token → Reader Token
  | fuel + 1, .newline => do
    readDocuments inner
    modify fun r => { r with isMark := false }
    afterNewlines inner fuel (← anyToken inner)
  | _, token => return token

/-- The text of a word that is one piece of unquoted text. -/
def plain? : Word → Option String
  | [.text cs false] => some (String.ofList cs)
  | _ => none

/-- Forgets the aliases whose texts have been read up to the next token; gives whether one of them
allows another. -/
def leaveAliases : Reader Bool := do
  if (← get).pushed then return false
  let _ ← span isSpace
  let r ← get
  let (inside, left) := r.inUse.partition fun a => a.left < r.rest.length
  set { r with inUse := inside }
  return left.any (·.opens)

/-- Puts the text of an alias in front of the text that is left. -/
def enterAlias (name value : String) : Reader Unit :=
  modify fun r =>
    let opens := match value.toList.getLast? with
      | some c => isSpace c
      | none => false
    { r with
      rest := value.toList ++ r.rest
      inUse := { name, left := r.rest.length, opens } :: r.inUse }

/-- Reads the next token where line ends are skipped, reserved words count and aliases are replaced
as the flags say. -/
def tokenWith (inner : Reader Command) (newlines reserved : Bool) : (fuel : Nat) →
    (aliased : Bool) → Reader Token
  | 0, _ => return .endOfFile
  | fuel + 1, aliased => do
    let opened ← leaveAliases
    let first ← anyToken inner
    let token ← if newlines then afterNewlines inner endless first else pure first
    modify fun r => { r with isMark := false }
    let r ← get
    match token, plain? r.word with
    | .word, some name =>
      if r.quoted then return token
      else if reserved && reservedWords.contains name then
        modify fun r => { r with last := .sign name }
        return .sign name
      else match r.aliases.lookup name with
        | some value =>
          if (aliased || opened) && !r.inUse.any (·.name == name) then
            enterAlias name value
            tokenWith inner newlines reserved fuel (aliased || opened)
          else return token
        | none => return token
    | _, _ => return token

/-- Reads the next token as the flags of the reading say, which are used up by that. -/
def token (inner : Reader Command) : Reader Token := do
  let r ← get
  set { r with newlines := false, reserved := false, aliased := false }
  tokenWith inner r.newlines r.reserved endless r.aliased

/-- Pushes the last token back. -/
def push : Reader Unit :=
  modify fun r => { r with pushed := true }

/-- Says what the next token may be. -/
def allow (newlines reserved aliased : Bool) : Reader Unit :=
  modify fun r => { r with newlines, reserved, aliased }

/-- Fails at the last token. -/
def unexpected {α : Type} (expected : Option Token := none) : Reader α := do
  throw (.unexpected (← get).last expected)

/-- Reads a token that has to be the wanted one. -/
def expect (inner : Reader Command) (wanted : Token) : Reader Unit := do
  if (← token inner) ≠ wanted then unexpected (some wanted)

/-- Whether a word begins like an assignment. -/
def isAssignment : Word → Bool
  | .text cs false :: _ =>
    match cs.dropWhile inName with
    | '=' :: _ => match cs with
      | c :: _ => startsName c
      | [] => false
    | _ => false
  | _ => false

/-- What a redirection to a copied descriptor does. -/
def copyAction (w : Word) : RedirectAction :=
  match plain? w with
  | some "-" => .close
  | some text =>
    match text.toList with
    | [c] => match Text.digit? c with
      | some n => .duplicate n
      | none => .duplicateNamed w
    | _ => .duplicateNamed w
  | none => .duplicateNamed w

/-- The text of a word whose quotes are taken away. -/
def literalText (w : Word) : List Char :=
  w.flatMap fun
    | .text cs _ => cs
    | _ => []

/-- Reads what a redirection operator is followed by. -/
def redirect (inner : Reader Command) : Reader Redirect := do
  let (descriptor, sign) := (← get).redirect
  match sign with
  | .document _ => modify fun r => { r with isMark := true }
  | _ => pure ()
  if (← token inner) ≠ .word then unexpected
  let r ← get
  let action ← match sign with
    | .read => pure (.read r.word)
    | .write => pure (.write r.word)
    | .overwrite => pure (.overwrite r.word)
    | .append => pure (.append r.word)
    | .readWrite => pure (.readWrite r.word)
    | .copyInput | .copyOutput => pure (copyAction r.word)
    | .document strip =>
      let d : Announced :=
        { number := r.nextDocument, mark := literalText r.word, exact := r.quoted, strip }
      set { r with announced := r.announced ++ [d], nextDocument := r.nextDocument + 1 }
      pure (.document r.nextDocument)
  return .mk descriptor action

/-- Reads redirections, onto those read so far. -/
def redirects (inner : Reader Command) : (fuel : Nat) → List Redirect → Reader (List Redirect)
  | 0, acc => return acc.reverse
  | fuel + 1, acc => do
    allow false true true
    if (← token inner) = .redirection then redirects inner fuel ((← redirect inner) :: acc)
    else
      push
      return acc.reverse

/-- Reads words up to another token, onto those read so far. -/
def words (inner : Reader Command) : (fuel : Nat) → List Word → Reader (List Word)
  | 0, acc => return acc.reverse
  | fuel + 1, acc => do
    if (← token inner) = .word then
      let w := (← get).word
      words inner fuel (w :: acc)
    else return acc.reverse

/-- Reads the patterns of an arm, the first of which has been read, onto those read so far. -/
def patterns (inner : Reader Command) : (fuel : Nat) → List Word → Reader (List Word)
  | 0, acc => return acc.reverse
  | fuel + 1, acc => do
    let acc := (← get).word :: acc
    if (← token inner) = .sign "|" then
      let _ ← token inner
      patterns inner fuel acc
    else return acc.reverse

/-- What a simple command consists of so far; each row has its newest element first. -/
structure SimpleParts where
  assigns : List Word := []
  words : List Word := []
  redirects : List Redirect := []

/-- Which list of commands is read. -/
inductive ListKind where
  /-- One line of the script. -/
  | line
  /-- At least one command, up to a token that ends lists. -/
  | block
  /-- Any number of commands, up to a token that ends lists. -/
  | optional
  deriving Repr, DecidableEq

mutual

/-- Reads commands behind the ones read so far. -/
def list : (fuel : Nat) → ListKind → Command → Reader Command
  | 0, _, before => return before
  | fuel + 1, kind, before => do
    let inner := list fuel .optional .nothing
    allow (kind ≠ .line) true true
    match ← token inner with
    | .newline =>
      readDocuments inner
      return before
    | .endOfFile =>
      readDocuments inner
      push
      return before
    | first =>
      push
      let mayEnd := match kind with
        | .line => false
        | .block => !before.isNothing
        | .optional => true
      if mayEnd && endsList first then return before
      let command ← andOr fuel
      let sign ← token inner
      let command := if sign = .sign "&" then command.inBackground else command
      let all := if before.isNothing then command else .sequence before command
      match sign with
      | .newline | .endOfFile =>
        push
        list fuel kind all
      | .sign "&" | .sign ";" => list fuel kind all
      | _ =>
        if kind = .line then unexpected
        push
        return all

/-- Reads pipelines that are joined by their results. -/
def andOr : (fuel : Nat) → Reader Command
  | 0 => return .nothing
  | fuel + 1 => do
    let first ← pipeline fuel
    joined fuel first

/-- Reads the pipelines that are joined to the ones read so far. -/
def joined : (fuel : Nat) → Command → Reader Command
  | 0, first => return first
  | fuel + 1, first => do
    let inner := list fuel .optional .nothing
    let next : Reader Command := do
      allow true true true
      pipeline fuel
    match ← token inner with
    | .sign "&&" => joined fuel (.andThen first (← next))
    | .sign "||" => joined fuel (.orElse first (← next))
    | _ =>
      push
      return first

/-- Reads a pipeline. -/
def pipeline : (fuel : Nat) → Reader Command
  | 0 => return .nothing
  | fuel + 1 => do
    let inner := list fuel .optional .nothing
    let negated := (← token inner) = .sign "!"
    if negated then allow false true true else push
    let first ← command fuel
    let all ← piped fuel [first]
    let body : Command := match all with
      | [one] => one
      | all => .pipe all false
    return if negated then .negate body else body

/-- Reads the commands of a pipeline behind those read so far, the newest of which is first. -/
def piped : (fuel : Nat) → List Command → Reader (List Command)
  | 0, acc => return acc.reverse
  | fuel + 1, acc => do
    let inner := list fuel .optional .nothing
    if (← token inner) = .sign "|" then
      allow true true true
      piped fuel ((← command fuel) :: acc)
    else
      push
      return acc.reverse

/-- Reads a command with its redirections. -/
def command : (fuel : Nat) → Reader Command
  | 0 => return .nothing
  | fuel + 1 => do
    let inner := list fuel .optional .nothing
    let line := (← get).line
    let block : Reader Command := list fuel .block .nothing
    let body : Option Command ← match ← token inner with
      | .sign "if" => some <$> ifBody fuel
      | .sign "while" => some <$> loopBody fuel false
      | .sign "until" => some <$> loopBody fuel true
      | .sign "for" => some <$> forBody fuel line
      | .sign "case" => some <$> caseBody fuel line
      | .sign "(" => do
        let body ← block
        expect inner (.sign ")")
        pure (some (.subshell line body []))
      | .sign "\x7b" => do
        let body ← block
        expect inner (.sign "\x7d")
        pure (some body)
      | .word | .redirection => do
        push
        pure none
      | _ => unexpected
    match body with
    | none => simple fuel (← get).line {}
    | some body =>
      match ← redirects inner endless [] with
      | [] => return body
      | found => match body with
        | .subshell line body _ => return .subshell line body found
        | body => return .redirected line body found

/-- Reads what is behind `if` or `elif`. -/
def ifBody : (fuel : Nat) → Reader Command
  | 0 => return .nothing
  | fuel + 1 => do
    let inner := list fuel .optional .nothing
    let condition ← list fuel .block .nothing
    expect inner (.sign "then")
    let yes ← list fuel .block .nothing
    let no ← elseBody fuel
    return .ifThen condition yes no

/-- Reads the rest of a condition, up to its end. -/
def elseBody : (fuel : Nat) → Reader Command
  | 0 => return .nothing
  | fuel + 1 => do
    let inner := list fuel .optional .nothing
    match ← token inner with
    | .sign "elif" => ifBody fuel
    | .sign "else" =>
      let no ← list fuel .block .nothing
      expect inner (.sign "fi")
      return no
    | .sign "fi" => return .nothing
    | _ => unexpected (some (.sign "fi"))

/-- Reads what is behind `while` or `until`. -/
def loopBody : (fuel : Nat) → Bool → Reader Command
  | 0, _ => return .nothing
  | fuel + 1, stopOnSuccess => do
    let inner := list fuel .optional .nothing
    let condition ← list fuel .block .nothing
    expect inner (.sign "do")
    let body ← list fuel .block .nothing
    expect inner (.sign "done")
    return .loop stopOnSuccess condition body

/-- Reads what is behind `for`. -/
def forBody : (fuel : Nat) → (line : Nat) → Reader Command
  | 0, _ => return .nothing
  | fuel + 1, line => do
    let inner := list fuel .optional .nothing
    let first ← token inner
    let r ← get
    match first, plain? r.word with
    | .word, some name =>
      if r.quoted || !isName name.toList then throw .badLoopVariable
      allow true true true
      let all ← if (← token inner) = .sign "in" then do
          let all ← words inner endless []
          let last := (← get).last
          if last ≠ .newline && last ≠ .sign ";" then unexpected
          pure all
        else do
          if (← get).last ≠ .sign ";" then push
          pure [[.param "@" .value true]]
      allow true true true
      expect inner (.sign "do")
      let body ← list fuel .block .nothing
      expect inner (.sign "done")
      return .forEach line name all body
    | _, _ => throw .badLoopVariable

/-- Reads what is behind `case`. -/
def caseBody : (fuel : Nat) → (line : Nat) → Reader Command
  | 0, _ => return .nothing
  | fuel + 1, line => do
    let inner := list fuel .optional .nothing
    expect inner .word
    let subject := (← get).word
    allow true true true
    expect inner (.sign "in")
    return .choose line subject (← caseArms fuel [])

/-- Reads the arms of a choice behind those read so far, the newest of which is first. -/
def caseArms : (fuel : Nat) → List (List Word × Command) → Reader (List (List Word × Command))
  | 0, acc => return acc.reverse
  | fuel + 1, acc => do
    let inner := list fuel .optional .nothing
    allow true true false
    let first ← token inner
    if first = .sign "esac" then return acc.reverse
    if first = .sign "(" then
      let _ ← token inner
    let found ← patterns inner endless []
    if (← get).last ≠ .sign ")" then unexpected (some (.sign ")"))
    let body ← list fuel .optional .nothing
    let acc := (found, body) :: acc
    allow true true false
    match ← token inner with
    | .sign "esac" => return acc.reverse
    | .sign ";;" => caseArms fuel acc
    | _ => unexpected (some (.sign ";;"))

/-- Reads a simple command, or the definition of a function, behind what was read of it so far. -/
def simple : (fuel : Nat) → (line : Nat) → SimpleParts → Reader Command
  | 0, _, _ => return .nothing
  | fuel + 1, line, parts => do
    let inner := list fuel .optional .nothing
    let begins := parts.words.isEmpty
    allow false false begins
    let finish : Reader Command := do
      push
      return .simple line parts.assigns.reverse parts.words.reverse parts.redirects.reverse
    match ← token inner with
    | .word =>
      let w := (← get).word
      if begins && isAssignment w then simple fuel line { parts with assigns := w :: parts.assigns }
      else simple fuel line { parts with words := w :: parts.words }
    | .redirection =>
      let redirection ← redirect inner
      simple fuel line { parts with redirects := redirection :: parts.redirects }
    | .sign "(" =>
      match parts.words with
      | [name] =>
        if !parts.assigns.isEmpty || !parts.redirects.isEmpty then finish
        else
          expect inner (.sign ")")
          match plain? name with
          | some name =>
            if !isName name.toList || specialNames.contains name then throw .badFunctionName
            allow true true true
            let line := (← get).line
            return .define line name (← command fuel)
          | none => throw .badFunctionName
      | _ => finish
    | _ => finish

end

/-- Reads a command line; there is none at the end of the script. -/
def commandLine : Reader (Option Command) := do
  let inner := list endless .optional .nothing
  modify fun r => { r with
    pushed := false, announced := [], newlines := false, reserved := true, aliased := true }
  let first ← token inner
  push
  if first = .endOfFile then return none
  return some (← list endless .line .nothing)

end Reader

namespace Reading

/-- The reading of a text from its beginning. -/
def ofText (text : List Char) (aliases : List (String × String)) (nextDocument : Nat) : Reading :=
  { rest := text, aliases, nextDocument }

/-- Reads the next command line; there is none at the end of the script. -/
def nextLine (r : Reading) : Except (Malformed × Reading) (Option Command × Reading) :=
  match Reader.commandLine r with
  | .ok command r => .ok (command, r)
  | .error fault r => .error (fault, r)

/-- Whether nothing is left behind the last command line. -/
def isAtEnd (r : Reading) : Bool :=
  r.pushed && r.last = .endOfFile

end Reading

end LangBundle.Shell
