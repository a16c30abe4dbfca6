import LangBundle.Shell.Reading

/-!
# Words of a script

Quotes are resolved while a word is read: it comes out as its parts, each of which knows whether it
was quoted.  Braces, double quotes and documents nest, and each ends only at its own mark.
-/

namespace LangBundle.Shell

namespace Reader

/-- Where text stands that double quotes, a document or arithmetic quote. -/
inductive Quoting where
  /-- Between double quotes; `inBraces` if braces stand around these. -/
  | quotes (inBraces : Bool)
  /-- Between braces within quoted text. -/
  | braces (ofDocument : Bool)
  /-- In a document, up to the line that ends it. -/
  | document (mark : List Char) (strip : Bool)
  /-- In an arithmetic expression. -/
  | arithmetic
  deriving Repr, DecidableEq

/-- Adds a character to a word read so far, its newest part first and the newest character of that
part first. -/
def addChar (c : Char) (quoted : Bool) : Word → Word
  | .text cs q :: rest =>
    if q = quoted then .text (c :: cs) q :: rest else .text [c] quoted :: .text cs q :: rest
  | parts => .text [c] quoted :: parts

/-- A word from its parts, the newest first. -/
def finishWord (parts : Word) : Word :=
  parts.reverse.map fun
    | .text cs quoted => .text cs.reverse quoted
    | part => part

/-- Notes that a part of the word was quoted. -/
def noteQuote : Reader Unit :=
  modify fun r => { r with quoted := true }

/-- The word between double quotes.  All arguments of the script between quotes are no field if there
are none, so no mark stays there. -/
def quotedParts : Word → Word
  | [.param "@" .value true] => [.param "@" .value true]
  | parts => .mark :: (parts ++ [.mark])

/-- The text of a command between backquotes; a backslash quotes a dollar sign, a backquote and a
backslash, and between double quotes a double quote. -/
def untilBackquote (inQuotes : Bool) : (fuel : Nat) → List Char → Reader (List Char)
  | 0, _ => throw .unterminatedBackquote
  | fuel + 1, acc => do
    match ← next with
    | none => throw .unterminatedBackquote
    | some '\x60' => return acc.reverse
    | some '\x5c' =>
      match ← nextRaw with
      | none => throw .unterminatedBackquote
      | some c =>
        if c = '\x5c' || c = '\x60' || c = '$' || (inQuotes && c = '\x22') then
          untilBackquote inQuotes fuel (c :: acc)
        else untilBackquote inQuotes fuel (c :: '\x5c' :: acc)
    | some c => untilBackquote inQuotes fuel (c :: acc)

/-- The output of a command between backquotes.  Its text is a script of its own. -/
def backquoted (inner : Reader Command) (inQuotes : Bool) : Reader Part := do
  let text ← untilBackquote inQuotes endless []
  let r ← get
  set { r with rest := text, line := 1, pushed := false, announced := [], inUse := [] }
  let command ← inner
  modify fun s =>
    { r with pushed := false, documents := s.documents, nextDocument := s.nextDocument }
  return .output command inQuotes

/-- The output of a command between round brackets. -/
def bracketed (inner : Reader Command) (inQuotes : Bool) : Reader Part := do
  let before ← get
  modify fun r => { r with announced := [] }
  let command ← inner
  let token := (← get).last
  if token ≠ .sign ")" then throw (.unexpected token (some (.sign ")")))
  modify fun r => { r with
    pushed := false
    quoted := before.quoted
    announced := before.announced }
  return .output command inQuotes

/-- Whether the rest of a text begins with the line that ends a document; what is behind it then. -/
def behindMark? (mark : List Char) (strip : Bool) (cs : List Char) : Option (List Char) :=
  let cs := if strip then cs.dropWhile (· == '\t') else cs
  if mark.isPrefixOf cs then
    match cs.drop mark.length with
    | [] => some []
    | '\n' :: rest => some rest
    | _ => none
  else none

/-- At the beginning of a line of a document: whether it ends there.  Tabs are dropped if asked for.
-/
def atDocumentLine (mark : List Char) (strip : Bool) : Reader Bool := do
  let r ← get
  match behindMark? mark strip r.rest with
  | some rest =>
    set { r with rest, line := r.line + 1 }
    return true
  | none =>
    if strip then set { r with rest := r.rest.dropWhile (· == '\t') }
    return r.rest.isEmpty

/-- The lines of a document in which nothing is expanded. -/
def exactDocument (mark : List Char) (strip : Bool) : (fuel : Nat) → List Char →
    Reader (List Char)
  | 0, acc => return acc.reverse
  | fuel + 1, acc => do
    if ← atDocumentLine mark strip then return acc.reverse
    let r ← get
    let line := r.rest.takeWhile (· != '\n')
    let rest := r.rest.drop line.length
    set { r with rest := rest.drop 1, line := r.line + if rest.isEmpty then 0 else 1 }
    exactDocument mark strip fuel
      ((if rest.isEmpty then [] else ['\n']) ++ line.reverse ++ acc)

/-- The use of a parameter that an operator between braces begins; the operator is dropped. -/
inductive UseSign where
  | none
  | word (make : Word → Use)
  | pattern (make : Word → Use)

/-- Reads the operator behind a parameter's name between braces. -/
def useSign : Reader UseSign := do
  let word (c : Char) (colon : Bool) : Option (Word → Use) := match c with
    | '-' => some (.orElse colon)
    | '=' => some (.orAssign colon)
    | '+' => some (.alternative colon)
    | '?' => some (.required colon)
    | _ => Option.none
  match ← peek with
  | some '\x7d' =>
    skip
    return .none
  | some ':' =>
    skip
    let c ← next
    return .word (((c.bind (word · true)).getD fun _ => .unknown))
  | some '%' =>
    skip
    return .pattern (.dropEnd (← accept '%'))
  | some '#' =>
    skip
    return .pattern (.dropStart (← accept '#'))
  | some c =>
    match word c false with
    | some make =>
      skip
      return .word make
    | Option.none => return .word fun _ => .unknown
  | Option.none => return .word fun _ => .unknown

/-- The name behind an opening brace and a sign for its length, if there is one. -/
structure BracedName where
  name : String
  isLength : Bool := false
  isKnown : Bool := true

/-- Reads the name of a parameter between braces. -/
def bracedName : Reader BracedName := do
  let longName : Reader BracedName := do
    match ← peek with
    | some c =>
      if startsName c then return { name := String.ofList (← span inName) }
      else return { name := String.ofList (← span isDigit) }
    | none => return { name := "", isKnown := false }
  match ← peek with
  | none | some '\x7d' => return { name := "", isKnown := false }
  | some c =>
    if startsName c || isDigit c then longName
    else
      skip
      if c = '#' then
        match ← peek with
        | some d =>
          if startsName d || isDigit d then return { ← longName with isLength := true }
          else
            let here ← get
            skip
            -- The sign stands for a length only if a sign and the closing brace follow.
            if d ≠ '\x7d' && (← peek) = some '\x7d' then
              return { name := d.toString, isLength := true, isKnown := isSpecial d }
            else
              set here
              return { name := "#" }
        | none => return { name := "#" }
      else return { name := c.toString, isKnown := isSpecial c }

mutual

/-- Reads the parts of quoted text onto those read so far.  `toggled` says that a double quote was
opened between braces, `depth` how many round brackets are open. -/
def quotedText (inner : Reader Command) : (fuel : Nat) → Quoting →
    (toggled : Bool) → (depth : Nat) → Word → Reader Word
  | 0, _, _, _, parts => return parts
  | fuel + 1, quoting, toggled, depth, parts => do
    let go := quotedText inner fuel quoting
    match ← peek with
    | none =>
      match quoting with
      | .document .. => return parts
      | .braces true => throw .missingBrace
      | .arithmetic => throw .missingBrackets
      | _ => throw .unterminatedQuote
    | some c =>
      let literal : Reader Word := do
        skip
        go toggled depth (addChar c true parts)
      match c with
      | '\n' =>
        skip
        let parts := addChar c true parts
        match quoting with
        | .document mark strip =>
          if ← atDocumentLine mark strip then return parts else go toggled depth parts
        | _ => go toggled depth parts
      | '\x5c' =>
        skip
        match ← nextRaw with
        | none => go toggled depth (addChar c true parts)
        | some d =>
          let escapes := d = '\x5c' || d = '\x60' || d = '$' ||
            (d = '\x22' && (match quoting with
              | .document .. => false
              | _ => true)) ||
            (d = '\x7d' && (match quoting with
              | .quotes inBraces => inBraces
              | .braces _ => true
              | _ => false))
          if escapes then go toggled depth (addChar d true parts)
          else go toggled depth (addChar d true (addChar c true parts))
      | '\x22' =>
        match quoting with
        | .quotes _ =>
          skip
          noteQuote
          return parts
        | .braces _ =>
          skip
          noteQuote
          go (!toggled) depth (.mark :: parts)
        | _ => literal
      | '\x7d' =>
        match quoting with
        | .braces _ =>
          if toggled then literal
          else
            skip
            return parts
        | _ => literal
      | '(' =>
        if quoting = .arithmetic then
          skip
          go toggled (depth + 1) (addChar c true parts)
        else literal
      | ')' =>
        if quoting ≠ .arithmetic then literal
        else if 0 < depth then
          skip
          go toggled (depth - 1) (addChar c true parts)
        else
          skip
          if ← accept ')' then return parts else go toggled depth (addChar c true parts)
      | '\x60' =>
        skip
        go toggled depth ((← backquoted inner true) :: parts)
      | '$' =>
        skip
        go toggled depth (← dollar inner fuel (some quoting) parts)
      | _ => literal

/-- Reads the parts of a word, onto those read so far, up to a character that ends words, or between
braces up to the closing one. -/
def plainText (inner : Reader Command) : (fuel : Nat) →
    (inBraces : Bool) → Word → Reader Word
  | 0, _, parts => return parts
  | fuel + 1, inBraces, parts => do
    let go := plainText inner fuel inBraces
    match ← peek with
    | none => if inBraces then throw .missingBrace else return parts
    | some c =>
      if !inBraces && endsWord c then return parts
      else match c with
        | '\x5c' =>
          skip
          match ← nextRaw with
          | none => go (addChar c true parts)
          | some d =>
            noteQuote
            go (addChar d true parts)
        | '\x27' =>
          skip
          match ← untilRaw '\x27' endless [] with
          | none => throw .unterminatedQuote
          | some cs =>
            noteQuote
            go (.mark :: .text cs.reverse true :: .mark :: parts)
        | '\x22' =>
          skip
          let quoted ← quotedText inner fuel (.quotes inBraces) false 0 []
          go (quotedParts quoted ++ parts)
        | '\x60' =>
          skip
          if (← get).isMark then go (addChar c false parts)
          else go ((← backquoted inner false) :: parts)
        | '$' =>
          skip
          go (← dollar inner fuel none parts)
        | '\x7d' =>
          skip
          if inBraces then return parts else go (addChar c false parts)
        | _ =>
          skip
          go (addChar c false parts)

/-- Reads what a dollar sign begins, the sign itself not included. -/
def dollar (inner : Reader Command) : (fuel : Nat) → Option Quoting →
    Word → Reader Word
  | 0, _, parts => return parts
  | fuel + 1, quoting, parts => do
    let quoted := quoting.isSome
    let literal : Reader Word := return addChar '$' quoted parts
    if (← get).isMark then literal
    else match ← peek with
      | none => literal
      | some c =>
        if c = '(' then
          skip
          if ← accept '(' then
            let expression ← quotedText inner fuel .arithmetic false 0 []
            return .arithmetic (finishWord expression) quoted :: parts
          else return (← bracketed inner quoted) :: parts
        else if c = '\x7b' then
          skip
          let found ← bracedName
          let words (isPattern : Bool) : Reader Word := do
            match quoting, isPattern with
            | none, _ | _, true => return finishWord (← plainText inner fuel true [])
            | some quoting, false =>
              let ofDocument := match quoting with
                | .document .. | .braces true => true
                | _ => false
              return finishWord
                (← quotedText inner fuel (.braces ofDocument) false 0 [])
          let make (use : Use) : Word := .param found.name use quoted :: parts
          if !found.isKnown then
            let _ ← words false
            return make .unknown
          else if found.isLength then
            if (← peek) = some '\x7d' then
              skip
              return make .length
            else
              let _ ← words false
              return make .unknown
          else match ← useSign with
            | .none => return make .value
            | .word use => return make (use (← words false))
            | .pattern use => return make (use (← words true))
        else if startsName c then
          return .param (String.ofList (← span inName)) .value quoted :: parts
        else if isSpecial c then
          skip
          return .param c.toString .value quoted :: parts
        else literal

end

/-- The text of a document. -/
def documentText (inner : Reader Command) (d : Announced) :
    Reader Word := do
  if d.exact then return [.text (← exactDocument d.mark d.strip endless []) true]
  else if ← atDocumentLine d.mark d.strip then return []
  else
    let parts ← quotedText inner endless (.document d.mark d.strip) false 0 []
    return finishWord parts

/-- Reads the documents that were announced. -/
def readDocuments (inner : Reader Command) : Reader Unit := do
  let announced := (← get).announced
  modify fun r => { r with announced := [] }
  for d in announced do
    let text ← documentText inner d
    modify fun r => { r with documents := (d.number, text) :: r.documents }

end Reader

end LangBundle.Shell
