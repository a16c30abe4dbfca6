import LangBundle.Text.Integer
import LangBundle.Utility.LinePattern

/-!
# Reading patterns

Regular expressions, basic or extended.  A pattern is taken apart into tokens first, which are the
same for both forms, and then into its parts.
-/

namespace LangBundle.Utility.LinePattern

open Text

/-- A token of a pattern. -/
inductive Token where
  | part (p : LinePattern)
  | opening
  | closing
  | bar
  | repeated (least : Nat) (most : Option Nat)
  deriving Repr, DecidableEq

/-- What was read of a pattern: its tokens, and what is said about them. -/
structure Tokens where
  tokens : List Token := []
  warnings : List String := []

/-! ## Brackets -/

/-- What is said about a bracket that is not closed. -/
def unclosedBracket : String :=
  "Unmatched [, [^, [:, [., or [="

/-- The ranges of a class of characters that has a name. -/
def namedClass? (name : String) : Option (List (Char × Char)) :=
  match name with
  | "digit" => some [('0', '9')]
  | "lower" => some [('a', 'z')]
  | "upper" => some [('A', 'Z')]
  | "alpha" => some [('a', 'z'), ('A', 'Z')]
  | "alnum" => some [('a', 'z'), ('A', 'Z'), ('0', '9')]
  | "xdigit" => some [('a', 'f'), ('A', 'F'), ('0', '9')]
  | "space" => some [(' ', ' '), ('\t', '\x0d')]
  | "blank" => some [(' ', ' '), ('\t', '\t')]
  | "punct" => some [('!', '/'), (':', '@'), ('[', '\x60'), ('\x7b', '~')]
  | "graph" => some [('!', '~')]
  | "print" => some [(' ', '~')]
  | "cntrl" => some [('\x00', '\x1f'), ('\x7f', '\x7f')]
  | _ => none

/-- What stands in a bracket up to a character and a closing bracket, and the rest. -/
def upTo? (mark : Char) : List Char → Option (List Char × List Char)
  | a :: b :: rest =>
    if a = mark && b = ']' then some ([], rest)
    else (upTo? mark (b :: rest)).map fun (inner, rest) => (a :: inner, rest)
  | _ => none

/-- One element of a bracket: a class, or a character, and the rest. -/
def bracketElement (cs : List Char) :
    Except String ((List (Char × Char) ⊕ Char) × List Char) :=
  let marked (mark : Char) (rest : List Char) : Except String (List Char × List Char) :=
    match upTo? mark rest with
    | some found => .ok found
    | none => .error unclosedBracket
  match cs with
  | '[' :: ':' :: rest => do
    let (name, rest) ← marked ':' rest
    match namedClass? (String.ofList name) with
    | some ranges => return (.inl ranges, rest)
    | none => throw "Invalid character class name"
  | '[' :: '=' :: rest => do
    let (name, rest) ← marked '=' rest
    match name with
    | [c] => return (.inl [(c, c)], rest)
    | _ => throw "Invalid collation character"
  | '[' :: '.' :: rest => do
    let (name, rest) ← marked '.' rest
    match name with
    | [c] => return (.inr c, rest)
    | _ => throw "Invalid collation character"
  | c :: rest => .ok (.inr c, rest)
  | [] => .error unclosedBracket

/-- The ranges of a bracket up to its end. -/
def bracketRanges : (fuel : Nat) → (first : Bool) → List Char →
    Except String (List (Char × Char) × List Char)
  | 0, _, _ => .error unclosedBracket
  | fuel + 1, first, cs =>
    match cs with
    | [] => .error unclosedBracket
    | ']' :: rest => if first then element fuel cs else .ok ([], rest)
    | '-' :: next :: _ =>
      if !first && next != ']' then .error "Invalid range end" else element fuel cs
    | _ => element fuel cs
where
  /-- One element or range and what stands behind it. -/
  element (fuel : Nat) (cs : List Char) : Except String (List (Char × Char) × List Char) := do
    let (found, rest) ← bracketElement cs
    let behind (ranges : List (Char × Char)) (rest : List Char) :
        Except String (List (Char × Char) × List Char) := do
      let (more, rest) ← bracketRanges fuel false rest
      return (ranges ++ more, rest)
    match found, rest with
    | .inl ranges, '-' :: next :: _ =>
      if next = ']' then behind ranges rest else throw "Invalid range end"
    | .inl ranges, _ => behind ranges rest
    | .inr low, '-' :: next :: _ =>
      if next = ']' then behind [(low, low)] rest
      else match ← bracketElement (rest.drop 1) with
        | (.inr high, rest) =>
          if high < low then throw "Invalid range end" else behind [(low, high)] rest
        | (.inl _, _) => throw "Invalid range end"
    | .inr c, _ => behind [(c, c)] rest

/-- The characters of a bracket behind its opening. -/
def bracket (cs : List Char) : Except String (LinePattern × List Char) := do
  let (negated, inner) := match cs with
    | '^' :: cs => (true, cs)
    | cs => (false, cs)
  if negated && inner.isEmpty then throw "Invalid regular expression"
  let (ranges, rest) ← bracketRanges (inner.length + 1) true inner
  let text := cs.take (cs.length - rest.length - 1)
  if !negated && 1 < text.length && text.head? = some ':' && text.getLast? = some ':' then
    throw "character class syntax is [[:space:]], not [:space:]"
  return (.one ranges negated, rest)

/-! ## Repetitions -/

/-- The greatest number of repetitions. -/
def mostRepetitions : Nat := 32767

/-- The numbers of a repetition behind its opening; nothing if it is none. -/
def interval? (cs : List Char) : Option (Option Nat × Option (Option Nat) × List Char) :=
  let number (cs : List Char) : Option Nat × List Char :=
    let ds := cs.takeWhile fun c => (digit? c).isSome
    (decimal? ds, cs.drop ds.length)
  let (least, rest) := number cs
  match rest with
  | ',' :: rest =>
    let (most, rest) := number rest
    some (least, some most, rest)
  | rest => if least.isSome then some (least, none, rest) else none

/-- The token of a repetition. -/
def intervalToken (least : Option Nat) (most : Option (Option Nat)) : Except String Token :=
  let low := least.getD 0
  let high := match most with
    | none => some low
    | some high => high
  if high.any (· < low) then .error "Invalid content of \\\x7b\\\x7d"
  else if mostRepetitions < max low (high.getD 0) then .error "Regular expression too big"
  else .ok (.repeated low high)

/-! ## Tokens -/

/-- The token of an operator that a backslash marks in the basic form and none in the extended one.
-/
def operator? (c : Char) : Option Token :=
  match c with
  | '(' => some .opening
  | ')' => some .closing
  | '|' => some .bar
  | '+' => some (.repeated 1 none)
  | '?' => some (.repeated 0 (some 1))
  | _ => none

/-- The pattern that a letter behind a backslash stands for. -/
def escaped (c : Char) : LinePattern :=
  let word : List (Char × Char) := [('a', 'z'), ('A', 'Z'), ('0', '9'), ('_', '_')]
  let space : List (Char × Char) := [(' ', ' '), ('\t', '\x0d')]
  match c with
  | 'w' => .one word false
  | 'W' => .one word true
  | 's' => .one space false
  | 'S' => .one space true
  | 'b' => .edge .wordEdge
  | 'B' => .edge .noWordEdge
  | '<' => .edge .wordStart
  | '>' => .edge .wordEnd
  | '\x60' => .edge .start
  | '\x27' => .edge .finish
  | c => match digit? c with
    | some n => if n = 0 then .one [(c, c)] false else .same n
    | none => .one [(c, c)] false

/-- Whether a token is a repetition. -/
def Token.repeats : Token → Bool
  | .repeated _ _ => true
  | _ => false

/-- The tokens of a pattern.  `first` says that nothing stands in front within the same branch, and
`depth` how many groups are open. -/
def tokens (extended : Bool) : (fuel : Nat) → (first : Bool) → (depth : Nat) → List Char →
    Except String Tokens
  | 0, _, _, _ => .ok {}
  | _ + 1, _, _, [] => .ok {}
  | fuel + 1, first, depth, c :: rest => do
    let go (t : Token) (rest : List Char) : Except String Tokens := do
      let (first, depth) := match t with
        | .opening => (true, depth + 1)
        | .closing => (false, depth - 1)
        | .bar => (true, depth)
        | _ => (false, depth)
      let more ← tokens extended fuel first depth rest
      return { more with tokens := t :: more.tokens }
    let literal (c : Char) (rest : List Char) : Except String Tokens :=
      go (.part (.one [(c, c)] false)) rest
    -- A repetition with nothing in front is a character in the basic form, and nothing in the other.
    let repetition (shown : String) (t : Token) (c : Char) (rest : List Char) :
        Except String Tokens := do
      if !first then go t rest
      else if !extended then literal c rest
      else
        let more ← tokens extended fuel true depth rest
        return { more with warnings := ("warning: " ++ shown ++ " at start of expression") ::
          more.warnings }
    let operator (t : Token) (c : Char) (rest : List Char) : Except String Tokens :=
      if t.repeats then repetition c.toString t c rest
      else if t = .closing && depth = 0 then
        if extended then literal c rest else throw "Unmatched ) or \\)"
      else go t rest
    match c, rest with
    | '\x5c', [] => throw "Trailing backslash"
    | '\x5c', d :: behind =>
      if extended then go (.part (escaped d)) behind
      else match operator? d with
        | some t => operator t d behind
        | none =>
          if d = '\x7b' && !first then
            match interval? behind with
            | some (least, most, '\x5c' :: '\x7d' :: rest) =>
              go (← intervalToken least most) rest
            | some (_, _, []) | some (_, _, '\x7d' :: _) => throw "Unmatched \\\x7b"
            | some _ => throw "Invalid content of \\\x7b\\\x7d"
            | none =>
              throw (if behind.isEmpty then "Unmatched \\\x7b" else "Invalid content of \\\x7b\\\x7d")
          else go (.part (escaped d)) behind
    | '.', _ => go (.part (.one [] true)) rest
    | '[', _ => do
      let (p, rest) ← bracket rest
      go (.part p) rest
    | '*', _ => repetition "*" (.repeated 0 none) '*' rest
    | '^', _ =>
      if extended || first then do
        let more ← tokens extended fuel first depth rest
        return { more with tokens := .part (.edge .start) :: more.tokens }
      else literal '^' rest
    | '$', _ =>
      let last := rest.isEmpty || ['\x5c', ')'].isPrefixOf rest || ['\x5c', '|'].isPrefixOf rest
      if extended || last then go (.part (.edge .finish)) rest else literal '$' rest
    | c, rest =>
      if !extended then literal c rest
      else match operator? c with
        | some t => operator t c rest
        | none =>
          if c = '\x7b' then
            match interval? rest with
            | some (least, most, '\x7d' :: behind) => do
              let t ← intervalToken least most
              repetition "\x7b...\x7d" t c behind
            | _ => literal c rest
          else literal c rest

/-! ## Parts -/

/-- Where reading is: the number of the next group, and the tokens left. -/
structure Rest where
  next : Nat
  tokens : List Token

/-- Reads tokens up to a closing bracket or the end.  `earlier` are the branches before this one,
`branch` is this one so far without its last part. -/
def readParts : (fuel : Nat) → (earlier : Option LinePattern) → (branch last : LinePattern) →
    Rest → Except String (LinePattern × Rest)
  | 0, _, branch, _, r => .ok (branch, r)
  | fuel + 1, earlier, branch, last, r =>
    let branchSoFar := sequence branch last
    let all := match earlier with
      | some p => either p branchSoFar
      | none => branchSoFar
    match r.tokens with
    | [] => .ok (all, r)
    | .closing :: _ => .ok (all, r)
    | .bar :: rest => readParts fuel (some all) empty empty { r with tokens := rest }
    | .part (.same n) :: rest =>
      if r.next ≤ n then .error "Invalid back reference"
      else readParts fuel earlier branchSoFar (.same n) { r with tokens := rest }
    | .part p :: rest => readParts fuel earlier branchSoFar p { r with tokens := rest }
    | .repeated least most :: rest =>
      readParts fuel earlier branch (last.repeated least most) { r with tokens := rest }
    | .opening :: rest =>
      match readParts fuel none empty empty ⟨r.next + 1, rest⟩ with
      | .ok (inner, ⟨next, .closing :: rest⟩) =>
        readParts fuel earlier branchSoFar (.group r.next inner) ⟨next, rest⟩
      | .ok _ => .error "Unmatched ( or \\("
      | .error text => .error text

/-- Whether a pattern asks for the text of a group. -/
def hasSame : LinePattern → Bool
  | same _ => true
  | sequence p q | either p q => p.hasSame || q.hasSame
  | many p | group _ p => p.hasSame
  | _ => false

/-- A pattern that does not remember where its groups are found. -/
def withoutGroups : LinePattern → LinePattern
  | sequence p q => sequence p.withoutGroups q.withoutGroups
  | either p q => either p.withoutGroups q.withoutGroups
  | many p => many p.withoutGroups
  | group _ p => p.withoutGroups
  | p => p

/-- A pattern that was read: how many groups it has, and what is said about it. -/
structure Read where
  pattern : LinePattern
  groups : Nat
  warnings : List String

/-- Reads a pattern with all its groups. -/
def read (extended : Bool) (text : String) : Except String Read := do
  let ts ← tokens extended (text.length + 1) true 0 text.toList
  let (pattern, rest) ← readParts (ts.tokens.length + 1) none empty empty ⟨1, ts.tokens⟩
  return { pattern, groups := rest.next - 1, warnings := ts.warnings }

/-- Reads a pattern, of whose groups only those are kept that it asks for; what is said about it
comes second. -/
def ofText (extended : Bool) (text : String) : Except String (LinePattern × List String) := do
  let r ← read extended text
  return (if r.pattern.hasSame then r.pattern else r.pattern.withoutGroups, r.warnings)

end LangBundle.Utility.LinePattern
