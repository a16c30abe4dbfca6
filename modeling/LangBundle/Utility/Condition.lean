import LangBundle.Shell.Condition
import LangBundle.Utility.Options

/-!
# The condition of a program's arguments

How the program `test` takes its arguments.  Up to four arguments their number says what they mean;
more are conditions joined by `-a` and `-o`, each negated or in brackets.  A condition gives its
value and the arguments behind it.
-/

namespace LangBundle.Utility.Condition

open Files (Tree Place)

/-- What is wrong with arguments. -/
inductive Flaw where
  /-- Something has to stand behind the last argument. -/
  | missing
  | extra (text : String)
  | noUnary (text : String)
  | noBinary (text : String)
  | noInteger (text : String)
  | noLength (sign : String)
  | unclosed (found : Option String)
  deriving Repr, DecidableEq

/-- What is said about a flaw; `last` is the last argument. -/
def Flaw.message (last : String) : Flaw → String
  | missing => "missing argument after " ++ quoted last
  | extra text => "extra argument " ++ quoted text
  | noUnary text => quoted text ++ ": unary operator expected"
  | noBinary text => quoted text ++ ": binary operator expected"
  | noInteger text => "invalid integer " ++ quoted text
  | noLength sign => sign ++ " does not accept -l"
  | unclosed none => "')' expected"
  | unclosed (some text) => "')' expected, found " ++ text

/-- What is left behind a condition, with its value. -/
abbrev Result := Except Flaw (Bool × List String)

/-- The signs of two operands that compare numbers. -/
def numberSigns : List String :=
  ["-eq", "-ne", "-lt", "-le", "-gt", "-ge"]

/-- The signs of two operands. -/
def isBinary (sign : String) : Bool :=
  ["=", "==", "!=", "-nt", "-ot", "-ef"].contains sign || numberSigns.contains sign

/-- Whether an argument is a dash and a letter. -/
def isLetter (text : String) : Bool :=
  match text.toList with
  | ['-', _] => true
  | _ => false

/-- The integer that an operand writes. -/
def integer (text : String) : Except Flaw Int :=
  match Text.leadingInteger? false text.toList with
  | some (n, rest) =>
    if rest.all Text.isGap then .ok n else .error (.noInteger text)
  | none => .error (.noInteger text)

section

variable (t : Tree) (cwd : Place)

/-- The value of a sign of two operands, each with the word whether its length is meant. -/
def compare (sign : String) (a b : String × Bool) : Except Flaw Bool := do
  let number (x : String × Bool) : Except Flaw Int :=
    if x.2 then .ok x.1.length else integer x.1
  if numberSigns.contains sign then
    let m ← number a
    let n ← number b
    return match sign with
      | "-eq" => m = n
      | "-ne" => m ≠ n
      | "-lt" => m < n
      | "-le" => m ≤ n
      | "-gt" => n < m
      | _ => n ≤ m
  else if sign.startsWith "-" && (a.2 || b.2) then throw (.noLength sign)
  else
    let sign := if sign = "==" then "=" else sign
    let isThere (x : String × Bool) : Bool := (t.stat cwd (Octets.toText x.1)).isOk
    -- A file that is there is newer than one that is not.
    if sign = "-nt" && isThere a && !isThere b || sign = "-ot" && !isThere a && isThere b then
      return true
    match Shell.Condition.binary t cwd a.1 sign b.1 with
    | .ok value => return value
    | .error _ => return false

/-- A sign of two operands between them; `-l` in front of one stands for its length. -/
def binary (lengthFirst : Bool) (args : List String) : Result :=
  match if lengthFirst then args.tail else args with
  | a :: sign :: "-l" :: b :: rest => do
    return (← compare t cwd sign (a, lengthFirst) (b, true), rest)
  | a :: sign :: b :: rest => do
    return (← compare t cwd sign (a, lengthFirst) (b, false), rest)
  | _ => .error .missing

/-- A sign of one operand and the operand. -/
def unary (args : List String) : Result :=
  match args with
  | sign :: operand :: rest =>
    if sign = "-t" then do
      let _ ← integer operand
      return (false, rest)
    else if sign = "-N" then .ok (Shell.Condition.unary t cwd "-e" operand, rest)
    else if Shell.Condition.itemOf sign = .unary then
      .ok (Shell.Condition.unary t cwd sign operand, rest)
    else .error (.noUnary sign)
  | [sign] =>
    if Shell.Condition.itemOf sign = .unary || sign = "-N" then .error .missing
    else .error (.noUnary sign)
  | [] => .error .missing

/-- One argument: whether it is something. -/
def single (args : List String) : Result :=
  match args with
  | a :: rest => .ok (!a.isEmpty, rest)
  | [] => .error .missing

/-- The negation of a condition. -/
def negated (r : Result) : Result :=
  r.map fun (value, rest) => (!value, rest)

/-- Two arguments. -/
def pair (args : List String) : Result :=
  match args with
  | "!" :: rest => negated (single rest)
  | a :: _ => if isLetter a then unary t cwd args else .error .missing
  | [] => .error .missing

mutual

/-- The condition that a number of arguments are. -/
def counted : (fuel : Nat) → (count : Nat) → List String → Result
  | 0, _, _ => .error .missing
  | fuel + 1, count, args =>
    match count, args with
    | 1, args => single args
    | 2, args => pair t cwd args
    | 3, a :: b :: c :: rest => triple fuel a b c rest
    | 4, "!" :: a :: b :: c :: rest => negated (triple fuel a b c rest)
    | 4, "(" :: a :: b :: ")" :: rest => do
      let (value, _) ← pair t cwd [a, b]
      return (value, rest)
    | _, args => either fuel args

/-- Three arguments. -/
def triple (fuel : Nat) (a b c : String) (rest : List String) : Result :=
  if isBinary b then binary t cwd false (a :: b :: c :: rest)
  else if a = "!" then negated (pair t cwd (b :: c :: rest))
  else if a = "(" && c = ")" then .ok (!b.isEmpty, rest)
  else if b = "-a" || b = "-o" then
    match fuel with
    | 0 => .error .missing
    | fuel + 1 => either fuel (a :: b :: c :: rest)
  else .error (.noBinary b)

/-- Conditions joined by `-o`. -/
def either : (fuel : Nat) → List String → Result
  | 0, _ => .error .missing
  | fuel + 1, args => do
    let (first, rest) ← both fuel args
    match rest with
    | "-o" :: rest =>
      let (second, rest) ← either fuel rest
      return (first || second, rest)
    | rest => return (first, rest)

/-- Conditions joined by `-a`. -/
def both : (fuel : Nat) → List String → Result
  | 0, _ => .error .missing
  | fuel + 1, args => do
    let (first, rest) ← term fuel args
    match rest with
    | "-a" :: rest =>
      let (second, rest) ← both fuel rest
      return (first && second, rest)
    | rest => return (first, rest)

/-- One condition. -/
def term : (fuel : Nat) → List String → Result
  | 0, _ => .error .missing
  | _ + 1, [] => .error .missing
  | _ + 1, ["!"] | _ + 1, ["("] => .error .missing
  | fuel + 1, "!" :: rest => negated (term fuel rest)
  | fuel + 1, "(" :: rest => do
    let inside := (rest.drop 1).takeWhile (· != ")")
    let count := if 3 < inside.length || rest.length = inside.length + 1 then rest.length
      else inside.length + 1
    let (value, rest) ← counted fuel count rest
    match rest with
    | ")" :: rest => return (value, rest)
    | rest => throw (.unclosed rest.head?)
  | _ + 1, a :: rest =>
    let second := rest.headD ""
    if a = "-l" && 3 ≤ rest.length && isBinary (rest.getD 1 "") then
      binary t cwd true (a :: rest)
    else if 2 ≤ rest.length && isBinary second then binary t cwd false (a :: rest)
    else if isLetter a then unary t cwd (a :: rest)
    else .ok (!a.isEmpty, rest)

end

/-- The value of arguments. -/
def value (args : List String) : Except Flaw Bool :=
  if args.isEmpty then .ok false
  else do
    let (value, rest) ← counted t cwd (8 * args.length + 8) args.length args
    match rest with
    | [] => return value
    | text :: _ => throw (.extra text)

end

end LangBundle.Utility.Condition
