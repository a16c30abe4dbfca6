import LangBundle.Shell.Env

/-!
# Arithmetic of the shell

Integer expressions as they stand between `$((` and `))`: numbers, variables, the operations of C on
words of 64 bits, and assignments.  Truth is one and falsehood zero.  An expression is read and
evaluated at once, one token ahead; what the result does not depend on is read without being
evaluated.
-/

namespace LangBundle.Shell

namespace Arithmetic

/-- A token of an expression. -/
inductive Item where
  | finish
  | number (n : Int)
  | name (s : String)
  | sign (s : String)
  /-- A character that begins no token. -/
  | stray
  deriving Repr, DecidableEq

/-- Why an expression has no value. -/
inductive Problem where
  /-- The expression is not one, or divides by zero. -/
  | expression (text : String)
  /-- A variable holds no number. -/
  | number (text : String)
  | readOnly (name : String)
  deriving Repr, DecidableEq

/-- What is left of an expression, its next token, and the shell. -/
structure State where
  rest : List Char
  last : Item := .finish
  env : Env

/-- A computation on the rest of an expression. -/
abbrev Reader := EStateM Problem State

/-- The signs of more than one character, the longest first. -/
def longSigns : List String :=
  ["<<=", ">>=", "<<", ">>", "<=", ">=", "==", "!=", "&&", "||", "+=", "-=", "*=", "/=", "%=", "&=",
    "|=", "^="]

/-- The signs of one character. -/
def shortSigns : List Char :=
  ['=', '>', '<', '|', '&', '!', '(', ')', '*', '/', '%', '+', '-', '~', '^', '?', ':']

/-- The first token of a text, and the rest. -/
def item (cs : List Char) : Item × List Char :=
  let cs := cs.dropWhile fun c => c == ' ' || c == '\t' || c == '\n'
  match Text.leadingNatural? true cs, cs with
  | some (n, rest), _ => (.number (Text.clamp n), rest)
  | none, [] => (.finish, [])
  | none, c :: rest =>
    if Reader.startsName c then
      (.name (String.ofList (cs.takeWhile Reader.inName)), cs.dropWhile Reader.inName)
    else match longSigns.find? fun s => s.toList.isPrefixOf cs with
      | some sign => (.sign sign, cs.drop sign.length)
      | none => if shortSigns.contains c then (.sign c.toString, rest) else (.stray, cs)

/-- Takes the next token. -/
def next : Reader Item := do
  let s ← get
  let (item, rest) := item s.rest
  set { s with rest }
  return item

/-- Notes the token behind the operand that was read. -/
def note (item : Item) : Reader Unit :=
  modify fun s => { s with last := item }

/-- How weakly an operation binds. -/
def weakness? : Item → Option Nat
  | .sign s => match s with
    | "*" | "/" | "%" => some 0
    | "+" | "-" => some 1
    | "<<" | ">>" => some 2
    | "<" | ">" | "<=" | ">=" => some 3
    | "==" | "!=" => some 4
    | "&" => some 5
    | "^" => some 6
    | "|" => some 7
    | _ => none
  | _ => none

/-- Truth as a number. -/
def truth (b : Bool) : Int :=
  if b then 1 else 0

/-- The word of 64 bits that an integer becomes. -/
def wrap (n : Int) : Int :=
  n.bmod 0x10000000000000000

/-- An operation on the bits of two words. -/
def onBits (f : UInt64 → UInt64 → UInt64) (a b : Int) : Int :=
  wrap (f (UInt64.ofNat (a.emod 0x10000000000000000).toNat) (UInt64.ofNat (b.emod 0x10000000000000000).toNat)).toNat

/-- The value of an operation; there is none if it divides by zero. -/
def combine? (a : Int) (op : String) (b : Int) : Option Int :=
  match op with
  | "|" => some (onBits (· ||| ·) a b)
  | "^" => some (onBits (· ^^^ ·) a b)
  | "&" => some (onBits (· &&& ·) a b)
  | "==" => some (truth (a == b))
  | "!=" => some (truth (a != b))
  | "<" => some (truth (decide (a < b)))
  | ">" => some (truth (decide (b < a)))
  | "<=" => some (truth (decide (a ≤ b)))
  | ">=" => some (truth (decide (b ≤ a)))
  | "<<" => some (onBits (· <<< ·) a b)
  | ">>" => some (a.fdiv (Int.pow 2 (b.emod 64).toNat))
  | "+" => some (wrap (a + b))
  | "-" => some (wrap (a - b))
  | "*" => some (wrap (a * b))
  | "/" => if b = 0 then none else some (wrap (a.tdiv b))
  | _ => if b = 0 then none else some (a.tmod b)

/-- The value of an operation. -/
def combine (a : Int) (op : Item) (b : Int) : Reader Int :=
  match op with
  | .sign op => match combine? a op b with
    | some n => return n
    | none => throw (.expression "division by zero")
  | _ => return b

/-- The value of a variable; one that is empty counts as zero. -/
def valueOf (name : String) : Reader Int := do
  let text := ((← get).env.value? name).getD ""
  if text.toList.all Text.isGap then return 0
  else match Text.integer? true text.toList with
    | some n => return n
    | none => throw (.number text)

/-- Gives a variable a value. -/
def assign (name : String) (n : Int) : Reader Int := do
  let s ← get
  if s.env.mayAssign name then
    set { s with env := s.env.assign name (toString n) }
    return n
  else throw (.readOnly name)

/-- The operation of a sign that assigns its value too. -/
def assigning? : Item → Option (Option Item)
  | .sign "=" => some none
  | .sign op =>
    let plain := Item.sign (String.ofList op.toList.dropLast)
    if op.endsWith "=" && (weakness? (.sign op)).isNone && (weakness? plain).isSome then
      some (some plain)
    else none
  | _ => none

mutual

/-- A number, a variable, a bracket or a signed operand, which begins with a token; the token behind
that has been read too.  `idle` says that nothing is evaluated. -/
def operand : (fuel : Nat) → (first second : Item) → (idle : Bool) → Reader Int
  | 0, _, _, _ => return 0
  | fuel + 1, first, second, idle => do
    let signed : Reader Int := do operand fuel second (← next) idle
    match first with
    | .number n =>
      note second
      return n
    | .name s =>
      note second
      if idle then return 1 else valueOf s
    | .sign "(" =>
      let n ← assignment fuel second idle
      if (← get).last ≠ .sign ")" then throw (.expression "expecting ')'")
      note (← next)
      return n
    | .sign "+" => signed
    | .sign "-" => return wrap (-(← signed))
    | .sign "!" => return truth ((← signed) == 0)
    | .sign "~" => return -(← signed) - 1
    | _ => throw (.expression "expecting primary")

/-- Goes on with operations behind their first operand, up to one that binds as weakly as `bound`.
-/
def operations : (fuel : Nat) → Int → Item → (bound : Nat) → (idle : Bool) → Reader Int
  | 0, a, _, _, _ => return a
  | fuel + 1, a, op, bound, idle => do
    let first ← next
    let b ← operand fuel first (← next) idle
    let strength := (weakness? op).getD 0
    let b ← match weakness? (← get).last with
      | some w => if w < strength then operations fuel b (← get).last strength idle else pure b
      | none => pure b
    let a ← if idle then pure b else combine a op b
    match weakness? (← get).last with
    | some w => if w < bound then operations fuel a (← get).last bound idle else return a
    | none => return a

/-- Operands joined by operations. -/
def joined : (fuel : Nat) → (first second : Item) → (idle : Bool) → Reader Int
  | 0, _, _, _ => return 0
  | fuel + 1, first, second, idle => do
    let a ← operand fuel first second idle
    if (weakness? (← get).last).isSome then operations fuel a (← get).last 8 idle else return a

/-- Conditions that have to hold together. -/
def both : (fuel : Nat) → (first second : Item) → (idle : Bool) → Reader Int
  | 0, _, _, _ => return 0
  | fuel + 1, first, second, idle => do
    let a ← joined fuel first second idle
    if (← get).last = .sign "&&" then
      let first ← next
      let b ← both fuel first (← next) (idle || a == 0)
      return truth (a != 0 && b != 0)
    else return a

/-- Conditions one of which has to hold. -/
def either : (fuel : Nat) → (first second : Item) → (idle : Bool) → Reader Int
  | 0, _, _, _ => return 0
  | fuel + 1, first, second, idle => do
    let a ← both fuel first second idle
    if (← get).last = .sign "||" then
      let first ← next
      let b ← either fuel first (← next) (idle || a != 0)
      return truth (a != 0 || b != 0)
    else return a

/-- An expression with `?` and `:` or without. -/
def choice : (fuel : Nat) → (first second : Item) → (idle : Bool) → Reader Int
  | 0, _, _, _ => return 0
  | fuel + 1, first, second, idle => do
    let a ← either fuel first second idle
    if (← get).last = .sign "?" then
      let yes ← assignment fuel (← next) (idle || a == 0)
      if (← get).last ≠ .sign ":" then throw (.expression "expecting ':'")
      let first ← next
      let no ← choice fuel first (← next) (idle || a != 0)
      return if a = 0 then no else yes
    else return a

/-- An assignment to a variable, or an expression without one. -/
def assignment : (fuel : Nat) → (first : Item) → (idle : Bool) → Reader Int
  | 0, _, _ => return 0
  | fuel + 1, first, idle => do
    let second ← next
    match first, assigning? second with
    | .name s, some op =>
      let n ← assignment fuel (← next) idle
      if idle then return n
      else match op with
        | none => assign s n
        | some op => assign s (← combine (← valueOf s) op n)
    | _, _ => choice fuel first second idle

end

/-- The value of a whole expression. -/
def whole (length : Nat) : Reader Int := do
  let n ← assignment (8 * length + 8) (← next) false
  if (← get).last ≠ .finish then throw (.expression "expecting EOF")
  return n

end Arithmetic

/-- What is said about an expression that has no value. -/
def Arithmetic.Problem.message (expression : String) : Arithmetic.Problem → String
  | .expression text => "arithmetic expression: " ++ text ++ ": \"" ++ expression ++ "\""
  | .number text => "Illegal number: " ++ text
  | .readOnly name => name ++ ": is read only"

/-- The value of an expression, and the shell with the variables that it assigns. -/
def Env.calculate (e : Env) (expression : String) : Except String (Int × Env) :=
  match Arithmetic.whole expression.length { rest := expression.toList, env := e } with
  | .ok n s => .ok (n, s.env)
  | .error problem _ => .error (problem.message expression)

end LangBundle.Shell
