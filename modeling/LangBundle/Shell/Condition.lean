import LangBundle.Files.Access
import LangBundle.Text.Integer
import LangBundle.Text.Octets

/-!
# Conditions of `test`

The value of the arguments of `test` and `[`: operands, signs of one and of two operands, `!`, `-a`,
`-o` and brackets.  A sign of one operand is taken as an operand where it is the last argument or
stands before a sign of two.
-/

namespace LangBundle.Shell.Condition

open Files (Tree Place Node)

/-- What an argument is. -/
inductive Item where
  | finish
  | operand
  | unary
  | binary
  | negation
  | both
  | either
  | opening
  | closing
  deriving Repr, DecidableEq

/-- What an argument would be by itself. -/
def itemOf (s : String) : Item :=
  match s with
  | "-b" | "-c" | "-d" | "-e" | "-f" | "-g" | "-G" | "-h" | "-k" | "-L" | "-n" | "-O" | "-p" | "-r"
  | "-s" | "-S" | "-t" | "-u" | "-w" | "-x" | "-z" => .unary
  | "=" | "!=" | "<" | ">" | "-eq" | "-ne" | "-lt" | "-le" | "-gt" | "-ge" | "-nt" | "-ot"
  | "-ef" => .binary
  | "!" => .negation
  | "-a" => .both
  | "-o" => .either
  | "(" => .opening
  | ")" => .closing
  | _ => .operand

/-- What is wrong with arguments. -/
inductive Flaw where
  | noNumber (text : String)
  | noOperand (sign : String)
  | leftOver (text : String)
  | unclosed
  deriving Repr, DecidableEq

/-- What is said about a flaw. -/
def Flaw.message : Flaw → String
  | noNumber text => "Illegal number: " ++ text
  | noOperand sign => sign ++ ": argument expected"
  | leftOver text => if text.isEmpty then "unexpected operator" else text ++ ": unexpected operator"
  | unclosed => "closing paren expected"

/-- What the first of some arguments is. -/
def itemAt : List String → Item
  | [] => .finish
  | s :: rest =>
    let isOperand : Bool := match itemOf s, rest with
      | .unary, [] => true
      | .unary, next :: _ :: _ => decide (itemOf next = .binary)
      | .opening, [] => true
      | _, _ => false
    if isOperand then .operand else itemOf s

/-- A test of one operand. -/
def unary (t : Tree) (cwd : Place) (sign operand : String) : Bool :=
  let path := Octets.toText operand
  let holds (p : Node → Bool) : Bool := match t.stat cwd path with
    | .ok n => p n
    | .error _ => false
  match sign with
  | "-n" => !operand.isEmpty
  | "-z" => operand.isEmpty
  | "-e" | "-O" | "-G" => holds fun _ => true
  | "-r" => holds (·.allows .read)
  | "-w" => holds (·.allows .write)
  | "-x" => holds (·.allows .execute)
  | "-f" => holds (·.isFile)
  | "-d" => holds (·.isDirectory)
  | "-p" => holds fun
    | .pipe .. => true
    | _ => false
  | "-c" => holds fun
    | .device _ => true
    | _ => false
  | "-s" => holds fun
    | .file _ _ data => !data.isEmpty
    | .directory _ | .program _ => true
    | _ => false
  | "-u" => holds (·.mode &&& 0o4000 != 0)
  | "-g" => holds (·.mode &&& 0o2000 != 0)
  | "-k" => holds (·.mode &&& 0o1000 != 0)
  | "-h" | "-L" => match t.lstat cwd path with
    | .ok (.link _) => true
    | _ => false
  | _ => false

/-- The number that an operand has to be. -/
def number (s : String) : Except Flaw Int :=
  match Text.integer? false s.toList with
  | some n => .ok n
  | none => .error (.noNumber s)

/-- Whether one file was made after another. -/
def isNewer (t : Tree) (cwd : Place) (a b : String) : Bool :=
  match t.stat cwd (Octets.toText a), t.stat cwd (Octets.toText b) with
  | .ok m, .ok n => match m.serial?, n.serial? with
    | some x, some y => decide (y < x)
    | _, _ => false
  | _, _ => false

/-- A test of two operands. -/
def binary (t : Tree) (cwd : Place) (a sign b : String) : Except Flaw Bool :=
  let compare (p : Int → Int → Bool) : Except Flaw Bool := do
    return p (← number a) (← number b)
  match sign with
  | "=" => .ok (a = b)
  | "!=" => .ok (a != b)
  | "<" => .ok (a < b)
  | ">" => .ok (b < a)
  | "-eq" => compare (· == ·)
  | "-ne" => compare (· != ·)
  | "-lt" => compare fun x y => x < y
  | "-le" => compare fun x y => x ≤ y
  | "-gt" => compare fun x y => y < x
  | "-ge" => compare fun x y => y ≤ x
  | "-nt" => .ok (isNewer t cwd a b)
  | "-ot" => .ok (isNewer t cwd b a)
  | _ => match t.resolve cwd (Octets.toText a), t.resolve cwd (Octets.toText b) with
    | .ok p, .ok q => match t.get? p, t.get? q with
      | some m, some n => .ok (p = q || (m.serial?.isSome && m.serial? = n.serial?))
      | _, _ => .ok false
    | _, _ => .ok false

section

variable (t : Tree) (cwd : Place)

mutual

/-- Conditions joined by `-o`.  With its value each condition gives the arguments from its last one
on. -/
def either : (fuel : Nat) → List String → Except Flaw (Bool × List String)
  | 0, args => .ok (false, args)
  | fuel + 1, args => do
    let (first, args) ← both fuel args
    if itemAt args.tail = .either then
      let (second, args) ← either fuel (args.drop 2)
      return (first || second, args)
    else return (first, args)

/-- Conditions joined by `-a`. -/
def both : (fuel : Nat) → List String → Except Flaw (Bool × List String)
  | 0, args => .ok (false, args)
  | fuel + 1, args => do
    let (first, args) ← negated fuel args
    if itemAt args.tail = .both then
      let (second, args) ← both fuel (args.drop 2)
      return (first && second, args)
    else return (first, args)

/-- A condition behind any number of negations. -/
def negated : (fuel : Nat) → List String → Except Flaw (Bool × List String)
  | 0, args => .ok (false, args)
  | fuel + 1, args =>
    if itemAt args = .negation then
      if args.tail.isEmpty then .ok (true, args)
      else do
        let (value, args) ← negated fuel args.tail
        return (!value, args)
    else single fuel (itemAt args) args

/-- One condition, whose first argument is taken as said. -/
def single : (fuel : Nat) → Item → List String → Except Flaw (Bool × List String)
  | 0, _, args => .ok (false, args)
  | _ + 1, .finish, args => .ok (false, args)
  | fuel + 1, .opening, args => do
    let args := args.tail
    if itemAt args = .closing then return (false, args)
    else
      let (value, args) ← either fuel args
      if itemAt args.tail = .closing then return (value, args.tail)
      else throw .unclosed
  | _ + 1, .unary, args =>
    match args with
    | sign :: operand :: rest => do
      -- No descriptor belongs to a terminal, but it has to be a number.
      if sign = "-t" then
        let _ ← number operand
      return (unary t cwd sign operand, operand :: rest)
    | _ => .error (.noOperand (args.headD ""))
  | _ + 1, _, args =>
    if itemAt args.tail = .binary then
      match args with
      | a :: sign :: b :: rest => do return (← binary t cwd a sign b, b :: rest)
      | _ => .error (.noOperand (args.tail.headD ""))
    else .ok (!(args.headD "").isEmpty, args)

end

/-- The value of arguments; nothing may be left behind the condition. -/
def whole (first : Option Item) (args : List String) : Except Flaw Bool := do
  let fuel := 4 * args.length + 8
  let (value, left) ← match first with
    | some item => do
      -- The first argument is an operand whatever it looks like.
      let (value, args) ← single t cwd fuel item args
      pure (value, args)
    | none => either t cwd fuel args
  match left with
  | last :: _ :: _ =>
    throw (.leftOver last)
  | _ => return value

end

/-- The value of the arguments of `test`.  Three arguments with a sign of two operands between the
others are that test; of four and otherwise of three, a negation or brackets around all are taken
first. -/
def value (t : Tree) (cwd : Place) : List String → Except Flaw Bool
  | [] => .ok false
  | [a, b, c] =>
    if itemOf b = .binary then whole t cwd (some .operand) [a, b, c]
    else if a = "(" && c = ")" then whole t cwd none [b]
    else if a = "!" then do return !(← value t cwd [b, c])
    else whole t cwd none [a, b, c]
  | [a, b, c, d] =>
    if a = "(" && d = ")" then whole t cwd none [b, c]
    else if a = "!" then do return !(← value t cwd [b, c, d])
    else whole t cwd none [a, b, c, d]
  | args => whole t cwd none args

end LangBundle.Shell.Condition
