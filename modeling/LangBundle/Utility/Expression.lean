import LangBundle.Text.Integer
import LangBundle.Utility.Options
import LangBundle.Utility.PatternReading

/-!
# Expressions in arguments

`expr` takes each operand and each operator as an argument of its own and prints the value, an
integer or a text.
-/

namespace LangBundle.Utility

open Process Text

namespace Expression

/-- The integer that a text writes, without anything around it. -/
def integer? (text : String) : Option Int :=
  match text.toList with
  | '-' :: cs => (decimal? cs).map fun n => -(n : Int)
  | cs => (decimal? cs).map Int.ofNat

/-- Whether a value is neither zero nor empty. -/
def isTrue (text : String) : Bool :=
  !text.isEmpty && integer? text != some 0

/-- The text of a truth value. -/
def ofBool (b : Bool) : String :=
  if b then "1" else "0"

/-- The longer of two matches. -/
def longer (a b : Cursor) : Cursor :=
  if a.position < b.position then b else a

/-- Matches a text from its beginning: gives the text of the first group, or the length of the
match if there is no group. -/
def matching (text pattern : String) : Except String String := do
  let r ← LinePattern.read false pattern
  let found := match r.pattern.ends { line := text.toList.toArray } [{ position := 0 }] with
    | [] => none
    | c :: cs => some (cs.foldl longer c)
  match found with
  | none => return if r.groups = 0 then "0" else ""
  | some c =>
    if r.groups = 0 then return toString c.position
    else match c.groups.lookup 1 with
      | some (first, last) => return String.ofList ((text.toList.drop first).take (last - first))
      | none => return ""

/-- The value of an operator between two values. -/
def operator (sign a b : String) : Except String String :=
  let calculate (f : Int → Int → Except String Int) : Except String String :=
    match integer? a, integer? b with
    | some x, some y => (f x y).map toString
    | _, _ => .error "non-integer argument"
  let divide (f : Int → Int → Int) : Except String String :=
    calculate fun x y => if y = 0 then .error "division by zero" else .ok (f x y)
  let compare (holds : Ordering → Bool) : Except String String :=
    .ok (ofBool (holds (match integer? a, integer? b with
      | some x, some y => Ord.compare x y
      | _, _ => Ord.compare a b)))
  match sign with
  | "|" => .ok (if isTrue a then a else if isTrue b then b else "0")
  | "&" => .ok (if isTrue a && isTrue b then a else "0")
  | "<" => compare (· == .lt)
  | "<=" => compare (· != .gt)
  | "=" | "==" => compare (· == .eq)
  | "!=" => compare (· != .eq)
  | ">" => compare (· == .gt)
  | ">=" => compare (· != .lt)
  | "+" => calculate fun x y => .ok (x + y)
  | "-" => calculate fun x y => .ok (x - y)
  | "*" => calculate fun x y => .ok (x * y)
  | "/" => divide Int.tdiv
  | "%" => divide Int.tmod
  | _ => matching a b

/-- The operators, the weakest first. -/
def levels : List (List String) :=
  [["|"], ["&"], ["<", "<=", "=", "==", "!=", ">=", ">"], ["+", "-"], ["*", "/", "%"], [":"]]

/-- The part of a text from a position on. -/
def part (text position length : String) : String :=
  match integer? position, integer? length with
  | some p, some n =>
    if p ≤ 0 || n ≤ 0 then ""
    else String.ofList ((text.toList.drop (p.toNat - 1)).take n.toNat)
  | _, _ => ""

/-- The first position of one of some characters. -/
def position (text characters : String) : Nat :=
  match text.toList.findIdx? fun c => characters.toList.contains c with
  | some i => i + 1
  | none => 0

mutual

/-- An operand, and the arguments behind it.  `last` is the argument in front. -/
def single : (fuel : Nat) → (last : String) → List String → Except String (String × List String)
  | 0, _, args => .ok ("", args)
  | fuel + 1, last, args => do
    let behind := fun (last : String) (args : List String) => level fuel [] last args
    match args with
    | [] => throw ("syntax error: missing argument after " ++ quoted last)
    | "(" :: rest =>
      let (value, rest) ← level fuel levels "(" rest
      match rest with
      | ")" :: rest => return (value, rest)
      | [] => throw ("syntax error: expecting ')' after " ++ quoted (args.getLast?.getD ""))
      | other :: _ => throw ("syntax error: expecting ')' instead of " ++ quoted other)
    | "+" :: a :: rest => return (a, rest)
    | "length" :: rest =>
      let (value, rest) ← behind "length" rest
      return (toString value.length, rest)
    | "match" :: rest =>
      let (text, rest) ← behind "match" rest
      let (pattern, rest) ← behind text rest
      return (← matching text pattern, rest)
    | "index" :: rest =>
      let (text, rest) ← behind "index" rest
      let (characters, rest) ← behind text rest
      return (toString (position text characters), rest)
    | "substr" :: rest =>
      let (text, rest) ← behind "substr" rest
      let (first, rest) ← behind text rest
      let (length, rest) ← behind first rest
      return (part text first length, rest)
    | ")" :: _ => throw "syntax error: unexpected ')'"
    | a :: rest => return (a, rest)

/-- Operands joined by operators of some levels. -/
def level : (fuel : Nat) → List (List String) → (last : String) → List String →
    Except String (String × List String)
  | 0, _, _, args => .ok ("", args)
  | fuel + 1, [], last, args => single fuel last args
  | fuel + 1, signs :: stronger, last, args => do
    let (value, rest) ← level fuel stronger last args
    chain fuel signs stronger value rest

/-- What stands behind a value of a level. -/
def chain : (fuel : Nat) → (signs : List String) → List (List String) → (value : String) →
    List String → Except String (String × List String)
  | 0, _, _, value, args => .ok (value, args)
  | fuel + 1, signs, stronger, value, args =>
    match args with
    | sign :: rest =>
      if signs.contains sign then do
        let (second, rest) ← level fuel stronger sign rest
        chain fuel signs stronger (← operator sign value second) rest
      else .ok (value, args)
    | [] => .ok (value, [])

end

/-- The value of arguments. -/
def value (args : List String) : Except String String := do
  let (value, rest) ← level (16 * args.length + 16) levels "" args
  match rest with
  | [] => return value
  | other :: _ => throw ("syntax error: unexpected argument " ++ quoted other)

end Expression

/-- Prints the value of an expression. -/
def expr : Program := fun s name args =>
  let args := if args.head? = some "--" then args.tail else args
  if args.isEmpty then misused s name "missing operand" 2
  else match Expression.value args with
    | .error text => complain s name text (exit 2)
    | .ok value => finishText s name (value ++ "\n") (if Expression.isTrue value then 0 else 1)

end LangBundle.Utility
