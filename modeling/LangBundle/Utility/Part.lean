import LangBundle.Utility.Amount
import LangBundle.Utility.Stream

/-!
# Beginnings and ends of inputs

`head` reads no more than it needs and gives back what it read too much, where that can be done;
`tail` reads everything.
-/

namespace LangBundle.Utility

open Files (Fault)
open Process

/-- How much of each input is printed. -/
structure Portion where
  ofBytes : Bool := false
  /-- Whether the amount is counted from the other end. -/
  turned : Bool := false
  amount : Nat := 10
  /-- The byte that ends a line. -/
  ending : UInt8 := newline

/-- When the inputs' names are printed. -/
inductive Naming where
  | ifSeveral
  | never
  | always
  deriving Repr, DecidableEq

/-- The name under which an input is shown. -/
def titleOf (operand : String) : String :=
  if operand = "-" then "standard input" else operand

/-- What is printed in front of an input: its name. -/
def heading (first : Bool) (operand : String) : Bytes :=
  bytes ((if first then "" else "\n") ++ "==> " ++ titleOf operand ++ " <==\n")

/-- Prints parts of inputs, one after the other. -/
def printParts (p : Printer) (naming : Naming)
    (part : Option Stream → Buffer → (Except Fault Unit → Buffer → Behaviour) → Behaviour)
    (operands : List String) : Behaviour :=
  let operands := orInput operands
  let named := naming = .always || naming = .ifSeveral && 1 < operands.length
  let one (operand : String) (state : Nat × Bool × Buffer)
      (k : Nat × Bool × Buffer → Behaviour) : Behaviour :=
    let (code, first, b) := state
    openInput p.setting operand fun
      | .error fault =>
        p.complain b ("cannot open " ++ quoted operand ++ " for reading: " ++ fault.description)
          fun b => k (1, first, b)
      | .ok stream =>
        p.print (if named then heading first operand else []) b fun b => part stream b fun
          | .ok () => fun b => k (code, false, b)
          | .error fault => fun b =>
            p.complain b ("error reading " ++ quoted (titleOf operand) ++ ": " ++ fault.description)
              fun b => k (1, false, b)
  forEach one operands (0, true, {}) fun (code, _, b) =>
    let closed := operands.contains "-" && (p.setting.stream? 0).isNone
    if closed then p.complain b ("-: " ++ Fault.badDescriptor.description) fun b => p.finish b 1
    else p.finish b code

/-! ## Beginnings -/

/-- How many bytes are read at once. -/
def headSize : Nat := 8192

/-- How many of the bytes that were read belong to the first `amount` lines, and how many lines are
missing. -/
def leadingLines (ending : UInt8) : (amount : Nat) → Bytes → Nat × Nat
  | 0, _ => (0, 0)
  | amount, [] => (0, amount)
  | amount + 1, b :: rest =>
    let (used, left) := leadingLines ending (if b = ending then amount else amount + 1) rest
    (used + 1, left)

/-- Prints the first bytes or lines of an input. -/
def printLeading (p : Printer) (portion : Portion) (stream : Option Stream)
    (k : Except Fault Unit → Buffer → Behaviour) :
    (pieces : Nat) → (amount : Nat) → Buffer → Behaviour
  | 0, _, b => k (.ok ()) b
  | _ + 1, 0, b => k (.ok ()) b
  | pieces + 1, amount, b =>
    let most := if portion.ofBytes then min amount headSize else headSize
    readStream stream (fun _ => false) (List.take most) fun
      | .error fault => k (.error fault) b
      | .ok [] => k (.ok ()) b
      | .ok data =>
        let (used, left) := if portion.ofBytes then (data.length, amount - data.length)
          else leadingLines portion.ending amount data
        p.print (data.take used) b fun b => match stream with
          | some (.file number) => .act (·.rewind number (data.length - used)) fun _ =>
            printLeading p portion stream k pieces left b
          | _ => printLeading p portion stream k pieces left b

/-- Prints the beginning of an input. -/
def printBeginning (p : Printer) (portion : Portion) (stream : Option Stream) (b : Buffer)
    (k : Except Fault Unit → Buffer → Behaviour) : Behaviour :=
  if portion.turned then readAll stream fun
    | .error fault => k (.error fault) b
    | .ok data =>
      let shown := if portion.ofBytes then data.take (data.length - portion.amount)
        else
          let lines := endedLines data portion.ending
          (lines.take (lines.length - portion.amount)).flatten
      p.print shown b (k (.ok ()))
  else printLeading p portion stream k endlessPieces portion.amount b

/-- Whether a character is a decimal digit. -/
def isDigit (c : Char) : Bool :=
  (Text.digit? c).isSome

/-- Reads an amount; what is said if it is none. -/
def amountOf (ofBytes : Bool) (text : List Char) : Except String Nat :=
  let wrong := "invalid number of " ++ (if ofBytes then "bytes" else "lines") ++ ": " ++
    quoted (String.ofList text)
  match amount? text with
  | some n =>
    if n ≤ greatestAmount then .ok n
    else .error (wrong ++ ": Value too large for defined data type")
  | none => .error wrong

/-- How the inputs are named as the last option for that says. -/
def namingOf (a : Arguments) (base : Naming) : Naming :=
  match a.last? ['q', 'v'] with
  | some 'q' => .never
  | some _ => .always
  | none => base

/-- The portion that a number and letters behind a dash ask for, and how inputs are named; or the
letter that means nothing. -/
def shortPortion (digits letters : List Char) : Except Char (Portion × Naming) :=
  let n := (Text.decimal? digits).getD 0
  letters.foldlM (fun (portion, naming) c =>
    let ofBytes (factor : Nat) : Portion := { portion with ofBytes := true, amount := n * factor }
    match c with
    | 'c' => .ok (ofBytes 1, naming)
    | 'b' => .ok (ofBytes 512, naming)
    | 'k' => .ok (ofBytes 1024, naming)
    | 'm' => .ok (ofBytes (1024 * 1024), naming)
    | 'l' => .ok ({ portion with ofBytes := false, amount := n }, naming)
    | 'q' => .ok (portion, .never)
    | 'v' => .ok (portion, .always)
    | 'z' => .ok ({ portion with ending := 0 }, naming)
    | c => .error c) (({ amount := n } : Portion), Naming.ifSeveral)

/-- The options of `head` and `tail`. -/
def partChoices : List Choice :=
  [⟨'c', "bytes", .yes⟩, ⟨'n', "lines", .yes⟩, ⟨'q', "quiet", .no⟩, ⟨'q', "silent", .no⟩,
    ⟨'v', "verbose", .no⟩, ⟨'z', "zero-terminated", .no⟩] ++
    ['0', '1', '2', '3', '4', '5', '6', '7', '8', '9'].map fun c => ⟨c, "", .no⟩

/-- The portion that options ask for; `turn` is the sign for counting from the other end. -/
def portionOf (a : Arguments) (turn : Char) (base : Portion) : Except String Portion := do
  let read (portion : Portion) (option : Char × String) : Except String Portion := do
    let (letter, value) := option
    if letter = 'c' || letter = 'n' then
      let ofBytes := letter = 'c'
      match value.toList with
      | '-' :: cs =>
        return { portion with ofBytes, turned := turn = '-', amount := (← amountOf ofBytes cs) }
      | cs =>
        return { portion with
          ofBytes, turned := turn = '+' && cs.head? = some '+', amount := (← amountOf ofBytes cs) }
    else if letter = 'z' then return { portion with ending := 0 }
    else return portion
  a.options.foldlM read base

/-- Prints the beginnings of inputs. -/
def head : Program := fun s name args =>
  let p : Printer := { setting := s, name }
  let run (base : Portion) (naming : Naming) (args : List String) : Behaviour :=
    withArguments s name 1 partChoices args fun a =>
      match a.options.find? (isDigit ·.1) with
      | some (c, _) => misused s name ("invalid trailing option -- " ++ c.toString) 1
      | none => match portionOf a '-' base with
        | .error text => complain s name text (exit 1)
        | .ok portion => printParts p (namingOf a naming) (printBeginning p portion) a.operands
  match args with
  | first :: rest =>
    match first.toList with
    | '-' :: d :: cs =>
      if isDigit d then
        match shortPortion ((d :: cs).takeWhile isDigit) (cs.dropWhile isDigit) with
        | .ok (portion, naming) => run portion naming rest
        | .error c => misused s name ("invalid trailing option -- " ++ c.toString) 1
      else run {} .ifSeveral args
    | _ => run {} .ifSeveral args
  | [] => run {} .ifSeveral args

/-! ## Ends -/

/-- The end of an input. -/
def ending (portion : Portion) (data : Bytes) : Bytes :=
  let n := portion.amount
  if portion.ofBytes then
    if portion.turned then data.drop (n - 1) else data.drop (data.length - n)
  else
    let lines := endedLines data portion.ending
    (if portion.turned then lines.drop (n - 1) else lines.drop (lines.length - n)).flatten

/-- Prints the end of an input. -/
def printEnd (p : Printer) (portion : Portion) (stream : Option Stream) (b : Buffer)
    (k : Except Fault Unit → Buffer → Behaviour) : Behaviour :=
  if portion.amount = 0 && !portion.turned then k (.ok ()) b
  else readAll stream fun
    | .error fault => k (.error fault) b
    | .ok data => p.print (ending portion data) b (k (.ok ()))

/-- The portion that one argument in the short form asks for. -/
def shortEnd? (text : String) : Option Portion := do
  let (sign, cs) ← match text.toList with
    | '+' :: cs => some ('+', cs)
    | '-' :: cs => some ('-', cs)
    | _ => none
  let digits := cs.takeWhile isDigit
  let rest := cs.dropWhile isDigit
  let n := (Text.decimal? digits).getD 10
  if sign = '-' && digits.isEmpty && rest != ['b'] && rest != ['l'] then none
  let turned := sign = '+'
  match rest with
  | [] => if digits.isEmpty then none else some { turned, amount := n }
  | ['l'] => some { turned, amount := n }
  | ['c'] => some { turned, amount := n, ofBytes := true }
  | ['b'] => some { turned, amount := n * 512, ofBytes := true }
  | _ => none

/-- Prints the ends of inputs. -/
def tail : Program := fun s name args =>
  let p : Printer := { setting := s, name }
  let run (base : Portion) (args : List String) : Behaviour :=
    withArguments s name 1 partChoices args fun a =>
      match a.options.find? (isDigit ·.1) with
      | some (c, _) =>
        complain s name ("option used in invalid context -- " ++ c.toString) (exit 1)
      | none => match portionOf a '+' base with
        | .error text => complain s name text (exit 1)
        | .ok portion => printParts p (namingOf a .ifSeveral) (printEnd p portion) a.operands
  let short (first : String) (rest : List String) : Behaviour :=
    match shortEnd? first with
    | some portion => run portion rest
    | none => run {} args
  match args with
  | [first] => short first []
  | [first, second] =>
    if second.startsWith "-" && second != "-" && second != "--" then run {} args
    else short first [second]
  | [first, "--", third] => short first ["--", third]
  | _ => run {} args

end LangBundle.Utility
