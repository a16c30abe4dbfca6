import LangBundle.Utility.Condition
import LangBundle.Shell.Printing
import LangBundle.Utility.Account
import LangBundle.Utility.Amount

/-!
# Programs that work on their arguments alone
-/

namespace LangBundle.Utility

open Files (Fault)
open Process Text
open Shell (Printing.Conversion)

/-! ## Printing arguments -/

/-- The byte that stands behind a backslash, and the text behind it; nothing if printing ends. -/
def echoEscape (cs : List Char) : Option (List Char × List Char) :=
  let octal (most : Nat) (cs : List Char) : List Char × List Char :=
    let (n, rest) := Shell.Printing.octalNumber most 0 cs
    ([Char.ofNat (n % 256)], rest)
  match cs with
  | 'c' :: _ => none
  | '0' :: rest => some (octal 3 rest)
  | 'x' :: rest =>
    let ds := (rest.take 2).takeWhile fun c => (digitOf? 16 c).isSome
    if ds.isEmpty then some (['\x5c'], cs)
    else some ([Char.ofNat (digits 16 0 ds).1], rest.drop ds.length)
  | c :: rest =>
    if (digitOf? 8 c).isSome then some (octal 3 cs)
    else match Shell.Printing.escape? c with
      | some b => some ([b], rest)
      | none => some (['\x5c', c], rest)
  | [] => some (['\x5c'], [])

/-- A text with its escapes replaced, and whether it ended printing. -/
def echoUnescape : (fuel : Nat) → List Char → List Char × Bool
  | 0, _ | _ + 1, [] => ([], false)
  | fuel + 1, '\x5c' :: rest =>
    match echoEscape rest with
    | none => ([], true)
    | some (cs, rest) =>
      let (more, ended) := echoUnescape fuel rest
      (cs ++ more, ended)
  | fuel + 1, c :: rest =>
    let (more, ended) := echoUnescape fuel rest
    (c :: more, ended)

/-- Prints its arguments. -/
def echo : Program := fun s name args =>
  let isOption (a : String) : Bool := match a.toList with
    | '-' :: c :: cs => (c :: cs).all fun c => ['n', 'e', 'E'].contains c
    | _ => false
  let options := (args.takeWhile isOption).flatMap fun a => a.toList.drop 1
  let text := " ".intercalate (args.dropWhile isOption)
  let escapes := (options.filter (· != 'n')).getLast? = some 'e'
  let (cs, ended) := if escapes then echoUnescape (text.length + 1) text.toList
    else (text.toList, false)
  finishText s name (String.ofList cs ++ if ended || options.contains 'n' then "" else "\n") 0

/-- What is said about a flaw of an argument or a format. -/
def printfMessage : Shell.Printing.Flaw → String
  | .noNumber arg => quoted arg ++ ": expected a numeric value"
  | .leftOver arg => quoted arg ++ ": value not completely converted"
  | .tooLarge arg => quoted arg ++ ": Numerical result out of range"
  | .noLetter text | .noDirective text => text ++ ": invalid conversion specification"

/-- Prints arguments by a format. -/
def printf : Program := fun s name args =>
  let args := if args.head? = some "--" then args.tail else args
  match args with
  | [] => missing s name "operand"
  | format :: args =>
    let faulty (flaw : Shell.Printing.Flaw) : Bool := match flaw with
      | .noNumber arg => !arg.isEmpty
      | _ => true
    let printed := Shell.Printing.printf format args
    let faults := printed.faults.filter faulty
    let unused := if printed.stopped then none
      else if (Shell.Printing.pass (format.length + 1) {} format.toList args).2.length = args.length
      then args.head?
      else none
    let last : Behaviour :=
      finishText s name (String.ofList printed.text) (if faults.isEmpty then 0 else 1)
    let warned := match unused with
      | some arg => complain s name
          ("warning: ignoring excess arguments, starting with " ++ quoted arg) last
      | none => last
    faults.foldr (fun flaw next => complain s name (printfMessage flaw) next) warned

/-- Ends with the value of a condition. -/
def test : Program := fun s name args =>
  .look fun w => match Condition.value w.tree s.cwd args with
    | .ok b => exit (if b then 0 else 1)
    | .error flaw => complain s name (flaw.message (args.getLast?.getD "")) (exit 2)

/-- Ends with the value of a condition in brackets. -/
def bracket : Program := fun s name args =>
  if args.getLast? = some "]" then test s name args.dropLast
  else complain s name "missing ']'" (exit 2)

/-- Prints variables that the program was started with. -/
def printenv : Program := fun s name args =>
  withArguments s name 2 [⟨'0', "null", .no⟩] args (fun a =>
    let ending := if a.has '0' then "\x00" else "\n"
    if a.operands.isEmpty then
      finishText s name (String.join (s.environment.map fun (n, v) => n ++ "=" ++ v ++ ending)) 0
    else
      let values := a.operands.map s.environmentValue
      finishText s name (String.join (values.filterMap fun v => v.map (· ++ ending)))
        (if values.all (·.isSome) then 0 else 1)) isOperand

/-! ## Time -/

/-- The microseconds of a time in seconds, minutes, hours or days; nothing within if it is without
end. -/
def duration? (text : String) : Option (Option Nat) :=
  match Floating.leading? text.toList with
  | none => none
  | some (f, rest) =>
    let unit : Option Nat := match rest with
      | [] | ['s'] => some 1
      | ['m'] => some 60
      | ['h'] => some 3600
      | ['d'] => some 86400
      | _ => none
    match unit, f with
    | some unit, .finite false mantissa e =>
      let (n, d) := Floating.quotient mantissa e
      some (some ((n * unit * 1000000 + d - 1) / d))
    | some _, .infinite false => some none
    | _, _ => none

/-- Waits. -/
def sleep : Program := fun s name args =>
  withArguments s name 1 [] args fun a =>
    let times := a.operands.map duration?
    let wrong := (a.operands.zip times).filterMap fun (text, t) =>
      if t.isNone then some ("invalid time interval " ++ quoted text) else none
    if args.isEmpty then missing s name "operand"
    else match wrong.getLast? with
      | some last => wrong.dropLast.foldr (fun text next => complain s name text next)
          (misused s name last 1)
      | none =>
        if times.contains (some none) then .hang
        else .sleep ((times.filterMap fun t => t.bind id).foldl (· + ·) 0) (exit 0)

/-! ## Rows of numbers -/

/-- A decimal number: its digits without the point, and how many of them stand behind it. -/
structure Decimal where
  value : Int
  places : Nat
  deriving Repr, DecidableEq

namespace Decimal

/-- Reads a number. -/
def ofText? (text : String) : Option Decimal :=
  let cs := text.toList.dropWhile isGap
  let (sign, cs) : Int × List Char := match cs with
    | '-' :: cs => (-1, cs)
    | '+' :: cs => (1, cs)
    | cs => (1, cs)
  match Floating.places 10 cs with
  | (n, places, true, rest) =>
    let (e, rest) := Floating.exponent 'e' 'E' rest
    if !rest.isEmpty then none
    else
      let behind := (places : Int) - e
      if 0 ≤ behind then some ⟨sign * n, behind.toNat⟩
      else some ⟨sign * n * Int.pow 10 behind.natAbs, 0⟩
  | _ => none

/-- The digits of the number with more places. -/
def scaled (d : Decimal) (places : Nat) : Int :=
  d.value * Int.pow 10 (places - d.places)

/-- The text of a number. -/
def text (value : Int) (places : Nat) : String :=
  (if value < 0 then "-" else "") ++ String.ofList (Floating.pointed false places value.natAbs)

/-- A number with zeros up to a width. -/
def padded (width : Nat) (text : String) : String :=
  let zeros (cs : List Char) (width : Nat) : List Char :=
    List.replicate (width - cs.length) '0' ++ cs
  match text.toList with
  | '-' :: cs => String.ofList ('-' :: zeros cs (width - 1))
  | cs => String.ofList (zeros cs width)

end Decimal

/-- How the numbers of a row are printed. -/
structure RowFormat where
  places : Nat
  width : Nat := 0
  before : List Char := []
  conversion : Option Printing.Conversion := none
  after : List Char := []

/-- The text of a number. -/
def RowFormat.text (f : RowFormat) (value : Int) : String :=
  match f.conversion with
  | none => Decimal.padded f.width (Decimal.text value f.places)
  | some c => String.ofList (f.before ++
      c.floating (.ofDecimal (value < 0) value.natAbs (-(f.places : Int))) ++ f.after)

/-- The text before a percent sign, and what is behind it; two of them stand for one. -/
def upToDirective : (fuel : Nat) → List Char → List Char × Option (List Char)
  | 0, cs => (cs, none)
  | _ + 1, [] => ([], none)
  | fuel + 1, '%' :: '%' :: rest =>
    let (before, found) := upToDirective fuel rest
    ('%' :: before, found)
  | _ + 1, '%' :: rest => ([], some rest)
  | fuel + 1, c :: rest =>
    let (before, found) := upToDirective fuel rest
    (c :: before, found)

/-- Reads a format with one directive. -/
def rowFormat (places : Nat) (format : String) : Except String RowFormat :=
  let fuel := format.length + 1
  match upToDirective fuel format.toList with
  | (_, none) => .error ("format " ++ quoted format ++ " has no % directive")
  | (before, some cs) =>
    let flags := cs.takeWhile fun c => ['-', '+', ' ', '#', '0', '\x27'].contains c
    let (width, rest) := digits 10 0 (cs.drop flags.length)
    let (precision, rest) : Option Nat × List Char := match rest with
      | '.' :: rest =>
        let (n, rest) := digits 10 0 rest
        (some n, rest)
      | rest => (none, rest)
    match rest with
    | [] => .error ("format " ++ quoted format ++ " ends in %")
    | letter :: rest =>
      if !(['a', 'A', 'e', 'E', 'f', 'F', 'g', 'G'].contains letter) then
        .error ("format " ++ quoted format ++ " has unknown %" ++ letter.toString ++ " directive")
      else match upToDirective fuel rest with
        | (_, some _) => .error ("format " ++ quoted format ++ " has too many % directives")
        | (after, none) =>
          .ok { places, before, after, conversion := some { flags, width, precision, letter } }

/-- Prints the numbers from one on. -/
def printRow (p : Printer) (f : RowFormat) (separator : String) (step last : Int) :
    (count : Nat) → (first : Bool) → (value : Int) → Buffer → Behaviour
  | 0, _, _, b => p.finish b 0
  | count + 1, first, value, b =>
    if (if 0 ≤ step then last < value else value < last) then
      if first then p.finish b 0
      else p.print [newline] b fun b => p.finish b 0
    else p.print (bytes ((if first then "" else separator) ++ f.text value)) b
      (printRow p f separator step last count false (value + step))

/-- Prints the numbers of a row. -/
def seq : Program := fun s name args =>
  let p : Printer := { setting := s, name }
  -- A negative number is no option.
  let isNumber (a : String) : Bool := match a.toList with
    | '-' :: c :: _ => c == '.' || (digit? c).isSome
    | _ => false
  let choices : List Choice :=
    [⟨'f', "format", .yes⟩, ⟨'s', "separator", .yes⟩, ⟨'w', "equal-width", .no⟩]
  withArguments s name 1 choices args (fun a =>
    let wrong (text : String) : Behaviour :=
      misused s name ("invalid floating point argument: " ++ quoted text) 1
    match a.operands with
    | [] => missing s name "operand"
    | _ :: _ :: _ :: extra :: _ => misused s name ("extra operand " ++ quoted extra) 1
    | operands =>
      match operands.find? fun o => (Decimal.ofText? o).isNone with
      | some text => wrong text
      | none =>
        let numbers := operands.filterMap Decimal.ofText?
        let one : Decimal := ⟨1, 0⟩
        let (first, step, last) := match numbers with
          | [first, step, last] => (first, step, last)
          | [first, last] => (first, one, last)
          | numbers => (one, one, numbers.headD one)
        if step.value = 0 then
          misused s name ("invalid Zero increment value: " ++ quoted (operands.getD 1 "")) 1
        else
          let places := max first.places step.places
          let all := max places last.places
          let width := if a.has 'w' then
              max (Decimal.text (first.scaled all / Int.pow 10 (all - places)) places).length
                (Decimal.text (last.scaled all / Int.pow 10 (all - places)) places).length
            else 0
          let format := match a.value? 'f' with
            | some text => rowFormat all text
            | none => .ok { places, width }
          match format with
          | .error text => complain s name text (exit 1)
          | .ok format =>
            let scale : Int := if format.conversion.isSome then 1 else Int.pow 10 (all - places)
            let limit := if 0 ≤ step.value then last.scaled all / scale
              else -((-(last.scaled all)) / scale)
            printRow p format ((a.value? 's').getD "\n") (step.scaled all / scale) limit
              endlessPieces true (first.scaled all / scale) {})
    fun a => isNumber a || isOperand a

end LangBundle.Utility
