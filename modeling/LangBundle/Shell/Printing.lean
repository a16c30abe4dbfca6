import LangBundle.Text.Floating
import LangBundle.Text.Octets

/-!
# Printing by `echo` and `printf`

Both write bytes, and a backslash may write any byte in octal.  A format is used as often as needed
to print all arguments; those that are missing count as empty.
-/

namespace LangBundle.Shell.Printing

open Text

/-! ## Escapes -/

/-- The value of an octal digit. -/
def octal? (c : Char) : Option Nat :=
  digitOf? 8 c

/-- A number of at most `most` octal digits, and the text behind it. -/
def octalNumber : (most : Nat) → (value : Nat) → List Char → Nat × List Char
  | 0, value, cs => (value, cs)
  | _ + 1, value, [] => (value, [])
  | most + 1, value, c :: rest =>
    match octal? c with
    | some d => octalNumber most (value * 8 + d) rest
    | none => (value, c :: rest)

/-- The byte that a letter behind a backslash stands for. -/
def escape? : Char → Option Char
  | 'a' => some '\x07'
  | 'b' => some '\x08'
  | 'e' => some '\x1b'
  | 'f' => some '\x0c'
  | 'n' => some '\n'
  | 'r' => some '\r'
  | 't' => some '\t'
  | 'v' => some '\x0b'
  | '\x5c' => some '\x5c'
  | _ => none

/-- What stands behind a backslash: its byte and the text behind it. -/
def escaped (cs : List Char) : Char × List Char :=
  match cs with
  | [] => ('\x5c', [])
  | c :: rest =>
    match octal? c, escape? c with
    | some _, _ =>
      let (n, rest) := octalNumber 3 0 cs
      (Char.ofNat (n % 256), rest)
    | none, some b => (b, rest)
    | none, none => ('\x5c', cs)

/-- A text with its escapes replaced, as `echo` and `%b` do; the flag says that `\c` ended it. -/
def unescape : (fuel : Nat) → (acc : List Char) → List Char → List Char × Bool
  | 0, acc, _ | _ + 1, acc, [] => (acc.reverse, false)
  | _ + 1, acc, '\x5c' :: 'c' :: _ => (acc.reverse, true)
  | fuel + 1, acc, '\x5c' :: rest =>
    let rest := match rest with
      | '0' :: d :: more => if (octal? d).isSome then d :: more else rest
      | _ => rest
    let (c, rest) := escaped rest
    unescape fuel (c :: acc) rest
  | fuel + 1, acc, c :: rest => unescape fuel (c :: acc) rest

/-- The texts of `echo` with blanks between them, up to one that says so. -/
def echoed : List String → List Char × Bool
  | [] => ([], false)
  | a :: rest =>
    match unescape (a.length + 1) [] a.toList with
    | (cs, true) => (cs, true)
    | (cs, false) =>
      if rest.isEmpty then (cs, false)
      else
        let (more, stopped) := echoed rest
        (cs ++ ' ' :: more, stopped)

/-- What `echo` prints. -/
def echo (args : List String) : String :=
  let (args, newline) := match args with
    | "-n" :: args => (args, false)
    | _ => (args, true)
  let (cs, stopped) := echoed args
  String.ofList (if newline && !stopped then cs ++ ['\n'] else cs)

/-! ## Formats -/

/-- How one argument is printed. -/
structure Conversion where
  flags : List Char
  width : Int
  precision : Option Nat
  letter : Char

/-- What is wrong with an argument or with the format. -/
inductive Flaw where
  | noNumber (arg : String)
  | leftOver (arg : String)
  | tooLarge (arg : String)
  | noLetter (directive : String)
  | noDirective (directive : String)
  deriving Repr, DecidableEq

/-- What is said about a flaw. -/
def Flaw.message : Flaw → String
  | noNumber arg => arg ++ ": expected numeric value"
  | leftOver arg => arg ++ ": not completely converted"
  | tooLarge arg => arg ++ ": Numerical result out of range"
  | noLetter _ => "missing format character"
  | noDirective text => text ++ ": invalid directive"

/-- What was printed, and what is wrong with arguments. -/
structure Printed where
  text : List Char := []
  faults : List Flaw := []
  /-- Whether nothing more is printed. -/
  stopped : Bool := false
  code : Nat := 0
  deriving Repr, DecidableEq

namespace Printed

/-- What is printed by one step after another. -/
def append (a b : Printed) : Printed :=
  ⟨a.text ++ b.text, a.faults ++ b.faults, b.stopped, max a.code b.code⟩

instance : Append Printed := ⟨append⟩

end Printed

/-- What is wrong with an argument whose end is left over behind a number, or that is too large. -/
def numberFaults (arg : String) (rest : List Char) (isInRange : Bool) : List Flaw :=
  if !rest.isEmpty then [if rest.length = arg.length then .noNumber arg else .leftOver arg]
  else if isInRange then []
  else [.tooLarge arg]

/-- The code of the character behind a quote at the beginning of an argument. -/
def quotedCode? (arg : String) : Option Nat :=
  match arg.toList with
  | c :: rest =>
    if c = '\x27' || c = '\x22' then some (rest.headD '\x00').toNat else none
  | [] => none

/-- The integer that an argument writes, and what is wrong with it.  Without a sign, a negative
number stands for the one that has the same bits. -/
def argInteger (signed : Bool) (arg : String) : Int × List Flaw :=
  match quotedCode? arg with
  | some n => (n, [])
  | none =>
    let (n, rest) := (leadingInteger? true arg.toList).getD (0, arg.toList)
    if signed then (clamp n, numberFaults arg rest (isInRange n))
    else
      let fits := decide (n.natAbs < 0x10000000000000000)
      (if fits then n.emod 0x10000000000000000 else 0xFFFFFFFFFFFFFFFF, numberFaults arg rest fits)

/-- The number with a point that an argument writes, and what is wrong with it. -/
def argFloating (arg : String) : Floating × List Flaw :=
  match quotedCode? arg with
  | some n => (.ofDecimal false n 0, [])
  | none =>
    match Floating.leading? arg.toList with
    | some (f, rest) =>
      let written := arg.toList.any fun c => (digit? c).isSome
      let fits := match f with
        | .infinite _ => !written
        | _ => true
      (f, numberFaults arg rest fits)
    | none => (.finite false 0 0, numberFaults arg arg.toList true)

namespace Conversion

/-- Fills a text up to the width of its conversion. -/
def fill (c : Conversion) (cs : List Char) : List Char :=
  let gap := List.replicate (c.width.natAbs - cs.length) ' '
  if c.width < 0 || c.flags.contains '-' then cs ++ gap else gap ++ cs

/-- A number behind its sign, filled up to the width of its conversion, with zeros if these are
asked for. -/
def fillNumber (c : Conversion) (zeros : Bool) (sign digits : List Char) : List Char :=
  if zeros && c.flags.contains '0' && !c.flags.contains '-' && 0 ≤ c.width then
    sign ++ List.replicate (c.width.natAbs - sign.length - digits.length) '0' ++ digits
  else c.fill (sign ++ digits)

/-- The sign of a number. -/
def sign (c : Conversion) (negative : Bool) : List Char :=
  if negative then ['-']
  else if c.flags.contains '+' then ['+']
  else if c.flags.contains ' ' then [' ']
  else []

/-- Digits with as many zeros in front as a precision asks for; zero has none if it asks for none.
-/
def digits (c : Conversion) (base n : Nat) : List Char :=
  let ds := if n = 0 && c.precision = some 0 then [] else Nat.toDigits base n
  List.replicate (c.precision.getD 0 - ds.length) '0' ++ ds

/-- An integer with the mark of its base. -/
def natural (c : Conversion) (n : Nat) : List Char :=
  let marked := c.flags.contains '#'
  let zeros := c.precision.isNone
  match c.letter with
  | 'o' =>
    let ds := c.digits 8 n
    c.fillNumber zeros [] (if marked && ds.head? != some '0' then '0' :: ds else ds)
  | 'x' => c.fillNumber zeros (if marked && n != 0 then ['0', 'x'] else []) (c.digits 16 n)
  | 'X' => c.fillNumber zeros (if marked && n != 0 then ['0', 'X'] else [])
      ((c.digits 16 n).map Char.toUpper)
  | _ => c.fillNumber zeros [] (c.digits 10 n)

/-- A number with a point. -/
def floating (c : Conversion) (f : Floating) : List Char :=
  let zeros := match f with
    | .finite .. => true
    | _ => false
  let cs := f.text c.letter.toLower (c.flags.contains '#') c.precision
  let cs := if c.letter.isUpper then cs.map Char.toUpper else cs
  c.fillNumber zeros (c.sign f.isNegative) cs

/-- One argument printed. -/
def print (c : Conversion) (arg : Option String) : Printed :=
  let text := arg.getD ""
  let faulty (cs : List Char) (faults : List Flaw) : Printed :=
    { text := cs, faults, code := if faults.isEmpty then 0 else 1 }
  let cut (cs : List Char) : List Char := match c.precision with
    | some n => cs.take n
    | none => cs
  match c.letter with
  | 's' => { text := c.fill (cut text.toList) }
  | 'b' =>
    let (cs, stopped) := unescape (text.length + 1) [] text.toList
    { text := c.fill (cut cs), stopped }
  | 'c' => { text := c.fill [text.toList.headD '\x00'] }
  | 'd' | 'i' =>
    let (n, faults) := argInteger true text
    faulty (c.fillNumber c.precision.isNone (c.sign (n < 0)) (c.digits 10 n.natAbs)) faults
  | 'o' | 'u' | 'x' | 'X' =>
    let (n, faults) := argInteger false text
    faulty (c.natural n.toNat) faults
  | _ =>
    let (f, faults) := argFloating text
    faulty (c.floating f) faults

end Conversion

/-- What is read of a format before its letter: a number, perhaps an argument's, and the arguments
and the text behind it. -/
structure Measure where
  number : Option Int
  faults : List Flaw := []
  args : List String
  rest : List Char

/-- The number at the beginning of a text, or that of the first argument in place of a star. -/
def measure (args : List String) (cs : List Char) : Measure :=
  match cs with
  | '*' :: rest =>
    match args with
    | a :: args =>
      let (n, faults) := argInteger true a
      { number := some n, faults, args, rest }
    | [] => { number := some 0, args, rest }
  | _ =>
    let isMeasure (c : Char) : Bool := c == '*' || (digit? c).isSome
    { number := (decimal? (cs.takeWhile isMeasure)).map Int.ofNat, args
      rest := cs.dropWhile isMeasure }

/-- The letters of conversions. -/
def letters : List Char :=
  ['b', 'c', 's', 'd', 'i', 'o', 'u', 'x', 'X', 'a', 'A', 'e', 'E', 'f', 'F', 'g', 'G']

/-- Prints what stands behind a percent sign: what was printed, and the arguments and the format
that are left. -/
def directive (args : List String) (cs : List Char) : Printed × List String × List Char :=
  let isFlag (c : Char) : Bool := ['#', '-', '+', ' ', '0'].contains c
  let flags := cs.takeWhile isFlag
  let width := measure args (cs.dropWhile isFlag)
  let precision := match width.rest with
    | '.' :: rest =>
      let m := measure width.args rest
      { m with number := some (m.number.getD 0) }
    | rest => { number := none, args := width.args, rest }
  let faults := width.faults ++ precision.faults
  let stop (flaw : Flaw) : Printed × List String × List Char :=
    ({ faults := faults ++ [flaw], stopped := true, code := 2 }, [], [])
  let upTo (rest : List Char) : String :=
    String.ofList ('%' :: cs.take (cs.length - rest.length))
  match precision.rest with
  | [] => stop (.noLetter (upTo []))
  | letter :: rest =>
    if !letters.contains letter then stop (.noDirective (upTo rest))
    else
      let c : Conversion :=
        { flags, letter
          width := width.number.getD 0
          precision := match precision.number with
            | some n => if n < 0 then none else some n.toNat
            | none => none }
      let printed := c.print precision.args.head?
      ({ printed with
          faults := faults ++ printed.faults
          code := if faults.isEmpty then printed.code else 1 }, precision.args.tail, rest)

/-- One pass over the format: what it prints, and the arguments left. -/
def pass : (fuel : Nat) → Printed → List Char → List String → Printed × List String
  | 0, acc, _, args | _ + 1, acc, [], args => (acc, args)
  | fuel + 1, acc, '\x5c' :: rest, args =>
    let (c, rest) := escaped rest
    pass fuel (acc ++ { text := [c] }) rest args
  | fuel + 1, acc, '%' :: '%' :: rest, args => pass fuel (acc ++ { text := ['%'] }) rest args
  | fuel + 1, acc, '%' :: rest, args =>
    let (printed, args, rest) := directive args rest
    let acc := acc ++ printed
    if acc.stopped then (acc, args) else pass fuel acc rest args
  | fuel + 1, acc, c :: rest, args => pass fuel (acc ++ { text := [c] }) rest args

/-- Repeats the format while arguments are left and each pass uses some. -/
def passes : (fuel : Nat) → List Char → List String → Printed
  | 0, _, _ => {}
  | fuel + 1, format, args =>
    let (printed, left) := pass (format.length + 1) {} format args
    if printed.stopped || left.isEmpty || left.length = args.length then printed
    else printed ++ passes fuel format left

/-- What a format prints of arguments. -/
def printf (format : String) (args : List String) : Printed :=
  passes (args.length + 1) format.toList args

end LangBundle.Shell.Printing
