import LangBundle.Text.Floating
import LangBundle.Utility.Stream
import LangBundle.Utility.Version

/-!
# Orders of lines

Lines are compared by keys.  A key is a part of a line, given by the fields and bytes where it
begins and ends, and a way of comparing; where all keys are equal, whole lines are compared byte by
byte.
-/

namespace LangBundle.Utility

open Process Text

/-- How keys are compared. -/
inductive Comparison where
  | text
  | number
  /-- Numbers with a letter behind them that multiplies. -/
  | size
  /-- The beginnings of months' names. -/
  | month
  /-- Numbers in every form, also with an exponent. -/
  | general
  | version
  deriving Repr, DecidableEq

/-- The ways of comparing that letters ask for. -/
structure KeyOrder where
  letters : List Char := []
  deriving Repr, DecidableEq

namespace KeyOrder

/-- Whether a letter was given. -/
def has (o : KeyOrder) (c : Char) : Bool :=
  o.letters.contains c

/-- Whether nothing is asked for. -/
def isPlain (o : KeyOrder) : Bool :=
  o.letters.all (· == 's')

/-- How keys are compared. -/
def comparison (o : KeyOrder) : Comparison :=
  if o.has 'n' then .number
  else if o.has 'g' then .general
  else if o.has 'h' then .size
  else if o.has 'M' then .month
  else if o.has 'V' then .version
  else .text

/-- The letters that cannot stand together, if there are such. -/
def conflict? (o : KeyOrder) : Option String :=
  let kinds := ['n', 'g', 'h', 'M'].filter o.has
  let others : List Char := if o.has 'V' || o.has 'R' || o.has 'd' || o.has 'i' then ['x'] else []
  if 1 < (kinds ++ others).length then
    some (String.ofList (['d', 'f', 'g', 'h', 'i', 'M', 'n', 'R', 'V'].filter o.has))
  else none

end KeyOrder

/-- The part of a line that is compared. -/
structure SortKey where
  firstField : Nat := 0
  firstByte : Nat := 0
  /-- Whether blanks are left out before the first byte is counted. -/
  skipsFirst : Bool := false
  /-- The last field and how many of its bytes belong to the key; all if there are none. -/
  last : Option (Nat × Nat) := none
  skipsLast : Bool := false
  ordering : KeyOrder := {}
  deriving Repr, DecidableEq

/-- Whether a byte is a blank between fields. -/
def isFieldGap (b : UInt8) : Bool :=
  b == 0x20 || b == 0x09 || b == newline

/-- What is behind some fields. -/
def afterFields (tab : Option UInt8) : Nat → Bytes → Bytes
  | 0, line => line
  | n + 1, line =>
    match tab with
    | some tab => afterFields (some tab) n ((line.dropWhile (· != tab)).drop 1)
    | none => afterFields none n ((line.dropWhile isFieldGap).dropWhile (!isFieldGap ·))

namespace SortKey

/-- What is left of a line where a key begins. -/
def beginning (k : SortKey) (tab : Option UInt8) (line : Bytes) : Bytes :=
  let rest := afterFields tab k.firstField line
  (if k.skipsFirst then rest.dropWhile isFieldGap else rest).drop k.firstByte

/-- What is left of a line where a key ends. -/
def rest (k : SortKey) (tab : Option UInt8) (line : Bytes) : Bytes :=
  match k.last with
  | none => []
  | some (field, 0) =>
    match tab with
    | some tab => (afterFields (some tab) field line).dropWhile (· != tab)
    | none => afterFields none (field + 1) line
  | some (field, count) =>
    let rest := afterFields tab field line
    (if k.skipsLast then rest.dropWhile isFieldGap else rest).drop count

/-- The part of a line that a key is. -/
def part (k : SortKey) (tab : Option UInt8) (line : Bytes) : Bytes :=
  let first := k.beginning tab line
  first.take (first.length - (k.rest tab line).length)

end SortKey

/-! ## Comparing -/

/-- Compares rows of bytes. -/
def compareBytes : Bytes → Bytes → Int
  | [], [] => 0
  | [], _ :: _ => -1
  | _ :: _, [] => 1
  | a :: x, b :: y => if a < b then -1 else if b < a then 1 else compareBytes x y

/-- A number at the beginning of a text: its digits without a point, and how many stand behind it.
What is left comes last. -/
def keyNumber (part : Bytes) : Int × Nat × List Char :=
  let cs := (part.dropWhile isFieldGap).map fun b => Char.ofNat b.toNat
  let (sign, cs) : Int × List Char := match cs with
    | '-' :: cs => (-1, cs)
    | cs => (1, cs)
  let (n, cs) := digits 10 0 cs
  match cs with
  | '.' :: behind =>
    let (m, left) := digits 10 n behind
    (sign * m, behind.length - left.length, left)
  | cs => (sign * n, 0, cs)

/-- Compares integers. -/
def compareIntegers (a b : Int) : Int :=
  if a < b then -1 else if b < a then 1 else 0

/-- Compares two numbers with digits behind a point. -/
def compareNumbers (a : Int) (m : Nat) (b : Int) (n : Nat) : Int :=
  compareIntegers (a * Int.pow 10 n) (b * Int.pow 10 m)

/-- Compares the numbers at the beginnings of texts.  A text without one comes first, and then what
is no number. -/
def compareGeneral (a b : Bytes) : Int :=
  let number (part : Bytes) : Option Floating :=
    (Floating.leading? (part.map fun b => Char.ofNat b.toNat)).map (·.1)
  let rank : Option Floating → Nat
    | none => 0
    | some (.undefined _) => 1
    | some (.infinite true) => 2
    | some (.finite ..) => 3
    | some (.infinite false) => 4
  match number a, number b with
  | some (.finite s m e), some (.finite t n f) =>
    let sign (negative : Bool) : Int := if negative then -1 else 1
    let least := min e f
    compareIntegers (sign s * m * Int.pow 2 (e - least).toNat)
      (sign t * n * Int.pow 2 (f - least).toNat)
  | x, y => compareIntegers (rank x) (rank y)

/-- The place of the month that a text begins with. -/
def monthOf (part : Bytes) : Nat :=
  let cs := ((part.dropWhile isFieldGap).take 3).map fun b => (Char.ofNat b.toNat).toUpper
  let months := ["JAN", "FEB", "MAR", "APR", "MAY", "JUN", "JUL", "AUG", "SEP", "OCT", "NOV", "DEC"]
  match months.findIdx? (·.toList == cs) with
  | some i => i + 1
  | none => 0

/-- The power that the letter behind a number stands for. -/
def sizeLetter (cs : List Char) : Nat :=
  match cs with
  | 'k' :: _ => 1
  | c :: _ =>
    match ['K', 'M', 'G', 'T', 'P', 'E', 'Z', 'Y', 'R', 'Q'].findIdx? (· == c) with
    | some i => i + 1
    | none => 0
  | [] => 0

/-- The bytes of a text that are compared. -/
def comparedBytes (o : KeyOrder) (part : Bytes) : Bytes :=
  let isAlnum (b : UInt8) : Bool := Text.isAsciiAlphanumeric (Char.ofNat b.toNat)
  let part := if o.has 'd' then part.filter fun b => isFieldGap b || isAlnum b
    else if o.has 'i' then part.filter fun b => 0x20 ≤ b && b < 0x7F
    else part
  if o.has 'f' then part.map fun b => if 0x61 ≤ b && b ≤ 0x7A then b - 0x20 else b else part

/-- Compares two keys. -/
def KeyOrder.compare (o : KeyOrder) (a b : Bytes) : Int :=
  let result : Int := match o.comparison with
    | .number =>
      let (x, m, _) := keyNumber a
      let (y, n, _) := keyNumber b
      compareNumbers x m y n
    | .size =>
      let (x, m, left) := keyNumber a
      let (y, n, right) := keyNumber b
      let order (z : Int) (cs : List Char) : Int := z.sign * ((sizeLetter cs : Int) + 1)
      let first := compareIntegers (order x left) (order y right)
      if first = 0 then compareNumbers x m y n else first
    | .month => compareIntegers (monthOf a) (monthOf b)
    | .general => compareGeneral a b
    | .version => Version.compare (comparedBytes o a) (comparedBytes o b)
    | .text => compareBytes (comparedBytes o a) (comparedBytes o b)
  if o.has 'r' then -result else result

/-- The order of whole lines. -/
structure LineOrder where
  keys : List SortKey := []
  base : KeyOrder := {}
  tab : Option UInt8 := none
  /-- Whether lines with equal keys count as equal. -/
  unique : Bool := false
  stable : Bool := false

namespace LineOrder

/-- Compares two lines. -/
def compare (o : LineOrder) (a b : Bytes) : Int :=
  let byKeys := o.keys.findSome? fun k =>
    let result := k.ordering.compare (k.part o.tab a) (k.part o.tab b)
    if result = 0 then none else some result
  match byKeys with
  | some result => result
  | none =>
    if !o.keys.isEmpty && (o.unique || o.stable) then 0
    else
      let result := compareBytes a b
      if o.base.has 'r' then -result else result

/-- The first of each row of equal lines. -/
def withoutEqual (o : LineOrder) : List Bytes → List Bytes
  | [] => []
  | line :: rest =>
    match withoutEqual o rest with
    | [] => [line]
    | next :: more => if o.compare line next = 0 then line :: more else line :: next :: more

/-- Lines in order. -/
def sorted (o : LineOrder) (lines : List Bytes) : List Bytes :=
  lines.mergeSort fun a b => o.compare a b ≤ 0

/-- Takes the least first line of several rows, the first of equal ones. -/
def least? (o : LineOrder) : List (List Bytes) → Option (Bytes × List (List Bytes))
  | [] => none
  | row :: rows =>
    match row, least? o rows with
    | [], found => found.map fun (line, rows) => (line, [] :: rows)
    | line :: more, none => some (line, more :: rows)
    | line :: more, some (other, left) =>
      if o.compare line other ≤ 0 then some (line, more :: rows)
      else some (other, (line :: more) :: left)

/-- Puts rows together, each in its order. -/
def merged (o : LineOrder) : (fuel : Nat) → List (List Bytes) → List Bytes
  | 0, _ => []
  | fuel + 1, rows =>
    match o.least? rows with
    | some (line, rows) => line :: merged o fuel rows
    | none => []

/-- The first line that is not behind the one before it, with its number. -/
def disorder? (o : LineOrder) (number : Nat) : List Bytes → Option (Nat × Bytes)
  | a :: b :: rest =>
    let result := o.compare a b
    if 0 < result || (o.unique && result = 0) then some (number + 1, b)
    else disorder? o (number + 1) (b :: rest)
  | _ => none

end LineOrder

end LangBundle.Utility
