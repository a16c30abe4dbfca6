import LangBundle.Text.Integer

/-!
# Numbers with a point

Reading the longest number at the beginning of a text into a double, and writing a double with a
number of places.  What is written is the exact value of the double, rounded to that many places, a
half to the even neighbour.
-/

namespace LangBundle.Text

/-- The value of a double. -/
inductive Floating where
  /-- `mantissa * 2 ^ exponent`. -/
  | finite (negative : Bool) (mantissa : Nat) (exponent : Int)
  | infinite (negative : Bool)
  | undefined (negative : Bool)
  deriving Repr, DecidableEq

namespace Floating

/-- Whether a sign stands in front. -/
def isNegative : Floating → Bool
  | finite negative _ _ | infinite negative | undefined negative => negative

/-- The value of a double. -/
def ofFloat (negative : Bool) (f : Float) : Floating :=
  let bits := f.toBits.toNat
  let exponent : Nat := (bits >>> 52) % 2048
  let fraction : Nat := bits % (1 <<< 52)
  if exponent = 2047 then if fraction = 0 then infinite negative else undefined negative
  else if exponent = 0 then finite negative fraction (-1074)
  else finite negative ((1 <<< 52) + fraction) ((exponent : Int) - 1075)

/-- The double that is nearest to `n * 10 ^ e`. -/
def ofDecimal (negative : Bool) (n : Nat) (e : Int) : Floating :=
  let size : Int := (toString n).length + e
  if n = 0 || size < -400 then finite negative 0 0
  else if 400 < size then infinite negative
  else ofFloat negative (Float.ofScientific n (decide (e < 0)) e.natAbs)

/-- The double that is nearest to `n * 2 ^ e`. -/
def ofBinary (negative : Bool) (n : Nat) (e : Int) : Floating :=
  ofFloat negative ((Float.ofNat n).scaleB e)

/-- Digits of a base with at most one point among them: the number without the point, how many
digits stand behind it, whether there are any, and the rest. -/
def places (base : Nat) (cs : List Char) : Nat × Nat × Bool × List Char :=
  let (whole, rest) := digits base 0 cs
  match rest with
  | '.' :: behind =>
    let (value, left) := digits base whole behind
    let count := behind.length - left.length
    if rest.length = cs.length && count = 0 then (0, 0, false, cs)
    else (value, count, true, left)
  | _ => (whole, 0, decide (rest.length < cs.length), rest)

/-- An exponent behind one of two letters, and the rest. -/
def exponent (small capital : Char) (cs : List Char) : Int × List Char :=
  match cs with
  | c :: rest =>
    if c = small || c = capital then
      let (sign, ds) : Int × List Char := match rest with
        | '-' :: ds => (-1, ds)
        | '+' :: ds => (1, ds)
        | ds => (1, ds)
      match leadingNatural? false ds with
      | some (n, left) => (sign * n, left)
      | none => (0, cs)
    else (0, cs)
  | [] => (0, [])

/-- Whether a text begins with a word in small or capital letters; the rest. -/
def afterWord? (word : String) (cs : List Char) : Option (List Char) :=
  if (cs.take word.length).map Char.toLower = word.toList then some (cs.drop word.length) else none

/-- The number at the beginning of a text, and the rest. -/
def leading? (cs : List Char) : Option (Floating × List Char) :=
  let cs := cs.dropWhile isGap
  let (negative, cs) := match cs with
    | '-' :: rest => (true, rest)
    | '+' :: rest => (false, rest)
    | _ => (false, cs)
  let decimal : Option (Floating × List Char) :=
    match places 10 cs with
    | (n, count, true, rest) =>
      let (e, rest) := exponent 'e' 'E' rest
      some (ofDecimal negative n (e - count), rest)
    | _ => none
  match afterWord? "infinity" cs, afterWord? "inf" cs, afterWord? "nan" cs, afterWord? "0x" cs with
  | some rest, _, _, _ | _, some rest, _, _ => some (infinite negative, rest)
  | _, _, some rest, _ => some (undefined negative, rest)
  | _, _, _, some hexadecimal =>
    match places 16 hexadecimal with
    | (n, count, true, rest) =>
      let (e, rest) := exponent 'p' 'P' rest
      some (ofBinary negative n (e - 4 * count), rest)
    | _ => decimal
  | _, _, _, none => decimal

/-! ## Writing -/

/-- The quotient of two numbers, rounded; a half goes to the even neighbour. -/
def roundedQuotient (n d : Nat) : Nat :=
  let q := n / d
  let r := n % d
  if 2 * r < d then q else if d < 2 * r then q + 1 else q + q % 2

/-- `mantissa * 2 ^ exponent` as a quotient. -/
def quotient (mantissa : Nat) (exponent : Int) : Nat × Nat :=
  if 0 ≤ exponent then (mantissa <<< exponent.toNat, 1) else (mantissa, 1 <<< exponent.natAbs)

/-- The quotient times a power of ten, rounded. -/
def scaled (n d : Nat) (power : Int) : Nat :=
  if 0 ≤ power then roundedQuotient (n * Nat.pow 10 power.toNat) d
  else roundedQuotient n (d * Nat.pow 10 power.natAbs)

/-- Digits with a point in front of the last `count` of them. -/
def pointed (alternative : Bool) (count n : Nat) : List Char :=
  let ds := Nat.toDigits 10 n
  let ds := List.replicate (count + 1 - ds.length) '0' ++ ds
  let whole := ds.take (ds.length - count)
  if count = 0 && !alternative then whole else whole ++ '.' :: ds.drop (ds.length - count)

/-- The power of ten of the first digit. -/
def magnitude (n d : Nat) : Int :=
  if n = 0 then 0
  else if d ≤ n then ((Nat.toDigits 10 (n / d)).length : Int) - 1
  else
    let k := (Nat.toDigits 10 (d / n)).length
    if d ≤ n * Nat.pow 10 (k - 1) then -((k : Int) - 1) else -(k : Int)

/-- The exponent as it is written. -/
def exponentText (letter : Char) (e : Int) : List Char :=
  let ds := Nat.toDigits 10 e.natAbs
  letter :: (if e < 0 then '-' else '+') :: List.replicate (2 - ds.length) '0' ++ ds

/-- The digits and the exponent of a quotient with `count` places. -/
def scientificParts (count n d : Nat) : Nat × Int :=
  let e := magnitude n d
  let ds := scaled n d (count - e)
  if Nat.pow 10 (count + 1) ≤ ds then (ds / 10, e + 1) else (ds, e)

/-- Without the zeros behind a point, and without a point that nothing is behind. -/
def withoutZeros (cs : List Char) : List Char :=
  if cs.contains '.' then
    match cs.reverse.dropWhile (· == '0') with
    | '.' :: rest => rest.reverse
    | rest => rest.reverse
  else cs

/-- A quotient without an exponent. -/
def positional (alternative : Bool) (count n d : Nat) : List Char :=
  pointed alternative count (scaled n d count)

/-- A quotient with an exponent. -/
def scientific (alternative strip : Bool) (letter : Char) (count n d : Nat) : List Char :=
  let (ds, e) := scientificParts count n d
  let mantissa := pointed alternative count ds
  (if strip then withoutZeros mantissa else mantissa) ++ exponentText letter e

/-- A quotient with a number of digits, with an exponent only if it is far from one. -/
def shortest (alternative : Bool) (letter : Char) (count n d : Nat) : List Char :=
  let count := max 1 count
  let (_, e) := scientificParts (count - 1) n d
  if -4 ≤ e && e < count then
    let cs := positional alternative ((count : Int) - 1 - e).toNat n d
    if alternative then cs else withoutZeros cs
  else scientific alternative (!alternative) letter (count - 1) n d

/-- The hexadecimal form. -/
def hexadecimal (mantissa : Nat) (exponent : Int) : List Char :=
  if mantissa = 0 then "0x0p+0".toList
  else
    let ds := Nat.toDigits 16 (mantissa % (1 <<< 52))
    let ds := List.replicate (13 - ds.length) '0' ++ ds
    let ds := (ds.reverse.dropWhile (· == '0')).reverse
    let e := exponent + 52
    "0x1".toList ++ (if ds.isEmpty then [] else '.' :: ds) ++
      'p' :: (if e < 0 then '-' else '+') :: Nat.toDigits 10 e.natAbs

/-- A number without its sign, as the letter of a format asks for. -/
def text (letter : Char) (alternative : Bool) (precision : Option Nat) : Floating → List Char
  | infinite _ => "inf".toList
  | undefined _ => "nan".toList
  | finite _ mantissa e =>
    let (n, d) := quotient mantissa e
    let count := precision.getD 6
    match letter with
    | 'f' => positional alternative count n d
    | 'e' => scientific alternative false 'e' count n d
    | 'g' => shortest alternative 'e' count n d
    | _ => hexadecimal mantissa e

end Floating

end LangBundle.Text
