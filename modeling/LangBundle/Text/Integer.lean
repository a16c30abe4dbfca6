import LangBundle.Text.Classes

/-!
# Integers as texts

An integer may have blanks and a sign in front of it, and its digits are decimal or of the base that
their beginning says: hexadecimal behind `0x`, binary behind `0b`, octal behind `0`.
-/

namespace LangBundle.Text

/-- The characters that stand in front of numbers and behind them. -/
def isGap (c : Char) : Bool :=
  c == ' ' || ('\t' ≤ c && c ≤ '\x0d')

/-- The value of a digit of a base of at most 16. -/
def digitOf? (base : Nat) (c : Char) : Option Nat :=
  let value := if 'a' ≤ c && c ≤ 'f' then some (c.toNat - 'a'.toNat + 10)
    else if 'A' ≤ c && c ≤ 'F' then some (c.toNat - 'A'.toNat + 10)
    else digit? c
  value.filter (· < base)

/-- The number that the digits at the beginning of a text write behind `value`, and the rest. -/
def digits (base value : Nat) : List Char → Nat × List Char
  | [] => (value, [])
  | c :: rest =>
    match digitOf? base c with
    | some d => digits base (value * base + d) rest
    | none => (value, c :: rest)

/-- The natural number at the beginning of a text, and the rest. -/
def leadingNatural? (anyBase : Bool) (cs : List Char) : Option (Nat × List Char) :=
  let decimal := if (cs.head?.bind (digitOf? 10)).isSome then some (digits 10 0 cs) else none
  if anyBase then
    match cs with
    | '0' :: x :: d :: rest =>
      if (x = 'x' || x = 'X') && (digitOf? 16 d).isSome then some (digits 16 0 (d :: rest))
      else if (x = 'b' || x = 'B') && (digitOf? 2 d).isSome then some (digits 2 0 (d :: rest))
      else some (digits 8 0 cs)
    | '0' :: _ => some (digits 8 0 cs)
    | _ => decimal
  else decimal

/-- The integer at the beginning of a text, and the rest. -/
def leadingInteger? (anyBase : Bool) (cs : List Char) : Option (Int × List Char) :=
  match cs.dropWhile isGap with
  | '-' :: rest => (leadingNatural? anyBase rest).map fun (n, rest) => (-(n : Int), rest)
  | '+' :: rest => (leadingNatural? anyBase rest).map fun (n, rest) => ((n : Int), rest)
  | cs => (leadingNatural? anyBase cs).map fun (n, rest) => ((n : Int), rest)

/-- The least and the greatest integer of 64 bits. -/
def leastInteger : Int := -0x8000000000000000

@[inherit_doc leastInteger] def greatestInteger : Int := 0x7FFFFFFFFFFFFFFF

/-- Whether an integer has 64 bits. -/
def isInRange (n : Int) : Bool :=
  leastInteger ≤ n && n ≤ greatestInteger

/-- The integer of 64 bits that is nearest. -/
def clamp (n : Int) : Int :=
  max leastInteger (min greatestInteger n)

/-- The integer of 64 bits that a text writes, blanks around it. -/
def integer? (anyBase : Bool) (cs : List Char) : Option Int :=
  match leadingInteger? anyBase cs with
  | some (n, rest) => if isInRange n && rest.all isGap then some n else none
  | none => none

end LangBundle.Text
