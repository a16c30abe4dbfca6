import LangBundle.Text.Integer

/-!
# Amounts

How many lines or bytes are meant: a number, perhaps with a letter behind it that multiplies it.
-/

namespace LangBundle.Utility

open Text

/-- The power by which a letter multiplies. -/
def powerOf? : Char → Option Nat
  | 'k' | 'K' => some 1
  | 'm' | 'M' => some 2
  | 'g' | 'G' => some 3
  | 't' | 'T' => some 4
  | 'P' => some 5
  | 'E' => some 6
  | 'Z' => some 7
  | 'Y' => some 8
  | 'R' => some 9
  | 'Q' => some 10
  | _ => none

/-- The number by which the letters behind a number multiply it. -/
def unit? : List Char → Option Nat
  | [] => some 1
  | ['b'] => some 512
  | [c] => (powerOf? c).map (Nat.pow 1024)
  | [c, 'B'] => (powerOf? c).map (Nat.pow 1000)
  | [c, 'i', 'B'] => (powerOf? c).map (Nat.pow 1024)
  | _ => none

/-- The amount that a text writes.  A letter alone stands for itself once. -/
def amount? (cs : List Char) : Option Nat :=
  let cs := cs.dropWhile isGap
  let cs := if cs.head? = some '+' then cs.tail else cs
  match digits 10 0 cs with
  | (n, rest) =>
    if cs.isEmpty then none
    else if rest.length = cs.length then unit? rest
    else (unit? rest).map (n * ·)

/-- The greatest amount that is told apart from others. -/
def greatestAmount : Nat := 0xFFFFFFFFFFFFFFFF

end LangBundle.Utility
