import LangBundle.Process.World
import LangBundle.Text.Classes

/-!
# The order of versions

Names with numbers in them are compared part by part: digits by the number that they write, and all
else byte by byte, where the end comes before letters, letters before other signs, and a tilde before
everything.  Extensions of names count only where names are equal without them.
-/

namespace LangBundle.Utility.Version

open Process

/-- Whether a byte is a digit. -/
def isDigit (b : UInt8) : Bool :=
  0x30 ≤ b && b ≤ 0x39

/-- Whether a byte is a letter. -/
def isLetter (b : UInt8) : Bool :=
  (0x41 ≤ b && b ≤ 0x5A) || (0x61 ≤ b && b ≤ 0x7A)

/-- The rank of a byte among the signs between numbers. -/
def rank (b : UInt8) : Int :=
  if isDigit b then 0
  else if isLetter b then b.toNat
  else if b = 0x7E then -2
  else b.toNat + 256

/-- The rank of the end. -/
def endRank : Int := -1

/-- What is behind equal signs that stand in front of numbers; the result if they are not equal. -/
def compareSigns : Bytes → Bytes → Except Int (Bytes × Bytes)
  | [], [] => .ok ([], [])
  | [], b :: y => if isDigit b then .ok ([], b :: y) else .error (endRank - rank b)
  | a :: x, [] => if isDigit a then .ok (a :: x, []) else .error (rank a - endRank)
  | a :: x, b :: y =>
    if isDigit a && isDigit b then .ok (a :: x, b :: y)
    else if rank a = rank b then compareSigns x y
    else .error (rank a - rank b)

/-- Compares numbers that digits write. -/
def compareDigits (a b : Bytes) : Int :=
  let value (digits : Bytes) : Int :=
    digits.foldl (fun n d => 10 * n + ((d.toNat : Int) - 0x30)) 0
  value a - value b

/-- Compares names part by part. -/
def compareParts : (fuel : Nat) → Bytes → Bytes → Int
  | 0, _, _ => 0
  | fuel + 1, a, b =>
    if a.isEmpty && b.isEmpty then 0
    else match compareSigns a b with
      | .error result => result
      | .ok (a, b) =>
        let result := compareDigits (a.takeWhile isDigit) (b.takeWhile isDigit)
        if result = 0 then compareParts fuel (a.dropWhile isDigit) (b.dropWhile isDigit)
        else result

/-- Whether a text is a row of extensions: points, each with a letter or a tilde behind it and then
letters, digits and tildes.  `inside` says that an extension has begun. -/
def isExtensions : (inside : Bool) → Bytes → Bool
  | _, [] => true
  | _, 0x2E :: b :: rest => (isLetter b || b == 0x7E) && isExtensions true rest
  | inside, b :: rest =>
    inside && (isLetter b || isDigit b || b == 0x7E) && isExtensions true rest

/-- A name without its extensions, of which at least the first byte is left. -/
def withoutExtensions : Bytes → Bytes
  | [] => []
  | b :: rest => b :: if isExtensions false rest then [] else withoutExtensions rest

/-- The rank of names that begin with a point, and of the empty one; they come first. -/
def special : Bytes → Nat
  | [] => 0
  | [0x2E] => 1
  | [0x2E, 0x2E] => 2
  | 0x2E :: _ => 3
  | _ => 4

/-- Compares two names. -/
def compare (a b : Bytes) : Int :=
  let first := (special a : Int) - special b
  let parts (a b : Bytes) : Int := compareParts (a.length + b.length + 1) a b
  if first ≠ 0 then first
  else
    let result := parts (withoutExtensions a) (withoutExtensions b)
    if result = 0 then parts a b else result

end LangBundle.Utility.Version
