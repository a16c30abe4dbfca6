/-!
# Classes of characters

The control characters and the white space of Unicode, and the operations on texts that look at one
class only: trimming, splitting at a separator, and decimal numbers.
-/

namespace LangBundle.Text

/-- The control characters: the general category Cc. -/
def isControl (c : Char) : Bool :=
  c.toNat < 0x20 || (0x7F ≤ c.toNat && c.toNat ≤ 0x9F)

/-- The characters with the property White_Space. -/
def isBlank (c : Char) : Bool :=
  let n := c.toNat
  (0x09 ≤ n && n ≤ 0x0D) || n == 0x20 || n == 0x85 || n == 0xA0 || n == 0x1680 ||
    (0x2000 ≤ n && n ≤ 0x200A) || n == 0x2028 || n == 0x2029 || n == 0x202F || n == 0x205F ||
    n == 0x3000

/-- Letters and digits of ASCII. -/
def isAsciiAlphanumeric (c : Char) : Bool :=
  ('a' ≤ c && c ≤ 'z') || ('A' ≤ c && c ≤ 'Z') || ('0' ≤ c && c ≤ '9')

/-- A text without the white space at its two ends. -/
def trim (cs : List Char) : List Char :=
  ((cs.dropWhile isBlank).reverse.dropWhile isBlank).reverse

/-- The pieces of a row between the elements that divide it; one more than there are of these. -/
def piecesAt {α : Type} (divides : α → Bool) (row : List α) : List (List α) :=
  row.foldr (fun a ps =>
    if divides a then [] :: ps
    else match ps with
      | [] => [[a]]
      | p :: rest => (a :: p) :: rest) [[]]

theorem length_piecesAt {α : Type} (divides : α → Bool) (row : List α) :
    (piecesAt divides row).length = row.countP divides + 1 := by
  induction row with
  | nil => rfl
  | cons a row ih =>
    simp only [piecesAt, List.foldr_cons] at ih ⊢
    by_cases h : divides a
    · simp [h, ih]
    · simp only [h, Bool.false_eq_true, if_false, not_false_eq_true, List.countP_cons_of_neg]
      split
      · next hp => rw [hp] at ih; simp at ih
      · next p rest hp => rw [hp] at ih; simpa using ih

/-- The pieces of a string between separators. -/
def split (sep : Char) (s : String) : List String :=
  (piecesAt (· == sep) s.toList).map String.ofList

/-- The value of a decimal digit. -/
def digit? (c : Char) : Option Nat :=
  if '0' ≤ c && c ≤ '9' then some (c.toNat - '0'.toNat) else none

/-- The number that a non-empty row of decimal digits writes. -/
def decimal? (cs : List Char) : Option Nat :=
  if cs.isEmpty then none
  else cs.foldl (fun n c => do pure ((← n) * 10 + (← digit? c))) (some 0)

end LangBundle.Text
