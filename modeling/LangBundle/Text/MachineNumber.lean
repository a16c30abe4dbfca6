import LangBundle.Text.Classes

/-!
# Numbers of a fixed size

Reading the decimal form of a number that has to fit into a machine word.  A sign may stand in
front, and a minus only where negative numbers exist.  The digits are read from the left, so of two
faults the one further left counts.
-/

namespace LangBundle.Text

/-- Why a text is no number of the wanted size. -/
inductive NumberFault where
  | empty
  | invalidDigit
  | tooLarge
  | tooSmall
  deriving Repr, DecidableEq

/-- What is said about a text that is no number. -/
def NumberFault.message : NumberFault → String
  | .empty => "cannot parse integer from empty string"
  | .invalidDigit => "invalid digit found in string"
  | .tooLarge => "number too large to fit in target type"
  | .tooSmall => "number too small to fit in target type"

/-- Reads digits onto a value that must not exceed `most`. -/
def digitsUpTo (most : Nat) (tooFar : NumberFault) (value : Nat) : List Char →
    Except NumberFault Nat
  | [] => .ok value
  | c :: rest =>
    match digit? c with
    | none => .error .invalidDigit
    | some d =>
      if most < value * 10 + d then .error tooFar else digitsUpTo most tooFar (value * 10 + d) rest

/-- The largest number of 64 bits. -/
def maxUnsigned : Nat := 0xFFFFFFFFFFFFFFFF

/-- The largest signed number of 64 bits. -/
def maxSigned : Nat := 0x7FFFFFFFFFFFFFFF

/-- Reads an unsigned number of 64 bits. -/
def unsigned (s : String) : Except NumberFault Nat :=
  match s.toList with
  | [] => .error .empty
  | ['+'] => .error .invalidDigit
  | '+' :: digits => digitsUpTo maxUnsigned .tooLarge 0 digits
  | digits => digitsUpTo maxUnsigned .tooLarge 0 digits

/-- Reads a signed number of 64 bits. -/
def signed (s : String) : Except NumberFault Int :=
  match s.toList with
  | [] => .error .empty
  | ['+'] | ['-'] => .error .invalidDigit
  | '-' :: digits => (digitsUpTo (maxSigned + 1) .tooSmall 0 digits).map fun n => -(n : Int)
  | '+' :: digits => (digitsUpTo maxSigned .tooLarge 0 digits).map fun n => (n : Int)
  | digits => (digitsUpTo maxSigned .tooLarge 0 digits).map fun n => (n : Int)

end LangBundle.Text
