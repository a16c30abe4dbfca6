/-!
# Identifiers of workspaces

An identifier is 32 hexadecimal digits, written in groups of 8, 4, 4, 4 and 12.
-/

namespace LangBundle

/-- A 128-bit identifier, its first digit first. -/
structure Uuid where
  digits : Vector (Fin 16) 32
  deriving DecidableEq

namespace Uuid

/-- The hexadecimal digit of a value. -/
def hexDigit (d : Fin 16) : Char :=
  if d.val < 10 then Char.ofNat ('0'.toNat + d.val) else Char.ofNat ('a'.toNat + (d.val - 10))

/-- The written form of an identifier. -/
def text (u : Uuid) : String :=
  let ds := u.digits.toList.map hexDigit
  String.ofList (ds.take 8 ++ '-' :: (ds.drop 8).take 4 ++ '-' :: (ds.drop 12).take 4 ++
    '-' :: (ds.drop 16).take 4 ++ '-' :: ds.drop 20)

/-- The random identifier that a number of 122 bits gives: all digits are free but the version,
which is 4, and two bits of the variant. -/
def ofBits (bits : Nat) : Uuid where
  digits := Vector.ofFn fun i =>
    if i.val = 12 then 4
    else if i.val = 16 then Fin.ofNat 16 (8 + bits / Nat.pow 16 15 % 4)
    else Fin.ofNat 16 (bits / Nat.pow 16 (31 - i.val))

/-- The version that an identifier says it has. -/
def version (u : Uuid) : Nat :=
  u.digits[12].val

end Uuid

end LangBundle
