import LangBundle.Archive.Number

/-!
# Data as deflate blocks

The data of an entry is a row of stored blocks: each says whether it is the last one, how long it
is, the complement of that, and then the data as it is.
-/

namespace LangBundle.Archive

/-- The most data that one block holds. -/
def maxBlock : Nat := 65535

/-- One block. -/
def block (last : Bool) (data : Bytes) : Bytes :=
  (if last then 1 else 0) :: number 2 data.length ++ number 2 (maxBlock - data.length) ++ data

/-- Data as blocks, of which there is always a last one; the blocks written so far stand in front,
the newest first. -/
def blocksAfter (before : List Bytes) (data : Bytes) : List Bytes :=
  if data.length ≤ maxBlock then (block true data :: before).reverse
  else blocksAfter (block false (data.take maxBlock) :: before) (data.drop maxBlock)
termination_by data.length
decreasing_by simp [maxBlock] at *; omega

/-- Data as blocks. -/
def deflate (data : Bytes) : Bytes :=
  (blocksAfter [] data).flatten

/-- Reads blocks up to the last one; the data read so far stands in front, the newest first. -/
def inflateAfter? : (fuel : Nat) → (before : List Bytes) → Bytes → Option (Bytes × Bytes)
  | 0, _, _ => none
  | fuel + 1, before, bytes =>
    match bytes with
    | kind :: l₀ :: l₁ :: m₀ :: m₁ :: rest =>
      let length := value [l₀, l₁]
      if value [m₀, m₁] + length ≠ maxBlock ∨ rest.length < length then none
      else if kind = 1 then
        some ((rest.take length :: before).reverse.flatten, rest.drop length)
      else if kind = 0 then inflateAfter? fuel (rest.take length :: before) (rest.drop length)
      else none
    | _ => none

/-- Reads blocks up to the last one: the data and the bytes behind. -/
def inflate? (bytes : Bytes) : Option (Bytes × Bytes) :=
  inflateAfter? (bytes.length + 1) [] bytes

end LangBundle.Archive
