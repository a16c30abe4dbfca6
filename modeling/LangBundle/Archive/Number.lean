import LangBundle.Text.Utf8

/-!
# Numbers and check sums in archives

Numbers are written with their lowest byte first.  The check sum is the CRC-32 of ISO-HDLC.
-/

namespace LangBundle.Archive

/-- A number as `width` bytes, the lowest first. -/
def number : (width : Nat) → Nat → Bytes
  | 0, _ => []
  | width + 1, n => (n % 256).toUInt8 :: number width (n / 256)

/-- The number that bytes write, the lowest first. -/
def value : Bytes → Nat
  | [] => 0
  | b :: rest => b.toNat + 256 * value rest

@[simp] theorem length_number (width n : Nat) : (number width n).length = width := by
  induction width generalizing n with
  | zero => rfl
  | succ width ih => simp [number, ih]

theorem value_number {width n : Nat} (h : n < Nat.pow 256 width) : value (number width n) = n := by
  induction width generalizing n with
  | zero => simp_all [number, value]
  | succ width ih =>
    have hn : n / 256 < Nat.pow 256 width := by
      rw [Nat.div_lt_iff_lt_mul (by decide)]
      exact h
    simp only [number, value, ih hn, Nat.toUInt8_eq, UInt8.toNat_ofNat']
    omega

/-- One bit of the check sum. -/
def checksumBit (c : UInt32) : UInt32 :=
  if c &&& 1 = 1 then (c >>> 1) ^^^ 0xEDB88320 else c >>> 1

/-- One byte of the check sum. -/
def checksumByte (c : UInt32) (b : UInt8) : UInt32 :=
  let c := c ^^^ b.toUInt32
  checksumBit (checksumBit (checksumBit (checksumBit
    (checksumBit (checksumBit (checksumBit (checksumBit c)))))))

/-- The check sum of data. -/
def checksum (data : Bytes) : Nat :=
  ((data.foldl checksumByte 0xFFFFFFFF) ^^^ 0xFFFFFFFF).toNat

end LangBundle.Archive
