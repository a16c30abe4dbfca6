import LangBundle.Text.Utf8

/-!
# Texts of bytes

Programs take texts as rows of bytes.  Here such a row is a string in which every character stands
for one byte; a text of ASCII characters is the same either way.
-/

namespace LangBundle.Octets

/-- The string in which every character stands for a byte. -/
def ofBytes (bytes : Bytes) : String :=
  String.ofList (bytes.map fun b => Char.ofNat b.toNat)

/-- The bytes that the characters of a string stand for. -/
def toBytes (s : String) : Bytes :=
  s.toList.map fun c => c.toNat.toUInt8

/-- A text as a string of bytes. -/
def ofText (s : String) : String :=
  ofBytes (Utf8.ofString s)

/-- The text that a string of bytes is. -/
def toText (s : String) : String :=
  Utf8.decodeLossy (toBytes s)

theorem toBytes_ofBytes (bytes : Bytes) : toBytes (ofBytes bytes) = bytes := by
  have h (b : UInt8) : (Char.ofNat b.toNat).toNat.toUInt8 = b := by
    have hb : b.toNat < 256 := b.toNat_lt
    have hv : b.toNat.isValidChar := Or.inl (by omega)
    rw [Char.ofNat, dif_pos hv]
    exact UInt8.ofNat_toNat
  simp only [toBytes, ofBytes, String.toList_ofList, List.map_map]
  conv => rhs; rw [← List.map_id bytes]
  exact List.map_congr_left fun b _ => h b

end LangBundle.Octets
