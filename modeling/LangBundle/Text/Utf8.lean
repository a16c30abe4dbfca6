/-!
# Bytes and the UTF-8 form of text

`encode` writes characters as bytes and `scan` reads them back one sequence at a time.  Reading
never fails: a byte sequence that is no character is cut at its longest prefix that some character
could begin with, and that prefix counts as one item.  `decodeLossy` shows such an item as U+FFFD,
and `decode?` refuses the whole text.
-/

namespace LangBundle

/-- A sequence of bytes. -/
abbrev Bytes := List UInt8

namespace Utf8

/-- One character as one to four bytes. -/
def encodeChar (c : Char) : Bytes :=
  let n := c.toNat
  if n < 0x80 then [n.toUInt8]
  else if n < 0x800 then [(0xC0 + n / 64).toUInt8, (0x80 + n % 64).toUInt8]
  else if n < 0x10000 then
    [(0xE0 + n / 4096).toUInt8, (0x80 + n / 64 % 64).toUInt8, (0x80 + n % 64).toUInt8]
  else
    [(0xF0 + n / 262144).toUInt8, (0x80 + n / 4096 % 64).toUInt8, (0x80 + n / 64 % 64).toUInt8,
      (0x80 + n % 64).toUInt8]

/-- Characters as bytes, one after the other. -/
def encode (cs : List Char) : Bytes :=
  cs.flatMap encodeChar

/-- The bytes of a text. -/
def ofString (s : String) : Bytes :=
  encode s.toList

/-- What the first byte of a sequence longer than one byte says: the bits it carries, the range of
the second byte, and how many bytes follow. -/
structure Lead where
  value : Nat
  low : Nat
  high : Nat
  wanted : Nat

/-- The ranges of the second byte leave out overlong forms, surrogates and values past U+10FFFF. -/
def Lead.ofByte? (b : UInt8) : Option Lead :=
  let n := b.toNat
  if n < 0xC2 then none
  else if n < 0xE0 then some ⟨n - 0xC0, 0x80, 0xBF, 1⟩
  else if n = 0xE0 then some ⟨0, 0xA0, 0xBF, 2⟩
  else if n = 0xED then some ⟨13, 0x80, 0x9F, 2⟩
  else if n < 0xF0 then some ⟨n - 0xE0, 0x80, 0xBF, 2⟩
  else if n = 0xF0 then some ⟨0, 0x90, 0xBF, 3⟩
  else if n < 0xF4 then some ⟨n - 0xF0, 0x80, 0xBF, 3⟩
  else if n = 0xF4 then some ⟨4, 0x80, 0x8F, 3⟩
  else none

/-- Reads the bytes that must follow; gives the value, or nothing at the first byte out of range,
and the number of bytes that belonged to the sequence. -/
def readTail (value : Nat) : (wanted low high : Nat) → Bytes → Option Nat × Nat
  | 0, _, _, _ => (some value, 0)
  | _ + 1, _, _, [] => (none, 0)
  | wanted + 1, low, high, b :: rest =>
    if low ≤ b.toNat ∧ b.toNat ≤ high then
      let (r, n) := readTail (value * 64 + (b.toNat - 0x80)) wanted 0x80 0xBF rest
      (r, n + 1)
    else (none, 0)

/-- The item that begins with byte `b`: its character, or nothing if it is none, and how many of the
bytes after `b` belong to it. -/
def scanOne (b : UInt8) (rest : Bytes) : Option Char × Nat :=
  if b.toNat < 0x80 then (some (Char.ofNat b.toNat), 0)
  else match Lead.ofByte? b with
    | none => (none, 0)
    | some lead =>
      let (value, n) := readTail lead.value lead.wanted lead.low lead.high rest
      (value.map Char.ofNat, n)

/-- The items of a byte sequence, in front of which the items `before` were read (newest first). -/
def scanAfter (before : List (Option Char)) : Bytes → List (Option Char)
  | [] => before.reverse
  | b :: rest => scanAfter ((scanOne b rest).1 :: before) (rest.drop (scanOne b rest).2)
termination_by bytes => bytes.length
decreasing_by simp only [List.length_drop, List.length_cons]; omega

/-- The items of a byte sequence: characters, and `none` for each piece that is no character. -/
def scan (bytes : Bytes) : List (Option Char) :=
  scanAfter [] bytes

/-- The character that stands for a piece that is no character. -/
def replacement : Char := '\uFFFD'

/-- The text of a byte sequence, each piece that is no character shown as U+FFFD. -/
def decodeLossy (bytes : Bytes) : String :=
  String.ofList ((scan bytes).map (·.getD replacement))

/-- The text of a byte sequence that is all characters. -/
def decode? (bytes : Bytes) : Option String :=
  ((scan bytes).mapM id).map String.ofList

end Utf8

end LangBundle
