import LangBundle.Archive.Block

/-!
# Archives in the zip format

`write?` writes entries one after the other, each with a header in front, and a directory of them
behind; `read?` reads the entries back.  All entries have the same date and mode, so equal contents
give equal archives.
-/

namespace LangBundle.Archive

/-- An entry of an archive. -/
structure Entry where
  name : String
  data : Bytes
  deriving Repr, DecidableEq

/-- Why an entry cannot be written. -/
inductive EntryFault where
  | nameTooLong
  | dataTooLong
  deriving Repr, DecidableEq

/-- What is said about an entry that cannot be written. -/
def EntryFault.message : EntryFault → String
  | .nameTooLong => "invalid Zip archive: File name too long"
  | .dataTooLong => "Large file option has not been set"

/-- The mode of an entry's file. -/
def entryMode : Nat := 0o100644

/-- The date of every entry: the first day of 1980, in the format's own numbers. -/
def entryDate : Nat := 33

/-- The number of the deflate method. -/
def deflated : Nat := 8

/-- The version of the format that reading needs. -/
def version : Nat := 20

/-- The flag that a name is not plain ASCII. -/
def nameFlag (name : String) : Nat :=
  if name.toList.all (·.toNat < 0x80) then 0 else 0x800

/-- The mark of an entry's header. -/
def entryMark : Bytes := [0x50, 0x4B, 3, 4]

/-- The mark of an entry in the directory. -/
def directoryMark : Bytes := [0x50, 0x4B, 1, 2]

/-- The mark of the end of the directory. -/
def endMark : Bytes := [0x50, 0x4B, 5, 6]

/-- What the two headers of an entry share, `packed` being the length of its blocks. -/
def commonHeader (e : Entry) (packed : Nat) : Bytes :=
  number 2 version ++ number 2 (nameFlag e.name) ++ number 2 deflated ++ number 2 0 ++
    number 2 entryDate ++ number 4 (checksum e.data) ++ number 4 packed ++
    number 4 e.data.length ++ number 2 (Utf8.ofString e.name).length ++ number 2 0

/-- An entry with its header. -/
def entryRecord (e : Entry) : Bytes :=
  let packed := deflate e.data
  entryMark ++ commonHeader e packed.length ++ Utf8.ofString e.name ++ packed

/-- An entry in the directory, `offset` being where its record begins. -/
def directoryRecord (e : Entry) (packed offset : Nat) : Bytes :=
  directoryMark ++ number 2 (3 * 256 + version) ++ commonHeader e packed ++ number 2 0 ++
    number 2 0 ++ number 2 0 ++ number 4 (entryMode * 65536) ++ number 4 offset ++
    Utf8.ofString e.name

/-- Whether an entry fits into the format. -/
def Entry.fault? (e : Entry) : Option EntryFault :=
  if 65535 < (Utf8.ofString e.name).length then some .nameTooLong
  else if 0x100000000 ≤ (deflate e.data).length then some .dataTooLong
  else none

/-- A directory with one more entry, and where the record behind that one's begins. -/
def addToDirectory : Bytes × Nat → Entry → Bytes × Nat
  | (directory, offset), e =>
    (directory ++ directoryRecord e (deflate e.data).length offset,
      offset + (entryRecord e).length)

/-- The archive of entries that fit. -/
def write (entries : List Entry) : Bytes :=
  let records := entries.map entryRecord
  let (directory, size) := entries.foldl addToDirectory ([], 0)
  records.flatten ++ directory ++ endMark ++ number 2 0 ++ number 2 0 ++
    number 2 entries.length ++ number 2 entries.length ++ number 4 directory.length ++
    number 4 size ++ number 2 0

/-- Reads the entry at the beginning of the bytes: the entry and the bytes behind it. -/
def readEntry? (bytes : Bytes) : Option (Entry × Bytes) := do
  let header := bytes.take 30
  if header.length < 30 ∨ header.take 4 ≠ entryMark ∨ value ((header.drop 8).take 2) ≠ deflated then
    none
  else
    let nameLength := value ((header.drop 26).take 2)
    let extra := value ((header.drop 28).take 2)
    let behind := bytes.drop 30
    let name ← Utf8.decode? (behind.take nameLength)
    let (data, rest) ← inflate? (behind.drop (nameLength + extra))
    if checksum data = value ((header.drop 14).take 4) then some (⟨name, data⟩, rest) else none

/-- Reads entries up to the directory. -/
def readEntries? : (fuel : Nat) → Bytes → Option (List Entry)
  | 0, _ => none
  | fuel + 1, bytes =>
    if bytes.take 4 = directoryMark ∨ bytes.take 4 = endMark then some []
    else do
      let (e, rest) ← readEntry? bytes
      some (e :: (← readEntries? fuel rest))

/-- The entries of an archive; none if the bytes are no archive. -/
def read? (bytes : Bytes) : Option (List Entry) :=
  readEntries? (bytes.length + 1) bytes

end LangBundle.Archive
