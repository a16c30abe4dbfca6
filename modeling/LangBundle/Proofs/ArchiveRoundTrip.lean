import LangBundle.Archive.Zip

/-!
# Archives read back

What is written is what is read: texts as bytes, data as blocks, and entries as an archive.

* `Utf8.decode?_ofString`: **texts**.
* `inflateAfter?_blocksAfter`: **data**, whatever stands behind it.
* `readEntry?_entryRecord`: **one entry**.
* `read?_write`: **an archive** of entries that fit reads as these entries.
-/

namespace LangBundle

/-! ## Texts -/

namespace Utf8

theorem toNat_toUInt8 {n : Nat} (h : n < 256) : n.toUInt8.toNat = n := by
  rw [Nat.toUInt8_eq, UInt8.toNat_ofNat', Nat.mod_eq_of_lt h]

/-- The code points of characters. -/
theorem toNat_bounds (c : Char) : c.toNat < 0xD800 ∨ 0xDFFF < c.toNat ∧ c.toNat < 0x110000 :=
  c.valid

theorem readTail_zero (value low high : Nat) (rest : Bytes) :
    readTail value 0 low high rest = (some value, 0) := by
  rw [readTail]

/-- A byte of a character behind the first is read. -/
theorem readTail_cons {value wanted low high n : Nat} (hn : n < 256) (hlow : low ≤ n)
    (hhigh : n ≤ high) (rest : Bytes) :
    readTail value (wanted + 1) low high (n.toUInt8 :: rest) =
      let (r, m) := readTail (value * 64 + (n - 0x80)) wanted 0x80 0xBF rest
      (r, m + 1) := by
  rw [readTail, toNat_toUInt8 hn, if_pos ⟨hlow, hhigh⟩]

section
variable {a b c d : Nat} (rest : Bytes)

theorem scanOne_two (ha : 0xC2 ≤ a ∧ a < 0xE0) (hb : 0x80 ≤ b ∧ b ≤ 0xBF) :
    scanOne a.toUInt8 (b.toUInt8 :: rest) =
      (some (Char.ofNat ((a - 0xC0) * 64 + (b - 0x80))), 1) := by
  have hlead : Lead.ofByte? a.toUInt8 = some ⟨a - 0xC0, 0x80, 0xBF, 1⟩ := by
    unfold Lead.ofByte?
    rw [toNat_toUInt8 (by omega)]
    dsimp only
    rw [if_neg (by omega), if_pos (by omega)]
  rw [scanOne, toNat_toUInt8 (by omega), if_neg (by omega), hlead]
  simp only [readTail_cons (show b < 256 by omega) hb.1 hb.2, readTail_zero,
    Option.map_some]

theorem scanOne_three (ha : 0xE0 ≤ a ∧ a < 0xF0) (hb : 0x80 ≤ b ∧ b ≤ 0xBF)
    (hlow : a = 0xE0 → 0xA0 ≤ b) (hhigh : a = 0xED → b ≤ 0x9F) (hc : 0x80 ≤ c ∧ c ≤ 0xBF) :
    scanOne a.toUInt8 (b.toUInt8 :: c.toUInt8 :: rest) =
      (some (Char.ofNat (((a - 0xE0) * 64 + (b - 0x80)) * 64 + (c - 0x80))), 2) := by
  obtain ⟨low, high, hlead, hlow, hhigh⟩ : ∃ low high,
      Lead.ofByte? a.toUInt8 = some ⟨a - 0xE0, low, high, 2⟩ ∧ low ≤ b ∧ b ≤ high := by
    unfold Lead.ofByte?
    rw [toNat_toUInt8 (by omega)]
    dsimp only
    rw [if_neg (by omega), if_neg (by omega)]
    by_cases h0 : a = 0xE0
    · subst h0
      exact ⟨_, _, rfl, hlow rfl, hb.2⟩
    by_cases hD : a = 0xED
    · subst hD
      exact ⟨_, _, rfl, hb.1, hhigh rfl⟩
    rw [if_neg h0, if_neg hD, if_pos (by omega)]
    exact ⟨_, _, rfl, hb⟩
  rw [scanOne, toNat_toUInt8 (by omega), if_neg (by omega), hlead]
  simp only [readTail_cons (show b < 256 by omega) hlow hhigh,
    readTail_cons (show c < 256 by omega) hc.1 hc.2, readTail_zero,
    Option.map_some]

theorem scanOne_four (ha : 0xF0 ≤ a ∧ a < 0xF5) (hb : 0x80 ≤ b ∧ b ≤ 0xBF)
    (hlow : a = 0xF0 → 0x90 ≤ b) (hhigh : a = 0xF4 → b ≤ 0x8F) (hc : 0x80 ≤ c ∧ c ≤ 0xBF)
    (hd : 0x80 ≤ d ∧ d ≤ 0xBF) :
    scanOne a.toUInt8 (b.toUInt8 :: c.toUInt8 :: d.toUInt8 :: rest) =
      (some (Char.ofNat ((((a - 0xF0) * 64 + (b - 0x80)) * 64 + (c - 0x80)) * 64 + (d - 0x80))),
        3) := by
  obtain ⟨low, high, hlead, hlow, hhigh⟩ : ∃ low high,
      Lead.ofByte? a.toUInt8 = some ⟨a - 0xF0, low, high, 3⟩ ∧ low ≤ b ∧ b ≤ high := by
    unfold Lead.ofByte?
    rw [toNat_toUInt8 (by omega)]
    dsimp only
    rw [if_neg (by omega), if_neg (by omega), if_neg (by omega), if_neg (by omega),
      if_neg (by omega)]
    by_cases h0 : a = 0xF0
    · subst h0
      exact ⟨_, _, rfl, hlow rfl, hb.2⟩
    by_cases h4 : a = 0xF4
    · subst h4
      exact ⟨_, _, rfl, hb.1, hhigh rfl⟩
    rw [if_neg h0, if_pos (by omega)]
    exact ⟨_, _, rfl, hb⟩
  rw [scanOne, toNat_toUInt8 (by omega), if_neg (by omega), hlead]
  simp only [readTail_cons (show b < 256 by omega) hlow hhigh,
    readTail_cons (show c < 256 by omega) hc.1 hc.2,
    readTail_cons (show d < 256 by omega) hd.1 hd.2, readTail_zero,
    Option.map_some]

end

/-- The item at the beginning of a character's bytes is that character. -/
theorem scanAfter_encodeChar (before : List (Option Char)) (c : Char) (rest : Bytes) :
    scanAfter before (encodeChar c ++ rest) = scanAfter (some c :: before) rest := by
  have hc := toNat_bounds c
  have hof : Char.ofNat c.toNat = c := Char.ofNat_toNat c
  generalize hn : c.toNat = n at hc hof
  have hstep (b : UInt8) (tail : Bytes)
      (hone : scanOne b (tail ++ rest) = (some c, tail.length)) :
      scanAfter before (b :: tail ++ rest) = scanAfter (some c :: before) rest := by
    rw [List.cons_append, scanAfter, hone, List.drop_left]
  -- the value that is read is the code point, put together from its parts
  have hread {m k : Nat} {x : Option Char × Nat} (h : x = (some (Char.ofNat m), k))
      (hm : m = n) : x = (some c, k) := by
    rw [h, hm, hof]
  unfold encodeChar
  rw [hn]
  dsimp only
  by_cases h1 : n < 0x80
  · rw [if_pos h1]
    refine hstep _ [] ?_
    rw [scanOne, toNat_toUInt8 (by omega), if_pos h1, hof, List.length_nil]
  by_cases h2 : n < 0x800
  · rw [if_neg h1, if_pos h2]
    exact hstep _ [_] (hread (scanOne_two rest (by omega) (by omega)) (by omega))
  by_cases h3 : n < 0x10000
  · rw [if_neg h1, if_neg h2, if_pos h3]
    exact hstep _ [_, _] (hread (scanOne_three rest (by omega) (by omega) (by omega) (by omega)
      (by omega)) (by omega))
  · rw [if_neg h1, if_neg h2, if_neg h3]
    exact hstep _ [_, _, _] (hread (scanOne_four rest (by omega) (by omega) (by omega) (by omega)
      (by omega) (by omega)) (by omega))

theorem scanAfter_encode (before : List (Option Char)) (cs : List Char) :
    scanAfter before (encode cs) = before.reverse ++ cs.map some := by
  induction cs generalizing before with
  | nil => simp [encode, scanAfter]
  | cons c cs ih =>
    have hcons : encode (c :: cs) = encodeChar c ++ encode cs := rfl
    rw [hcons, scanAfter_encodeChar, ih, List.reverse_cons, List.append_assoc]
    rfl

/-- **Texts.** -/
theorem decode?_ofString (s : String) : decode? (ofString s) = some s := by
  have hscan : scan (ofString s) = s.toList.map some := scanAfter_encode [] s.toList
  have hall : (s.toList.map some).mapM id = some s.toList := by
    rw [List.mapM_map]
    exact List.mapM_pure.trans (congrArg some (List.map_id _))
  rw [decode?, hscan, hall, Option.map_some, String.ofList_toList]

end Utf8

/-! ## Data -/

namespace Archive

/-- A block that is read: its data is put in front of what was read, or ends the reading. -/
theorem inflateAfter?_block {data : Bytes} (h : data.length ≤ maxBlock) (last : Bool) (fuel : Nat)
    (before : List Bytes) (rest : Bytes) :
    inflateAfter? (fuel + 1) before (block last data ++ rest) =
      if last then some ((data :: before).reverse.flatten, rest)
      else inflateAfter? fuel (data :: before) rest := by
  have hlength : data.length < Nat.pow 256 2 := by
    change data.length < 65536
    simp only [maxBlock] at h
    omega
  have hother : maxBlock - data.length < Nat.pow 256 2 := by
    change maxBlock - data.length < 65536
    simp only [maxBlock]
    omega
  obtain ⟨l₀, l₁, hl⟩ : ∃ l₀ l₁, number 2 data.length = [l₀, l₁] := ⟨_, _, rfl⟩
  obtain ⟨m₀, m₁, hm⟩ : ∃ m₀ m₁, number 2 (maxBlock - data.length) = [m₀, m₁] := ⟨_, _, rfl⟩
  have hvl := value_number hlength
  have hvm := value_number hother
  rw [hl] at hvl
  rw [hm] at hvm
  rw [block, hl, hm]
  simp only [List.cons_append, List.nil_append, inflateAfter?, hvl, hvm, List.length_append,
    List.take_left, List.drop_left]
  rw [if_neg (by omega)]
  cases last <;> simp

theorem flatten_blocksAfter (before : List Bytes) (data : Bytes) :
    (blocksAfter before data).flatten = before.reverse.flatten ++ deflate data := by
  induction hn : data.length using Nat.strongRecOn generalizing data before with
  | ind n ih =>
    by_cases h : data.length ≤ maxBlock
    · have hone (before : List Bytes) :
          blocksAfter before data = (block true data :: before).reverse := by
        rw [blocksAfter, if_pos h]
      rw [deflate, hone, hone]
      simp
    · have hmore (before : List Bytes) : blocksAfter before data =
          blocksAfter (block false (data.take maxBlock) :: before) (data.drop maxBlock) := by
        rw [blocksAfter, if_neg h]
      have hless : (data.drop maxBlock).length < n := by
        simp only [List.length_drop, maxBlock] at h ⊢
        omega
      rw [deflate, hmore, hmore, ih _ hless _ _ rfl, ih _ hless _ _ rfl]
      simp

theorem deflate_of_le {data : Bytes} (h : data.length ≤ maxBlock) :
    deflate data = block true data := by
  rw [deflate, blocksAfter, if_pos h]
  simp

theorem deflate_of_gt {data : Bytes} (h : ¬ data.length ≤ maxBlock) :
    deflate data = block false (data.take maxBlock) ++ deflate (data.drop maxBlock) := by
  rw [deflate, blocksAfter, if_neg h, flatten_blocksAfter]
  simp

theorem length_block_pos (last : Bool) (data : Bytes) : 0 < (block last data).length := by
  simp [block]

theorem length_deflate_pos (data : Bytes) : 0 < (deflate data).length := by
  by_cases h : data.length ≤ maxBlock
  · rw [deflate_of_le h]
    exact length_block_pos true data
  · rw [deflate_of_gt h, List.length_append]
    have hpos := length_block_pos false (data.take maxBlock)
    omega

/-- **Data**: its blocks are read back, with enough fuel, whatever stands behind them. -/
theorem inflateAfter?_deflate (before : List Bytes) (data rest : Bytes) {fuel : Nat}
    (hfuel : (deflate data).length ≤ fuel) :
    inflateAfter? fuel before (deflate data ++ rest) =
      some (before.reverse.flatten ++ data, rest) := by
  induction hn : data.length using Nat.strongRecOn generalizing data before fuel with
  | ind n ih =>
    obtain ⟨fuel, rfl⟩ : ∃ k, fuel = k + 1 :=
      ⟨fuel - 1, by have := length_deflate_pos data; omega⟩
    by_cases h : data.length ≤ maxBlock
    · rw [deflate_of_le h, inflateAfter?_block h]
      simp
    · have hless : (data.drop maxBlock).length < n := by
        simp only [List.length_drop, maxBlock] at h ⊢
        omega
      have hblock : (data.take maxBlock).length ≤ maxBlock := List.length_take_le _ _
      have hpos := length_block_pos false (data.take maxBlock)
      rw [deflate_of_gt h, List.length_append] at hfuel
      rw [deflate_of_gt h, List.append_assoc, inflateAfter?_block hblock]
      simp only [Bool.false_eq_true, if_false]
      rw [ih _ hless _ _ (by omega) rfl, List.reverse_cons, List.flatten_append,
        List.flatten_singleton, List.append_assoc, List.take_append_drop]

theorem inflate?_deflate (data rest : Bytes) :
    inflate? (deflate data ++ rest) = some (data, rest) := by
  rw [inflate?, inflateAfter?_deflate [] data rest (by simp; omega)]
  simp

/-! ## Entries -/

theorem length_commonHeader (e : Entry) (packed : Nat) : (commonHeader e packed).length = 26 := by
  simp [commonHeader]

theorem checksum_lt (data : Bytes) : checksum data < Nat.pow 256 4 :=
  UInt32.toNat_lt _

/-- A number in a row of bytes is read where it begins. -/
theorem value_field (before behind : Bytes) {bytes : Bytes} {start width n : Nat}
    (hbytes : bytes = before ++ (number width n ++ behind)) (hstart : before.length = start)
    (hn : n < Nat.pow 256 width) : value ((bytes.drop start).take width) = n := by
  subst hbytes hstart
  rw [List.drop_left, List.take_left' (length_number width n), value_number hn]

/-- The header of an entry. -/
def header (e : Entry) (packed : Nat) : Bytes :=
  entryMark ++ commonHeader e packed

section
variable (e : Entry) (packed : Nat)

theorem length_header : (header e packed).length = 30 := by
  rw [header, List.length_append, length_commonHeader]
  rfl

theorem take_mark_header : (header e packed).take 4 = entryMark :=
  List.take_left' rfl

theorem value_method : value (((header e packed).drop 8).take 2) = deflated := by
  refine value_field (entryMark ++ number 2 version ++ number 2 (nameFlag e.name))
    (number 2 0 ++ number 2 entryDate ++ number 4 (checksum e.data) ++ number 4 packed ++
      number 4 e.data.length ++ number 2 (Utf8.ofString e.name).length ++ number 2 0) ?_ rfl
    (by decide)
  simp only [header, commonHeader, List.append_assoc]

theorem value_checksum : value (((header e packed).drop 14).take 4) = checksum e.data := by
  refine value_field (entryMark ++ number 2 version ++ number 2 (nameFlag e.name) ++
      number 2 deflated ++ number 2 0 ++ number 2 entryDate)
    (number 4 packed ++ number 4 e.data.length ++ number 2 (Utf8.ofString e.name).length ++
      number 2 0) ?_ rfl (checksum_lt e.data)
  simp only [header, commonHeader, List.append_assoc]

theorem value_nameLength (h : (Utf8.ofString e.name).length ≤ 65535) :
    value (((header e packed).drop 26).take 2) = (Utf8.ofString e.name).length := by
  refine value_field (entryMark ++ number 2 version ++ number 2 (nameFlag e.name) ++
      number 2 deflated ++ number 2 0 ++ number 2 entryDate ++ number 4 (checksum e.data) ++
      number 4 packed ++ number 4 e.data.length) (number 2 0) ?_ rfl (Nat.lt_succ_of_le h)
  simp only [header, commonHeader, List.append_assoc]

theorem value_extra : value (((header e packed).drop 28).take 2) = 0 := by
  refine value_field (entryMark ++ number 2 version ++ number 2 (nameFlag e.name) ++
      number 2 deflated ++ number 2 0 ++ number 2 entryDate ++ number 4 (checksum e.data) ++
      number 4 packed ++ number 4 e.data.length ++ number 2 (Utf8.ofString e.name).length) []
    ?_ rfl (by decide)
  simp only [header, commonHeader, List.append_assoc, List.append_nil]

end

/-- **One entry** that fits is read back, whatever stands behind it. -/
theorem readEntry?_entryRecord {e : Entry} (h : e.fault? = none) (rest : Bytes) :
    readEntry? (entryRecord e ++ rest) = some (e, rest) := by
  have hname : (Utf8.ofString e.name).length ≤ 65535 := by
    unfold Entry.fault? at h
    split at h
    · cases h
    · omega
  let packed := (deflate e.data).length
  have hbytes : entryRecord e ++ rest =
      header e packed ++ (Utf8.ofString e.name ++ (deflate e.data ++ rest)) := by
    simp only [entryRecord, header, packed, List.append_assoc]
  have htake : (entryRecord e ++ rest).take 30 = header e packed := by
    rw [hbytes, List.take_left' (length_header e packed)]
  have hdrop : (entryRecord e ++ rest).drop 30 =
      Utf8.ofString e.name ++ (deflate e.data ++ rest) := by
    rw [hbytes, List.drop_left' (length_header e packed)]
  unfold readEntry?
  simp only [htake, hdrop, length_header, take_mark_header, value_method,
    value_nameLength e packed hname, value_extra, value_checksum, Nat.add_zero, List.take_left,
    List.drop_left, Utf8.decode?_ofString, inflate?_deflate]
  simp

/-- Both marks that end the entries differ from the mark of an entry. -/
theorem take_mark_entryRecord (e : Entry) (rest : Bytes) :
    (entryRecord e ++ rest).take 4 ≠ directoryMark ∧ (entryRecord e ++ rest).take 4 ≠ endMark := by
  have htake : (entryRecord e ++ rest).take 4 = entryMark := by
    simp only [entryRecord, List.append_assoc]
    exact List.take_left' rfl
  rw [htake]
  decide

/-- The entries in front of a directory are read back. -/
theorem readEntries?_records {entries : List Entry} (h : ∀ e ∈ entries, e.fault? = none)
    {rest : Bytes} (hrest : rest.take 4 = directoryMark ∨ rest.take 4 = endMark) {fuel : Nat}
    (hfuel : entries.length < fuel) :
    readEntries? fuel ((entries.map entryRecord).flatten ++ rest) = some entries := by
  induction entries generalizing fuel with
  | nil =>
    obtain ⟨fuel, rfl⟩ : ∃ k, fuel = k + 1 := ⟨fuel - 1, by simp at hfuel; omega⟩
    rw [List.map_nil, List.flatten_nil, List.nil_append, readEntries?, if_pos hrest]
  | cons e entries ih =>
    obtain ⟨fuel, rfl⟩ : ∃ k, fuel = k + 1 := ⟨fuel - 1, by simp at hfuel; omega⟩
    have hmark := take_mark_entryRecord e ((entries.map entryRecord).flatten ++ rest)
    have hentry := readEntry?_entryRecord (h e List.mem_cons_self)
      ((entries.map entryRecord).flatten ++ rest)
    have hmore := ih (fun e he => h e (List.mem_cons_of_mem _ he))
      (show entries.length < fuel by simp at hfuel; omega)
    rw [List.map_cons, List.flatten_cons, List.append_assoc, readEntries?, if_neg (by simp [hmark])]
    simp only [hentry, hmore, Option.bind_eq_bind, Option.bind_some]

theorem length_entries_le (entries : List Entry) :
    entries.length ≤ (entries.map entryRecord).flatten.length := by
  induction entries with
  | nil => simp
  | cons e entries ih =>
    rw [List.map_cons, List.flatten_cons, List.length_append, List.length_cons]
    have hpos : 0 < (entryRecord e).length := by simp [entryRecord, entryMark]
    omega

theorem fst_foldl_addToDirectory (entries : List Entry) (directory : Bytes) (offset : Nat) :
    ∃ more, (entries.foldl addToDirectory (directory, offset)).1 = directory ++ more ∧
      (more = [] ∨ more.take 4 = directoryMark) := by
  induction entries generalizing directory offset with
  | nil => exact ⟨[], (List.append_nil _).symm, .inl rfl⟩
  | cons e entries ih =>
    obtain ⟨more, hmore, -⟩ := ih (directory ++ directoryRecord e (deflate e.data).length offset)
      (offset + (entryRecord e).length)
    refine ⟨directoryRecord e (deflate e.data).length offset ++ more, ?_, .inr ?_⟩
    · rw [List.foldl_cons, addToDirectory, hmore, List.append_assoc]
    · simp only [directoryRecord, List.append_assoc]
      exact List.take_left' rfl

/-- Behind the records of an archive stands a mark that ends them. -/
theorem write_eq_append (entries : List Entry) :
    ∃ rest, write entries = (entries.map entryRecord).flatten ++ rest ∧
      (rest.take 4 = directoryMark ∨ rest.take 4 = endMark) := by
  obtain ⟨more, hmore, hmark⟩ := fst_foldl_addToDirectory entries [] 0
  simp only [write, hmore, List.nil_append, List.append_assoc]
  refine ⟨_, rfl, ?_⟩
  obtain rfl | hmark := hmark
  · rw [List.nil_append]
    exact .inr (List.take_left' rfl)
  · refine .inl ?_
    have hlength : 4 ≤ more.length := by
      have := congrArg List.length hmark
      rw [List.length_take] at this
      simp only [directoryMark, List.length_cons, List.length_nil] at this
      omega
    rw [List.take_append_of_le_length hlength, hmark]

/-- **An archive** of entries that fit reads as these entries. -/
theorem read?_write {entries : List Entry} (h : ∀ e ∈ entries, e.fault? = none) :
    read? (write entries) = some entries := by
  obtain ⟨rest, hwrite, hrest⟩ := write_eq_append entries
  have hlength := length_entries_le entries
  rw [read?, hwrite]
  exact readEntries?_records h hrest (by rw [List.length_append]; omega)

end Archive

end LangBundle
