import Mathlib.Data.List.Nodup
import Mathlib.Data.List.TakeWhile
import Mathlib.Data.List.Perm.Subperm
import LangBundle.Bundle
import LangBundle.Proofs.PathNames

/-!
# The names of entries

An entry of an archive is called by its own name if no entry before it has that name.  Otherwise it
gets its label in front, and a number behind the label if that does not help.

* `EntryName.IsBase`: a name that is no path; `isBase_entryName`: **what is left of a declared name**
  is one.
* `EntryName.IsStemText.isBase_append`: **a stem** makes base names with plain texts behind it.
* `Bundle.candidate_injective`: no two of the names that are tried are equal.
* `Bundle.chosen_freeName`: **the name of one entry** is free, and is its own one if that is.
* `Bundle.nodup_entryNames`: **the names of all entries** are different.
-/

namespace LangBundle

open Text

/-! ## Base names -/

namespace EntryName

/-- A character that neither divides a path nor controls anything. -/
def IsPlainChar (c : Char) : Prop :=
  isSeparator c = false ∧ isControl c = false

/-- All characters of a given text are plain. -/
theorem isPlainChar_of_all {cs : List Char}
    (h : cs.all (fun c => !isSeparator c && !isControl c) = true) {c : Char} (hc : c ∈ cs) :
    IsPlainChar c := by
  have hchar := List.all_eq_true.1 h c hc
  rw [Bool.and_eq_true, Bool.not_eq_true', Bool.not_eq_true'] at hchar
  exact hchar

/-- The characters of a stem are printed ones of ASCII. -/
theorem toNat_of_isStemChar {c : Char} (h : isStemChar c = true) :
    0x20 < c.toNat ∧ c.toNat < 0x7F := by
  simp only [isStemChar, isAsciiAlphanumeric, Bool.or_eq_true, Bool.and_eq_true,
    decide_eq_true_eq, beq_iff_eq] at h
  rcases h with (((⟨hlow, hhigh⟩ | ⟨hlow, hhigh⟩) | ⟨hlow, hhigh⟩) | rfl) | rfl
  · exact ⟨lt_of_lt_of_le (by decide) (show 'a'.toNat ≤ c.toNat from hlow),
      lt_of_le_of_lt (show c.toNat ≤ 'z'.toNat from hhigh) (by decide)⟩
  · exact ⟨lt_of_lt_of_le (by decide) (show 'A'.toNat ≤ c.toNat from hlow),
      lt_of_le_of_lt (show c.toNat ≤ 'Z'.toNat from hhigh) (by decide)⟩
  · exact ⟨lt_of_lt_of_le (by decide) (show '0'.toNat ≤ c.toNat from hlow),
      lt_of_le_of_lt (show c.toNat ≤ '9'.toNat from hhigh) (by decide)⟩
  · decide
  · decide

theorem isPlainChar_of_isStemChar {c : Char} (h : isStemChar c = true) : IsPlainChar c := by
  constructor
  · rcases hseparator : isSeparator c with _ | _
    · rfl
    · simp only [isSeparator, Bool.or_eq_true, beq_iff_eq] at hseparator
      rcases hseparator with rfl | rfl <;> exact absurd h (by decide)
  · have hrange := toNat_of_isStemChar h
    simp only [isControl, Bool.or_eq_false_iff, Bool.and_eq_false_iff,
      decide_eq_false_iff_not]
    omega

/-- A name that is no path. -/
structure IsBase (name : String) : Prop where
  not_empty : name ≠ ""
  not_dot : name ≠ "."
  not_up : name ≠ ".."
  plain : ∀ c ∈ name.toList, IsPlainChar c

instance (name : String) : Decidable (IsBase name) :=
  decidable_of_iff (name ≠ "" ∧ name ≠ "." ∧ name ≠ ".." ∧
      name.toList.all (fun c => !isSeparator c && !isControl c) = true)
    ⟨fun h => ⟨h.1, h.2.1, h.2.2.1, fun _ => isPlainChar_of_all h.2.2.2⟩,
      fun h => ⟨h.not_empty, h.not_dot, h.not_up, List.all_eq_true.2 fun c hc => by
        rw [(h.plain c hc).1, (h.plain c hc).2]
        rfl⟩⟩

theorem mem_of_mem_trim {c : Char} {cs : List Char} (h : c ∈ trim cs) : c ∈ cs := by
  have hfront := List.dropWhile_subset isBlank (List.mem_reverse.1 h)
  exact List.dropWhile_subset isBlank (List.mem_reverse.1 hfront)

/-- **What is left of a declared name** is a base name. -/
theorem isBase_of_ofDeclared? {declared name : String} (h : ofDeclared? declared = some name) :
    IsBase name := by
  unfold ofDeclared? at h
  dsimp only at h
  split at h
  · cases h
  · next hname =>
    obtain rfl := Option.some.inj h
    simp only [not_or] at hname
    refine ⟨hname.1, hname.2.1, hname.2.2, fun c hc => ?_⟩
    rw [String.toList_ofList] at hc
    obtain ⟨hbase, hcontrol⟩ := List.mem_filter.1 (mem_of_mem_trim hc)
    rw [baseName, List.mem_reverse] at hbase
    have hseparator := List.mem_takeWhile_imp hbase
    exact ⟨by simpa using hseparator, by simpa using hcontrol⟩

/-- A name with a text in front that has a hyphen in it. -/
theorem IsBase.behind {front name : String} (hname : IsBase name) (hhyphen : '-' ∈ front.toList)
    (hfront : ∀ c ∈ front.toList, IsPlainChar c) : IsBase (front ++ name) := by
  have hmem : '-' ∈ (front ++ name).toList := by
    rw [String.toList_append]
    exact List.mem_append_left _ hhyphen
  refine ⟨?_, ?_, ?_, fun c hc => ?_⟩
  · intro heq
    rw [heq] at hmem
    exact absurd hmem (by decide)
  · intro heq
    rw [heq] at hmem
    exact absurd hmem (by decide)
  · intro heq
    rw [heq] at hmem
    exact absurd hmem (by decide)
  · rw [String.toList_append] at hc
    rcases List.mem_append.1 hc with hc | hc
    · exact hfront c hc
    · exact hname.plain c hc

/-- A text that is neither empty nor has characters other than those of a stem. -/
structure IsStemText (s : String) : Prop where
  ne : s ≠ ""
  chars : ∀ c ∈ s.toList, isStemChar c = true

theorem toList_named (stem extension : String) :
    (stem ++ "." ++ extension).toList = stem.toList ++ '.' :: extension.toList := by
  simp [String.toList_append]

section
variable {stem rest : String} (hstem : IsStemText stem)
include hstem

theorem IsStemText.not_mem {c : Char} (hc : isStemChar c = false) : c ∉ stem.toList := fun hmem =>
  absurd (hstem.chars c hmem) (by simp [hc])

/-- A stem begins with another character than a dot. -/
theorem IsStemText.head : ∃ c cs, stem.toList = c :: cs ∧ c ≠ '.' := by
  obtain ⟨c, cs, hcs⟩ := List.exists_cons_of_ne_nil (by simpa using hstem.ne : stem.toList ≠ [])
  refine ⟨c, cs, hcs, ?_⟩
  rintro rfl
  exact hstem.not_mem (c := '.') (by decide) (hcs ▸ List.mem_cons_self)

/-- A stem stands for itself in a path, with any text behind it that has no slash. -/
theorem IsStemText.isPlain_append (hslash : '/' ∉ rest.toList) :
    Path.IsPlain (stem ++ rest) ∧ stem ++ rest ≠ ".." := by
  obtain ⟨c, cs, hcs, hhead⟩ := hstem.head
  have hlist : (stem ++ rest).toList = c :: (cs ++ rest.toList) := by
    rw [String.toList_append, hcs, List.cons_append]
  refine Path.isPlain_of_head hlist hhead fun hmem => ?_
  rw [String.toList_append, List.mem_append] at hmem
  exact hmem.elim (hstem.not_mem (by decide)) hslash

/-- A stem is a base name, with any plain text behind it. -/
theorem IsStemText.isBase_append (hrest : ∀ c ∈ rest.toList, IsPlainChar c) :
    IsBase (stem ++ rest) := by
  have hslash : '/' ∉ rest.toList := fun hmem => absurd (hrest '/' hmem).1 (by decide)
  obtain ⟨hplain, hup⟩ := hstem.isPlain_append hslash
  refine ⟨hplain.not_empty, hplain.not_dot, hup, fun c hc => ?_⟩
  rw [String.toList_append, List.mem_append] at hc
  exact hc.elim (fun hc => isPlainChar_of_isStemChar (hstem.chars c hc)) (hrest c)

/-- The extension of a stem's name. -/
theorem IsStemText.extension?_eq {extension : String} (hextension : IsStemText extension) :
    Path.extension? (stem ++ "." ++ extension) = some extension := by
  have hslash : '/' ∉ ("." ++ extension).toList := by
    simpa using hextension.not_mem (c := '/') (by decide)
  obtain ⟨hplain, hup⟩ := hstem.isPlain_append hslash
  rw [← String.append_assoc] at hplain hup
  have hsplit := Path.splitExtension_append (by simpa using hstem.ne : stem.toList ≠ [])
    (hextension.not_mem (c := '.') (by decide))
  rw [Path.extension?, Path.fileName?_of_isPlain hplain hup, Option.bind_some, toList_named, hsplit,
    Option.map_some, String.ofList_toList]

end

end EntryName

/-! ## Candidates -/

namespace Bundle

open EntryName (IsBase IsPlainChar)

/-- What a candidate has behind its label: nothing at first, then a number. -/
def behindLabel : Nat → String
  | 0 => ""
  | n + 1 => "-" ++ toString (n + 2)

theorem candidate_succ (label entryName : String) (n : Nat) :
    candidate label entryName (n + 1) = label ++ behindLabel n ++ "-" ++ entryName := by
  cases n with
  | zero => simp [candidate, behindLabel]
  | succ n => simp [candidate, behindLabel, String.append_assoc]

theorem behindLabel_succ_ne (n : Nat) : behindLabel (n + 1) ≠ "" := by
  intro h
  have hlist := congrArg String.toList h
  rw [behindLabel, String.toList_append] at hlist
  cases hlist

theorem behindLabel_injective : Function.Injective behindLabel := by
  intro m n h
  cases m with
  | zero =>
    cases n with
    | zero => rfl
    | succ n => exact absurd h.symm (behindLabel_succ_ne n)
  | succ m =>
    cases n with
    | zero => exact absurd h (behindLabel_succ_ne m)
    | succ n =>
      have hnumber := (String.append_right_inj "-").1 h
      rw [Nat.toString_eq_ofList_toDigits, Nat.toString_eq_ofList_toDigits] at hnumber
      have hdigits := congrArg (Nat.ofDigitChars 10 · 0) (String.ofList_injective hnumber)
      simp only [Nat.ofDigitChars_ten_toDigits] at hdigits
      omega

/-- **No two candidates** are equal. -/
theorem candidate_injective (label entryName : String) :
    Function.Injective (candidate label entryName) := by
  have hlonger (n : Nat) : entryName.length < (candidate label entryName (n + 1)).length := by
    rw [candidate_succ]
    simp only [String.length_append]
    have hhyphen : "-".length = 1 := rfl
    omega
  intro m n h
  cases m with
  | zero =>
    cases n with
    | zero => rfl
    | succ n => exact absurd (congrArg String.length h) (Nat.ne_of_lt (hlonger n))
  | succ m =>
    cases n with
    | zero => exact absurd (congrArg String.length h) (Nat.ne_of_gt (hlonger m))
    | succ n =>
      rw [candidate_succ, candidate_succ, String.append_left_inj, String.append_left_inj,
        String.append_right_inj] at h
      rw [behindLabel_injective h]

/-- One of the first candidates is free: there are more of them than names that are taken. -/
theorem exists_free (taken : List String) (label entryName : String) :
    ∃ n ≤ taken.length, candidate label entryName n ∉ taken := by
  by_contra hnone
  push Not at hnone
  have hnodup := (List.nodup_range (n := taken.length + 1)).map (candidate_injective label entryName)
  have hsubset : (List.range (taken.length + 1)).map (candidate label entryName) ⊆ taken := by
    intro name hname
    obtain ⟨n, hn, rfl⟩ := List.mem_map.1 hname
    exact hnone n (Nat.lt_succ_iff.1 (List.mem_range.1 hn))
  have hlength := (List.subperm_of_subset hnodup hsubset).length_le
  rw [List.length_map, List.length_range] at hlength
  omega

/-- **The name of one entry** is the first candidate that is free. -/
theorem freeName_eq_candidate (taken : List String) (label entryName : String) :
    ∃ n, freeName taken label entryName = candidate label entryName n ∧
      candidate label entryName n ∉ taken ∧ ∀ m < n, candidate label entryName m ∈ taken := by
  obtain ⟨k, hk, hfree⟩ := exists_free taken label entryName
  rcases hfind : (List.range (taken.length + 1)).find?
      ((!taken.contains ·) ∘ candidate label entryName) with _ | n
  · have hnot := List.find?_eq_none.1 hfind k (List.mem_range.2 (Nat.lt_succ_of_le hk))
    simp [hfree] at hnot
  · obtain ⟨hn, -, hbefore⟩ := List.find?_range_eq_some.1 hfind
    refine ⟨n, ?_, by simpa using hn, fun m hm => by simpa using hbefore m hm⟩
    rw [freeName, List.find?_map, hfind]
    rfl

/-- How an entry may be called behind names that are taken. -/
structure Chosen (taken : List String) (label entryName name : String) : Prop where
  /-- Its name is free. -/
  free : name ∉ taken
  /-- It is its own one if that is free. -/
  own : entryName ∉ taken → name = entryName
  /-- Otherwise its own one stands behind its label. -/
  labelled : entryName ∈ taken → ∃ n, name = label ++ behindLabel n ++ "-" ++ entryName

theorem chosen_freeName (taken : List String) (label entryName : String) :
    Chosen taken label entryName (freeName taken label entryName) := by
  obtain ⟨n, hname, hfree, hbefore⟩ := freeName_eq_candidate taken label entryName
  rw [hname]
  cases n with
  | zero => exact ⟨hfree, fun _ => rfl, fun htaken => absurd htaken hfree⟩
  | succ n =>
    have htaken : entryName ∈ taken := hbefore 0 (Nat.succ_pos n)
    exact ⟨hfree, fun hnot => absurd htaken hnot, fun _ => ⟨n, candidate_succ label entryName n⟩⟩

/-- Only whether a name is taken counts. -/
theorem Chosen.congr {taken taken' : List String} {label entryName name : String}
    (h : Chosen taken label entryName name) (hmem : ∀ x, x ∈ taken' ↔ x ∈ taken) :
    Chosen taken' label entryName name :=
  ⟨fun hin => h.free ((hmem _).1 hin), fun hnot => h.own fun hin => hnot ((hmem _).2 hin),
    fun hin => h.labelled ((hmem _).1 hin)⟩

theorem nodup_entryNamesAfter {taken : List String} (h : taken.Nodup) (artifacts : List Artifact) :
    (entryNamesAfter taken artifacts).Nodup := by
  induction artifacts generalizing taken with
  | nil => exact List.nodup_reverse.2 h
  | cons a rest ih =>
    exact ih (List.nodup_cons.2 ⟨(chosen_freeName taken a.label a.entryName).free, h⟩)

/-- **The names of all entries** are different. -/
theorem nodup_entryNames (artifacts : List Artifact) : (entryNames artifacts).Nodup :=
  nodup_entryNamesAfter List.nodup_nil artifacts

end Bundle

end LangBundle
