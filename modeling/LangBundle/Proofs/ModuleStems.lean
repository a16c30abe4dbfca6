import LangBundle.Proofs.EntryNames
import LangBundle.Proofs.CommandLines

/-!
# The stem of the module

The compiled module is called by the stem of the interpreter's name: what stands before the name's
last dot, as far as its characters are plain.  A path counts by its last name only, and what is left
of no name at all has a stem of its own.

* `Path.BeforeLastDot`: what stands before the last dot of a name, said without the function that
  cuts it; `Path.beforeLastDot_iff`: **it is one text**, the one that is computed.
* `reduces_moduleStem`: **the stem of a path** is its last name, reduced.
* `EntryName.IsStemText.moduleStem_self`, `.moduleStem_eq`: **a stem is its own one**, and that of its
  names with any extension.
* `namesModules_moduleStem`: **all of this together**, for every text and for the names of entries.
-/

namespace LangBundle

open Text
open EntryName (IsBase IsStemText ofDeclared?)
open Stage (Command)

/-! ## Before the last dot -/

namespace Path

/-- `stem` stands before the last dot of a name; it is all of the name if there is no dot in it, or
none but the one that begins it. -/
inductive BeforeLastDot : List Char → List Char → Prop
  | whole {name : List Char} (hdot : '.' ∉ name) : BeforeLastDot name name
  | hidden {rest : List Char} (hdot : '.' ∉ rest) : BeforeLastDot ('.' :: rest) ('.' :: rest)
  | cut {stem behind : List Char} (hne : stem ≠ []) (hdot : '.' ∉ behind) :
      BeforeLastDot (stem ++ '.' :: behind) stem

section
variable {name stem : List Char}

theorem exists_beforeLastDot (name : List Char) : ∃ stem, BeforeLastDot name stem := by
  by_cases hdot : '.' ∈ name
  · -- the last dot is the first one from behind
    obtain ⟨behind, front, hname, hbehind⟩ := List.eq_append_cons_of_mem (List.mem_reverse.2 hdot)
    rw [List.reverse_eq_iff, List.reverse_append, List.reverse_cons, List.append_assoc,
      List.singleton_append] at hname
    rw [← List.mem_reverse] at hbehind
    subst hname
    cases front with
    | nil => exact ⟨_, .hidden hbehind⟩
    | cons c front => exact ⟨_, .cut (by simp) hbehind⟩
  · exact ⟨name, .whole hdot⟩

/-- A name is whole if nothing stands in front of a dot. -/
theorem splitExtension_of_drop (h : (name.reverse.dropWhile (· != '.')).drop 1 = []) :
    splitExtension name = (name, none) := by
  unfold splitExtension
  rw [h]

theorem BeforeLastDot.splitExtension_eq (h : BeforeLastDot name stem) :
    (splitExtension name).1 = stem := by
  have hnot {cs : List Char} (hdot : '.' ∉ cs) : ∀ c ∈ cs.reverse, (c != '.') = true := by
    intro c hc
    rw [bne_iff_ne]
    rintro rfl
    exact hdot (List.mem_reverse.1 hc)
  cases h with
  | whole hdot =>
    have hnone := List.dropWhile_eq_nil_iff.2 (hnot hdot)
    rw [splitExtension_of_drop (by rw [hnone, List.drop_nil])]
  | @hidden rest hdot =>
    have hone : ('.' :: rest).reverse.dropWhile (· != '.') = ['.'] := by
      rw [List.reverse_cons, List.dropWhile_append_of_pos (hnot hdot)]
      rfl
    rw [splitExtension_of_drop (by rw [hone, List.drop_one, List.tail_cons])]
  | cut hne hdot => rw [splitExtension_append hne hdot]

/-- **What stands before the last dot** is one text, the one that is computed. -/
theorem beforeLastDot_iff : BeforeLastDot name stem ↔ (splitExtension name).1 = stem := by
  refine ⟨fun h => h.splitExtension_eq, ?_⟩
  rintro rfl
  obtain ⟨stem, h⟩ := exists_beforeLastDot name
  rwa [h.splitExtension_eq]

end

end Path

/-! ## What a part of a name is reduced to -/

/-- A part of a name is reduced to its characters that a stem may have; if it has none of them, the
module gets the one name that does not come from an upload. -/
inductive ReducesTo (part : List Char) : String → Prop
  | kept (h : part.filter isStemChar ≠ []) :
      ReducesTo part (String.ofList (part.filter isStemChar))
  | nothing (h : ∀ c ∈ part, isStemChar c = false) : ReducesTo part "interpreter"

/-- **The stem of a path** is what its last name is reduced to. -/
theorem reduces_moduleStem {path name : String} {part : List Char}
    (hname : Path.fileName? path = some name) (hpart : Path.BeforeLastDot name.toList part) :
    ReducesTo part (moduleStem path) := by
  rw [moduleStem, Path.fileStem?, hname, Option.map_some, Option.getD_some, String.toList_ofList,
    hpart.splitExtension_eq]
  by_cases hnothing : part.filter isStemChar = []
  · rw [hnothing, if_pos rfl]
    exact .nothing fun c hc => Bool.eq_false_iff.2 (List.filter_eq_nil_iff.1 hnothing c hc)
  · rw [if_neg fun hempty => hnothing (String.ofList_eq_empty_iff.1 hempty)]
    exact .kept hnothing

theorem isStemText_moduleStem (s : String) : IsStemText (moduleStem s) :=
  ⟨moduleStem_ne_empty s, fun _ hc => isStemChar_of_mem_moduleStem hc⟩

namespace EntryName

/-- A base name stands for itself in a path. -/
theorem IsBase.fileName?_eq {name : String} (h : IsBase name) :
    Path.fileName? name = some name := by
  have hslash : '/' ∉ name.toList := fun hmem => absurd (h.plain '/' hmem).1 (by decide)
  exact Path.fileName?_of_isPlain ⟨hslash, h.not_empty, h.not_dot⟩ h.not_up

section
variable {stem extension : String} (hstem : IsStemText stem)
include hstem

/-- Nothing is taken from a stem. -/
theorem IsStemText.eq_of_reducesTo {s : String} (h : ReducesTo stem.toList s) : s = stem := by
  cases h with
  | kept => rw [List.filter_eq_self.2 hstem.chars, String.ofList_toList]
  | nothing hnone =>
    obtain ⟨c, cs, hcs, -⟩ := hstem.head
    have hc : c ∈ stem.toList := hcs ▸ List.mem_cons_self
    exact absurd (hstem.chars c hc) (by simp [hnone c hc])

/-- **A stem is its own one.** -/
theorem IsStemText.moduleStem_self : moduleStem stem = stem := by
  have hplain : Path.IsPlain (stem ++ "") ∧ stem ++ "" ≠ ".." := hstem.isPlain_append (by simp)
  rw [String.append_empty] at hplain
  have hpart : Path.BeforeLastDot stem.toList stem.toList := .whole (hstem.not_mem (by decide))
  exact hstem.eq_of_reducesTo
    (reduces_moduleStem (Path.fileName?_of_isPlain hplain.1 hplain.2) hpart)

section
variable (hdot : '.' ∉ extension.toList) (hslash : '/' ∉ extension.toList)
include hdot hslash

/-- **The stem of a path** that ends in a stem and an extension, wherever it leads. -/
theorem IsStemText.moduleStem_join (base : String) :
    moduleStem (Path.join base (stem ++ "." ++ extension)) = stem := by
  have hrest : '/' ∉ ("." ++ extension).toList := by simpa using hslash
  obtain ⟨hplain, hup⟩ := hstem.isPlain_append hrest
  rw [← String.append_assoc] at hplain hup
  have hpart : Path.BeforeLastDot (stem ++ "." ++ extension).toList stem.toList := by
    rw [toList_named]
    exact .cut (by simpa using hstem.ne) hdot
  exact hstem.eq_of_reducesTo
    (reduces_moduleStem (Path.fileName?_join hplain hup base) hpart)

/-- **The stem of a name** with any extension. -/
theorem IsStemText.moduleStem_eq : moduleStem (stem ++ "." ++ extension) = stem := by
  have hjoin : Path.join "" (stem ++ "." ++ extension) = stem ++ "." ++ extension := by
    simp [Path.join]
  have hstems := hstem.moduleStem_join hdot hslash ""
  rwa [hjoin] at hstems

end

end

end EntryName

/-! ## The rule -/

/-- A rule by which a module is named after a file, whatever that file is called. -/
structure NamesModules (stem : String → String) : Prop where
  /-- A stem is not empty, and has letters, digits, `_` and `-` only. -/
  image : ∀ s, IsStemText (stem s)
  /-- A stem is its own one. -/
  kept : ∀ s, stem (stem s) = stem s
  /-- It comes back from every name that it makes with an extension. -/
  recovered : ∀ s extension, '.' ∉ extension.toList → '/' ∉ extension.toList →
    stem (stem s ++ "." ++ extension) = stem s
  /-- It comes back from the paths of the two files that the module is linked to. -/
  linked : ∀ tools workspace interpreter s,
    ∀ path ∈ (Command.link tools workspace interpreter (stem s)).outputs, stem path = stem s
  /-- What is kept of a declared name is reduced to the one part before its last dot, and that to
  the characters of a stem. -/
  declared : ∀ s name, ofDeclared? s = some name →
    ∃ part, (∀ p, Path.BeforeLastDot name.toList p ↔ p = part) ∧ ReducesTo part (stem name)

/-- **The stem of the module** follows this rule. -/
theorem namesModules_moduleStem : NamesModules moduleStem := by
  refine ⟨isStemText_moduleStem, ?kept, ?recovered, ?linked, ?declared⟩
  case kept =>
    intro s
    exact (isStemText_moduleStem s).moduleStem_self
  case recovered =>
    intro s extension hdot hslash
    exact (isStemText_moduleStem s).moduleStem_eq hdot hslash
  case linked =>
    intro tools workspace interpreter s path hpath
    have hstem := isStemText_moduleStem s
    generalize moduleStem s = stem at hstem hpath ⊢
    -- the outputs are named with one text behind the stem, which begins with the dot
    have hmade (extension : String) (hdot : '.' ∉ extension.toList)
        (hslash : '/' ∉ extension.toList) :
        moduleStem (Path.join workspace (stem ++ ("." ++ extension))) = stem := by
      rw [← String.append_assoc]
      exact hstem.moduleStem_join hdot hslash workspace
    simp only [Command.link, Command.compile, List.mem_cons, List.not_mem_nil, or_false] at hpath
    obtain rfl | rfl := hpath
    · exact hmade "js" (by decide) (by decide)
    · exact hmade "wasm" (by decide) (by decide)
  case declared =>
    intro s name hname
    have hbase := EntryName.isBase_of_ofDeclared? hname
    have hpart (p : List Char) : Path.BeforeLastDot name.toList p ↔
        p = (Path.splitExtension name.toList).1 := Path.beforeLastDot_iff.trans eq_comm
    exact ⟨_, hpart, reduces_moduleStem hbase.fileName?_eq ((hpart _).2 rfl)⟩

/-- Dots in front and behind, names that hide, directories and what is no name at all. -/
example : moduleStem "my interp.c" = "myinterp" ∧ moduleStem "..c" = "interpreter" ∧
    moduleStem ".calc" = "calc" ∧ moduleStem "a.b/c.d./." = "cd" ∧
    moduleStem "a/.." = "interpreter" := by decide +kernel

end LangBundle
