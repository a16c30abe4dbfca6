import LangBundle.Proofs.EntryNames

/-!
# What is left of a declared name

A declared name may be any text.  What stands behind its last separator loses its control characters
and then the white space at its two ends; what is left is a bare name, or it is nothing that can
name a file.

* `EntryName.IsBare`: **bare names**.
* `EntryName.LastPart`, `EntryName.Trims`: what stands behind the last separator, and what trimming
  leaves, said without the functions that compute them.
* `EntryName.Leaves.clean_eq`, `EntryName.leaves_clean`: **what is left** is one text, and it is the
  one that is computed.
* `EntryName.IsStemText.isBare`: **a name of two plain parts** is bare, hence kept.
* `EntryName.LastPart.append`, `EntryName.Strewn.leaves`: a directory in front, or control characters
  anywhere, **do not change** what is left.
* `EntryName.retracts_declared`: declared names are **retracted** onto the bare ones.
-/

namespace LangBundle.EntryName

open Text

/-- A bare name: a base name with no white space at its ends. -/
structure IsBare (name : String) : Prop extends IsBase name where
  first : ∀ c, name.toList.head? = some c → isBlank c = false
  last : ∀ c, name.toList.getLast? = some c → isBlank c = false

/-! ## The last part -/

/-- `part` is what stands behind the last separator of a text, or all of a text without one. -/
def LastPart (text part : List Char) : Prop :=
  (∀ c ∈ part, isSeparator c = false) ∧
    (text = part ∨ ∃ front sep, isSeparator sep = true ∧ text = front ++ sep :: part)

section
variable {text part front : List Char}

theorem LastPart.baseName_eq (h : LastPart text part) : baseName text = part := by
  obtain ⟨hfree, htext⟩ := h
  have hall : ∀ c ∈ part.reverse, (!isSeparator c) = true := by
    intro c hc
    rw [hfree c (List.mem_reverse.1 hc)]
    rfl
  rw [baseName]
  obtain rfl | ⟨front, sep, hsep, rfl⟩ := htext
  · rw [List.takeWhile_eq_self_iff.2 hall, List.reverse_reverse]
  · rw [List.reverse_append, List.reverse_cons, List.append_assoc,
      List.takeWhile_append_of_pos hall, List.singleton_append, List.takeWhile_cons_of_neg
        (by simp [hsep]), List.append_nil, List.reverse_reverse]

theorem lastPart_baseName (text : List Char) : LastPart text (baseName text) := by
  refine ⟨fun c hc => ?_, ?_⟩
  · have hfree := List.mem_takeWhile_imp (List.mem_reverse.1 hc)
    simpa using hfree
  have hsplit : text.reverse = (baseName text).reverse ++
      text.reverse.dropWhile (!isSeparator ·) := by
    rw [baseName, List.reverse_reverse, List.takeWhile_append_dropWhile]
  rcases hrest : text.reverse.dropWhile (!isSeparator ·) with _ | ⟨sep, front⟩
  · rw [hrest, List.append_nil] at hsplit
    exact .inl (List.reverse_inj.1 hsplit)
  · have hhead := List.head?_dropWhile_not (!isSeparator ·) text.reverse
    rw [hrest] at hsplit hhead
    refine .inr ⟨front.reverse, sep, by simpa using hhead, ?_⟩
    rw [← List.reverse_inj, hsplit]
    simp

/-- **A directory in front** does not change the last part. -/
theorem LastPart.append (h : LastPart text part) {sep : Char} (hsep : isSeparator sep = true) :
    LastPart (front ++ sep :: text) part := by
  obtain ⟨hfree, rfl | ⟨inner, sep', hsep', rfl⟩⟩ := h
  · exact ⟨hfree, .inr ⟨front, sep, hsep, rfl⟩⟩
  · exact ⟨hfree, .inr ⟨front ++ sep :: inner, sep', hsep', by simp⟩⟩

end

/-! ## Trimming -/

/-- `core` is a text without the white space at its ends. -/
structure Trims (text core : List Char) : Prop where
  around : ∃ left right, text = left ++ core ++ right ∧
    (∀ c ∈ left, isBlank c = true) ∧ ∀ c ∈ right, isBlank c = true
  first : ∀ c, core.head? = some c → isBlank c = false
  last : ∀ c, core.getLast? = some c → isBlank c = false

section
variable {text core : List Char}

/-- Blanks in front of what does not begin with one are dropped, and nothing else is. -/
theorem dropWhile_blanks {blanks rest : List Char} (hblanks : ∀ c ∈ blanks, isBlank c = true)
    (hrest : ∀ c, rest.head? = some c → isBlank c = false) :
    (blanks ++ rest).dropWhile isBlank = rest := by
  rw [List.dropWhile_append_of_pos hblanks]
  cases rest with
  | nil => rfl
  | cons c rest => exact List.dropWhile_cons_of_neg (by simp [hrest c rfl])

theorem Trims.trim_eq (h : Trims text core) : trim text = core := by
  obtain ⟨⟨left, right, rfl, hleft, hright⟩, hfirst, hlast⟩ := h
  have hright' : ∀ c ∈ right.reverse, isBlank c = true := fun c hc => hright c (List.mem_reverse.1 hc)
  rw [trim, List.append_assoc]
  cases core with
  | nil =>
    have hnone : (left ++ right).dropWhile isBlank = [] := by
      rw [List.dropWhile_eq_nil_iff]
      intro c hc
      exact (List.mem_append.1 hc).elim (hleft c) (hright c)
    rw [List.nil_append, hnone]
    rfl
  | cons c rest =>
    have hfront : (left ++ (c :: rest ++ right)).dropWhile isBlank = c :: rest ++ right :=
      dropWhile_blanks hleft fun d hd => hfirst d hd
    rw [hfront, List.reverse_append, dropWhile_blanks hright' fun d hd => ?_, List.reverse_reverse]
    rw [List.head?_reverse] at hd
    exact hlast d hd

theorem trims_trim (text : List Char) : Trims text (trim text) := by
  have hblank {cs : List Char} {c : Char} (hc : c ∈ cs.takeWhile isBlank) : isBlank c = true :=
    List.mem_takeWhile_imp hc
  have hhead (cs : List Char) (c : Char) (hc : (cs.dropWhile isBlank).head? = some c) :
      isBlank c = false := by
    have hnot := List.head?_dropWhile_not isBlank cs
    rwa [hc] at hnot
  have hfront := List.takeWhile_append_dropWhile (p := isBlank) (l := text)
  have hback := List.takeWhile_append_dropWhile (p := isBlank) (l := (text.dropWhile isBlank).reverse)
  generalize hinner : text.dropWhile isBlank = inner at hfront hback
  rw [← List.reverse_inj, List.reverse_append, List.reverse_reverse] at hback
  refine ⟨⟨text.takeWhile isBlank, (inner.reverse.takeWhile isBlank).reverse, ?_,
    fun c hc => hblank hc, fun c hc => hblank (List.mem_reverse.1 hc)⟩, fun c hc => ?_, fun c hc => ?_⟩
  · rw [trim, hinner, List.append_assoc, hback, hfront]
  · -- the first character is that of the text without the blanks in front
    rw [trim, hinner] at hc
    refine hhead text c ?_
    rw [hinner, ← hback, List.head?_append, hc]
    rfl
  · rw [trim, List.getLast?_reverse] at hc
    exact hhead _ c hc

end

/-! ## What is left -/

/-- `core` is left of a text: the part behind its last separator without control characters, and that
without the white space at its ends. -/
def Leaves (text core : List Char) : Prop :=
  ∃ part, LastPart text part ∧ Trims (part.filter (!isControl ·)) core

/-- What is left names no file if it is empty, or the directory itself, or the one above it. -/
def NamesNothing (core : List Char) : Prop :=
  core = [] ∨ core = ['.'] ∨ core = ['.', '.']

section
variable {text text' core core' : List Char}

theorem Leaves.clean_eq (h : Leaves text core) : clean text = core := by
  obtain ⟨part, hpart, htrims⟩ := h
  rw [clean, hpart.baseName_eq, htrims.trim_eq]

/-- **What is left** of a text. -/
theorem leaves_clean (text : List Char) : Leaves text (clean text) :=
  ⟨baseName text, lastPart_baseName text, trims_trim _⟩

/-- Texts of which the same is left are reduced to the same. -/
theorem ofDeclared?_congr {declared declared' : String}
    (h : Leaves declared'.toList (clean declared.toList)) :
    ofDeclared? declared' = ofDeclared? declared := by
  rw [ofDeclared?, ofDeclared?, h.clean_eq]

theorem namesNothing_iff : NamesNothing core ↔
    String.ofList core = "" ∨ String.ofList core = "." ∨ String.ofList core = ".." := by
  simp only [NamesNothing, ← String.toList_inj, String.toList_ofList]
  rfl

theorem ofDeclared?_eq_none_iff {declared : String} :
    ofDeclared? declared = none ↔ NamesNothing (clean declared.toList) := by
  rw [ofDeclared?, namesNothing_iff]
  split
  · next h => exact ⟨fun _ => h, fun _ => rfl⟩
  · next h => exact ⟨fun hnone => (nomatch hnone), fun hnothing => absurd hnothing h⟩

theorem ofDeclared?_eq_some_iff {declared name : String} : ofDeclared? declared = some name ↔
    name.toList = clean declared.toList ∧ ¬ NamesNothing name.toList := by
  rw [namesNothing_iff, String.ofList_toList, ofDeclared?]
  constructor
  · intro h
    split at h
    · cases h
    · next hname =>
      obtain rfl := Option.some.inj h
      exact ⟨String.toList_ofList, hname⟩
  · rintro ⟨hclean, hname⟩
    rw [← hclean, String.ofList_toList, if_neg hname]

/-- **What is kept** is a bare name. -/
theorem isBare_of_ofDeclared? {declared name : String} (h : ofDeclared? declared = some name) :
    IsBare name := by
  have hbase := isBase_of_ofDeclared? h
  obtain ⟨hclean, -⟩ := ofDeclared?_eq_some_iff.1 h
  have htrims := trims_trim ((baseName declared.toList).filter (!isControl ·))
  rw [show trim _ = name.toList from hclean.symm] at htrims
  exact ⟨hbase, htrims.first, htrims.last⟩

/-- **A bare name** is what is left of it. -/
theorem IsBare.leaves {name : String} (h : IsBare name) : Leaves name.toList name.toList := by
  have hcontrol : name.toList.filter (!isControl ·) = name.toList := by
    rw [List.filter_eq_self]
    intro c hc
    rw [(h.plain c hc).2]
    rfl
  refine ⟨name.toList, ⟨fun c hc => (h.plain c hc).1, .inl rfl⟩, ?_⟩
  rw [hcontrol]
  exact ⟨⟨[], [], by simp, by simp, by simp⟩, h.first, h.last⟩

theorem IsBare.ofDeclared?_eq {name : String} (h : IsBare name) : ofDeclared? name = some name := by
  refine ofDeclared?_eq_some_iff.2 ⟨h.leaves.clean_eq.symm, ?_⟩
  rw [namesNothing_iff, String.ofList_toList]
  rintro (hempty | hdot | hup)
  · exact h.not_empty hempty
  · exact h.not_dot hdot
  · exact h.not_up hup

/-! ## Names of a stem and an extension -/

theorem isBlank_of_isStemChar {c : Char} (h : isStemChar c = true) : isBlank c = false := by
  have hrange := toNat_of_isStemChar h
  simp [isBlank]
  omega

section
variable {stem extension : String} (hstem : IsStemText stem) (hextension : IsStemText extension)
include hstem hextension

/-- **A name of two plain parts** is bare. -/
theorem IsStemText.isBare : IsBare (stem ++ "." ++ extension) := by
  have hblank : ∀ c ∈ (stem ++ "." ++ extension).toList, isBlank c = false := by
    intro c hc
    rw [toList_named, List.mem_append, List.mem_cons] at hc
    obtain hc | rfl | hc := hc
    · exact isBlank_of_isStemChar (hstem.chars c hc)
    · decide
    · exact isBlank_of_isStemChar (hextension.chars c hc)
  have hrest : ∀ c ∈ ("." ++ extension).toList, IsPlainChar c := by
    intro c hc
    rw [String.toList_append, List.mem_append] at hc
    exact hc.elim (isPlainChar_of_all (by decide))
      fun hc => isPlainChar_of_isStemChar (hextension.chars c hc)
  have hbase := hstem.isBase_append hrest
  rw [← String.append_assoc] at hbase
  exact ⟨hbase, fun c hc => hblank c (List.mem_of_head? hc),
    fun c hc => hblank c (List.mem_of_getLast? hc)⟩

/-- A name that is declared so is kept. -/
theorem IsStemText.ofDeclared?_eq :
    ofDeclared? (stem ++ "." ++ extension) = some (stem ++ "." ++ extension) :=
  (hstem.isBare hextension).ofDeclared?_eq

end

/-! ## Control characters anywhere -/

/-- A text with control characters put in anywhere. -/
inductive Strewn : List Char → List Char → Prop
  | nil : Strewn [] []
  | keep (c : Char) {cs cs' : List Char} (h : Strewn cs cs') : Strewn (c :: cs) (c :: cs')
  | put {c : Char} (hc : isControl c = true) {cs cs' : List Char} (h : Strewn cs cs') :
      Strewn cs (c :: cs')

theorem not_isSeparator_of_isControl {c : Char} (h : isControl c = true) : isSeparator c = false := by
  rcases hsep : isSeparator c with _ | _
  · rfl
  · simp only [isSeparator, Bool.or_eq_true, beq_iff_eq] at hsep
    rcases hsep with rfl | rfl <;> exact absurd h (by decide)

/-- They are gone once control characters are. -/
theorem Strewn.filter_eq (h : Strewn text text') :
    text'.filter (!isControl ·) = text.filter (!isControl ·) := by
  induction h with
  | nil => rfl
  | keep c _ ih => rw [List.filter_cons, List.filter_cons, ih]
  | put hc _ ih => rw [List.filter_cons_of_neg (by simp [hc]), ih]

theorem Strewn.not_isSeparator (h : Strewn text text')
    (hfree : ∀ c ∈ text, isSeparator c = false) : ∀ c ∈ text', isSeparator c = false := by
  induction h with
  | nil => exact hfree
  | keep c _ ih =>
    rw [List.forall_mem_cons] at hfree ⊢
    exact ⟨hfree.1, ih hfree.2⟩
  | put hc _ ih =>
    rw [List.forall_mem_cons]
    exact ⟨not_isSeparator_of_isControl hc, ih hfree⟩

/-- What was behind a character still is, with control characters among it. -/
theorem Strewn.behind {front : List Char} {sep : Char} {part : List Char}
    (h : Strewn (front ++ sep :: part) text') :
    ∃ front' part', text' = front' ++ sep :: part' ∧ Strewn part part' := by
  generalize hall : front ++ sep :: part = all at h
  induction h generalizing front with
  | nil => simp at hall
  | @keep c cs cs' hrest ih =>
    cases front with
    | nil =>
      obtain ⟨rfl, rfl⟩ := List.cons.inj hall
      exact ⟨[], cs', rfl, hrest⟩
    | cons d front =>
      obtain ⟨rfl, htail⟩ := List.cons.inj hall
      obtain ⟨front', part', rfl, hpart⟩ := ih htail
      exact ⟨d :: front', part', rfl, hpart⟩
  | @put c _ cs cs' _ ih =>
    obtain ⟨front', part', rfl, hpart⟩ := ih hall
    exact ⟨c :: front', part', rfl, hpart⟩

/-- **Control characters anywhere** do not change what is left. -/
theorem Strewn.leaves (h : Strewn text text') (hleaves : Leaves text core) : Leaves text' core := by
  obtain ⟨part, ⟨hfree, htext⟩, htrims⟩ := hleaves
  obtain rfl | ⟨front, sep, hsep, rfl⟩ := htext
  · exact ⟨text', ⟨h.not_isSeparator hfree, .inl rfl⟩, h.filter_eq ▸ htrims⟩
  · obtain ⟨front', part', rfl, hpart⟩ := h.behind
    exact ⟨part', ⟨hpart.not_isSeparator hfree, .inr ⟨front', sep, hsep, rfl⟩⟩,
      hpart.filter_eq ▸ htrims⟩

end

/-! ## The retraction -/

/-- Texts are retracted onto the bare names. -/
structure Retracts (reduce : String → Option String) : Prop where
  /-- What comes out is a bare name, and stays as it is. -/
  image : ∀ s name, reduce s = some name → IsBare name ∧ reduce name = some name
  /-- A bare name stays as it is. -/
  bare : ∀ name, IsBare name → reduce name = some name
  /-- A directory in front does not count. -/
  inside : ∀ directory s, (∃ c, directory.toList.getLast? = some c ∧ isSeparator c = true) →
    reduce (directory ++ s) = reduce s
  /-- Control characters do not count, wherever they are. -/
  strewn : ∀ s s', Strewn s.toList s'.toList → reduce s' = reduce s
  /-- Nothing comes out exactly if what is left names nothing. -/
  none_iff : ∀ s, reduce s = none ↔ ∃ core, Leaves s.toList core ∧ NamesNothing core

/-- **Declared names** are retracted onto the bare names. -/
theorem retracts_declared : Retracts ofDeclared? := by
  refine ⟨fun s name h => ?_, fun name h => h.ofDeclared?_eq, ?inside, fun s s' h => ?_, fun s => ?_⟩
  case inside =>
    rintro directory s ⟨sep, hlast, hsep⟩
    obtain ⟨front, hfront⟩ := List.getLast?_eq_some_iff.1 hlast
    obtain ⟨part, hpart, htrims⟩ := leaves_clean s.toList
    refine ofDeclared?_congr ⟨part, ?_, htrims⟩
    rw [String.toList_append, hfront, List.append_assoc, List.singleton_append]
    exact hpart.append hsep
  · have hbare := isBare_of_ofDeclared? h
    exact ⟨hbare, hbare.ofDeclared?_eq⟩
  · exact ofDeclared?_congr (h.leaves (leaves_clean s.toList))
  · rw [ofDeclared?_eq_none_iff]
    refine ⟨fun h => ⟨_, leaves_clean s.toList, h⟩, ?_⟩
    rintro ⟨core, hleaves, h⟩
    rwa [hleaves.clean_eq]

/-- White space comes to light when control characters go, and dots when white space goes. -/
example : ofDeclared? "a/b\\ \x07\u00a0..\t\u2003" = none ∧
    ofDeclared? "a/b\\\x07 c d.y\x7f " = some "c d.y" := by decide +kernel

end LangBundle.EntryName
