import LangBundle.Path

/-!
# The names of a joined path

A plain name is one that stands for itself between the slashes of a path.

* `Path.names_join`: joining a plain name to a base adds that one name behind those of the base.
* `Path.join_eq_append`: as a text, a joined path is the base, at most one slash, and the name.
-/

namespace LangBundle

namespace Text

variable {α : Type} {divides : α → Bool}

/-- A row in which nothing divides is its only piece. -/
theorem piecesAt_of_all {row : List α} (h : ∀ a ∈ row, divides a = false) :
    piecesAt divides row = [row] := by
  induction row with
  | nil => rfl
  | cons a row ih =>
    have ha : divides a = false := h a List.mem_cons_self
    have hrow := ih fun b hb => h b (List.mem_cons_of_mem a hb)
    simp only [piecesAt, List.foldr_cons, ha, Bool.false_eq_true, if_false] at hrow ⊢
    rw [hrow]

/-- Nothing in a piece divides. -/
theorem not_divides_of_mem_piecesAt {row piece : List α} (h : piece ∈ piecesAt divides row) {a : α}
    (ha : a ∈ piece) : divides a = false := by
  induction row generalizing piece with
  | nil =>
    rw [piecesAt, List.foldr_nil, List.mem_singleton] at h
    rw [h] at ha
    cases ha
  | cons b row ih =>
    simp only [piecesAt, List.foldr_cons] at h ih
    by_cases hb : divides b
    · rw [if_pos hb, List.mem_cons] at h
      obtain rfl | h := h
      · cases ha
      · exact ih h ha
    · rw [if_neg hb] at h
      generalize List.foldr _ [[]] row = pieces at h ih
      cases pieces with
      | nil =>
        rw [List.mem_singleton] at h
        rw [h, List.mem_singleton] at ha
        simpa [ha] using hb
      | cons p rest =>
        obtain rfl | h := List.mem_cons.1 h
        · obtain rfl | ha := List.mem_cons.1 ha
          · simpa using hb
          · exact ih List.mem_cons_self ha
        · exact ih (List.mem_cons_of_mem p h) ha

/-- The pieces around an element that divides. -/
theorem piecesAt_append_cons {sep : α} (hsep : divides sep = true) (left right : List α) :
    piecesAt divides (left ++ sep :: right) =
      piecesAt divides left ++ piecesAt divides right := by
  induction left with
  | nil => simp only [piecesAt, List.nil_append, List.foldr_cons, List.foldr_nil, hsep, if_true,
      List.singleton_append]
  | cons a left ih =>
    simp only [List.cons_append, piecesAt, List.foldr_cons] at ih ⊢
    rw [ih]
    by_cases ha : divides a
    · simp [ha]
    · have hne := length_piecesAt divides left
      simp only [piecesAt] at hne
      generalize List.foldr _ [[]] left = pieces at hne ⊢
      cases pieces with
      | nil => simp at hne
      | cons p rest => simp [ha]

theorem split_ne_nil (sep : Char) (s : String) : split sep s ≠ [] := by
  have hlength := length_piecesAt (· == sep) s.toList
  intro h
  rw [List.map_eq_nil_iff.1 h] at hlength
  cases hlength

end Text

namespace Path

open Text

/-- A name that stands for itself in a path. -/
structure IsPlain (name : String) : Prop where
  noSlash : '/' ∉ name.toList
  not_empty : name ≠ ""
  not_dot : name ≠ "."

/-- A name without slashes that does not begin with a dot is plain, and does not lead up. -/
theorem isPlain_of_head {name : String} {c : Char} {cs : List Char} (h : name.toList = c :: cs)
    (hc : c ≠ '.') (hslash : '/' ∉ name.toList) : IsPlain name ∧ name ≠ ".." := by
  have hne {dots : String} (hdots : dots.toList.head? ≠ some c) : name ≠ dots := by
    rintro rfl
    exact hdots (by rw [h, List.head?_cons])
  exact ⟨⟨hslash, hne (by simp), hne (by simpa using hc.symm)⟩, hne (by simpa using hc.symm)⟩

theorem isAbsolute_eq_false {name : String} (h : '/' ∉ name.toList) : isAbsolute name = false := by
  unfold isAbsolute
  cases hn : name.toList with
  | nil => rfl
  | cons c cs =>
    rw [hn] at h
    have hc : c ≠ '/' := fun e => h (e ▸ List.mem_cons_self)
    simpa using hc

/-- What joining puts in front of a name. -/
theorem join_eq_append {name : String} (h : isAbsolute name = false) (base : String) :
    join base name = join base "" ++ name := by
  have hempty : isAbsolute "" = false := rfl
  simp only [join, h, hempty, Bool.false_or]
  split
  · simp
  · split
    · simp
    · rw [String.append_empty]

theorem isAbsolute_append {name : String} (h : name ≠ "") (rest : String) :
    isAbsolute (name ++ rest) = isAbsolute name := by
  obtain ⟨c, cs, hcs⟩ : ∃ c cs, name.toList = c :: cs :=
    List.exists_cons_of_ne_nil (by simpa using h)
  simp [isAbsolute, String.toList_append, hcs]

/-- A text behind a name stands behind the joined path. -/
theorem join_append {name : String} (h : name ≠ "") (habs : isAbsolute name = false)
    (base rest : String) : join base (name ++ rest) = join base name ++ rest := by
  rw [join_eq_append ((isAbsolute_append h rest).trans habs), join_eq_append habs,
    String.append_assoc]

/-- A joined path begins with the base. -/
theorem prefix_join {name : String} (h : isAbsolute name = false) (base : String) :
    base.toList <+: (join base name).toList := by
  simp only [join, h, Bool.false_or]
  split
  · next hbase => simp_all
  · split <;> simp [String.toList_append]

theorem split_of_noSlash {name : String} (h : '/' ∉ name.toList) : split '/' name = [name] := by
  have hpieces : piecesAt (· == '/') name.toList = [name.toList] :=
    piecesAt_of_all fun c hc => beq_false_of_ne (ne_of_mem_of_not_mem hc h)
  rw [split, hpieces, List.map_singleton, String.ofList_toList]

theorem split_append_slash (left right : String) :
    split '/' (left ++ "/" ++ right) = split '/' left ++ split '/' right := by
  have happend : (left ++ "/" ++ right).toList = left.toList ++ '/' :: right.toList := by
    simp [String.toList_append]
  rw [split, happend, piecesAt_append_cons (by decide), List.map_append]
  rfl

theorem names_of_isPlain {name : String} (h : IsPlain name) : names name = [name] := by
  have hempty := h.not_empty
  have hdot := h.not_dot
  simp [names, split_of_noSlash h.noSlash, hempty, hdot]

/-- A name is cut at its last dot. -/
theorem splitExtension_append {stem extension : List Char} (hne : stem ≠ [])
    (hdot : '.' ∉ extension) :
    splitExtension (stem ++ '.' :: extension) = (stem, some extension) := by
  have hnot : ∀ c ∈ extension.reverse, (c != '.') = true := by
    intro c hc
    rw [bne_iff_ne]
    rintro rfl
    exact hdot (List.mem_reverse.1 hc)
  obtain ⟨c, cs, rfl⟩ := List.exists_cons_of_ne_nil hne
  unfold splitExtension
  rw [List.reverse_append, List.reverse_cons, List.append_assoc,
    List.dropWhile_append_of_pos hnot, List.takeWhile_append_of_pos hnot]
  simp

theorem names_append_slash (left right : String) :
    names (left ++ "/" ++ right) = names left ++ names right := by
  rw [names, split_append_slash, List.filter_append]
  rfl

/-- Names with slashes between them are split into these names. -/
theorem split_intercalate {ns : List String} (hne : ns ≠ []) (h : ∀ n ∈ ns, '/' ∉ n.toList) :
    split '/' ("/".intercalate ns) = ns := by
  induction ns with
  | nil => exact absurd rfl hne
  | cons n ns ih =>
    have hn := split_of_noSlash (h n List.mem_cons_self)
    cases ns with
    | nil => rw [String.intercalate_singleton, hn]
    | cons m ns =>
      rw [String.intercalate_cons_cons, split_append_slash, hn,
        ih (List.cons_ne_nil m ns) fun k hk => h k (List.mem_cons_of_mem n hk)]
      rfl

/-- **Joining a plain name** adds it behind the names of the base. -/
theorem names_join {name : String} (h : IsPlain name) (base : String) :
    names (join base name) = names base ++ [name] := by
  have habs := isAbsolute_eq_false h.noSlash
  have hname := names_of_isPlain h
  simp only [join, habs, Bool.false_or]
  split
  · next hbase =>
    have hbase : base = "" := by simpa using hbase
    rw [hname, hbase]
    rfl
  · split
    · next hslash =>
      -- the base is cut before its last slash, which stands for the one that joins
      have hslash : base.toList.getLast? = some '/' := by simpa using hslash
      obtain ⟨front, hfront⟩ := List.getLast?_eq_some_iff.1 hslash
      have hbase : base = String.ofList front ++ "/" := by
        rw [← String.toList_inj, hfront]
        simp [String.toList_append]
      have hempty : names "" = [] := rfl
      have hcut := names_append_slash (String.ofList front) ""
      rw [String.append_empty, hempty, List.append_nil] at hcut
      rw [hbase, names_append_slash, hname, hcut]
    · rw [names_append_slash, hname]

/-- The last name of a joined path. -/
theorem fileName?_join {name : String} (h : IsPlain name) (hup : name ≠ "..") (base : String) :
    fileName? (join base name) = some name := by
  rw [fileName?, names_join h, List.getLast?_concat]
  split
  · next heq => exact absurd (Option.some.inj heq) hup
  · rfl

theorem fileName?_of_isPlain {name : String} (h : IsPlain name) (hup : name ≠ "..") :
    fileName? name = some name := by
  have hjoin : join "" name = name := by simp [join]
  have hname := fileName?_join h hup ""
  rwa [hjoin] at hname

theorem isAbsolute_join {name : String} (h : isAbsolute name = false) (base : String) :
    isAbsolute (join base name) = isAbsolute base := by
  simp only [join, h, Bool.false_or]
  split
  · next hbase =>
    have hbase : base = "" := by simpa using hbase
    rw [h, hbase]
    rfl
  · next hbase =>
    have hne : base ≠ "" := by simpa using hbase
    split
    · rw [isAbsolute_append hne]
    · rw [String.append_assoc, isAbsolute_append hne]

/-! ## Paths to go on from -/

/-- A path behind which a slash and a name can stand. -/
structure IsOpen (path : String) : Prop where
  not_empty : path ≠ ""
  last : path.toList.getLast? ≠ some '/'

theorem isOpen_append {name : String} (h : IsPlain name) (front : String) :
    IsOpen (front ++ name) := by
  obtain ⟨cs, c, hcs⟩ : ∃ cs c, name.toList = cs ++ [c] := by
    obtain h' | ⟨cs, c, hcs⟩ := List.eq_nil_or_concat name.toList
    · exact absurd (by simpa using h') h.not_empty
    · exact ⟨cs, c, by simpa using hcs⟩
  refine ⟨fun heq => h.not_empty (by simpa using (String.append_eq_empty_iff.1 heq).2), ?_⟩
  rw [String.toList_append, hcs, ← List.append_assoc, List.getLast?_concat]
  rintro heq
  refine h.noSlash ?_
  rw [hcs, Option.some.inj heq]
  simp

theorem isOpen_join {name : String} (h : IsPlain name) (base : String) :
    IsOpen (join base name) := by
  rw [join_eq_append (isAbsolute_eq_false h.noSlash)]
  exact isOpen_append h _

section
variable {base : String} (hbase : IsOpen base)
include hbase

theorem join_of_isOpen {name : String} (habs : isAbsolute name = false) :
    join base name = base ++ "/" ++ name := by
  have hempty : base.isEmpty = false := by simpa using hbase.not_empty
  have hlast : (base.toList.getLast? == some '/') = false := by simpa using hbase.last
  simp [join, habs, hempty, hlast]

theorem split_join {name : String} (h : '/' ∉ name.toList) :
    split '/' (join base name) = split '/' base ++ [name] := by
  rw [join_of_isOpen hbase (isAbsolute_eq_false h), split_append_slash, split_of_noSlash h]

end

theorem isPlain_of_mem_names {path name : String} (h : name ∈ names path) : IsPlain name := by
  obtain ⟨hsplit, hname⟩ := List.mem_filter.1 h
  obtain ⟨piece, hpiece, rfl⟩ := List.mem_map.1 hsplit
  have hne : String.ofList piece ≠ "" ∧ String.ofList piece ≠ "." := by simpa using hname
  refine ⟨fun hslash => ?_, hne.1, hne.2⟩
  rw [String.toList_ofList] at hslash
  simpa using not_divides_of_mem_piecesAt hpiece hslash

/-- A path of the names of another one, one slash between each two. -/
def normal (path : String) : String :=
  (if isAbsolute path then "/" else "") ++ "/".intercalate (names path)

section
variable {name : String} (hname : IsPlain name) (base : String)
include hname

theorem normal_join : ∃ front, normal (join base name) = front ++ name := by
  rw [normal, names_join hname]
  by_cases hnames : names base = []
  · rw [hnames, List.nil_append, String.intercalate_singleton]
    exact ⟨_, rfl⟩
  · rw [String.intercalate_append_of_ne_nil hnames (by simp), String.intercalate_singleton,
      ← String.append_assoc]
    exact ⟨_, rfl⟩

theorem isAbsolute_normal_join : isAbsolute (normal (join base name)) = isAbsolute base := by
  rw [normal, isAbsolute_join (isAbsolute_eq_false hname.noSlash), names_join hname]
  by_cases habs : isAbsolute base
  · rw [if_pos habs, habs, isAbsolute_append (by decide)]
    rfl
  · have hplain : ∀ n ∈ names base ++ [name], IsPlain n := by
      intro n hn
      obtain hn | hn := List.mem_append.1 hn
      · exact isPlain_of_mem_names hn
      · rwa [List.mem_singleton.1 hn]
    rw [if_neg habs, String.empty_append, Bool.eq_false_iff.2 habs]
    generalize names base ++ [name] = ns at hplain
    cases ns with
    | nil => rfl
    | cons n ns =>
      have hn := hplain n List.mem_cons_self
      have hfirst := isAbsolute_eq_false hn.noSlash
      cases ns with
      | nil => rwa [String.intercalate_singleton]
      | cons m ns =>
        rw [String.intercalate_cons_cons, String.append_assoc, isAbsolute_append hn.not_empty,
          hfirst]

theorem split_normal_join : split '/' (normal (join base name)) =
    (if isAbsolute base then [""] else []) ++ (names base ++ [name]) := by
  have hplain : ∀ n ∈ names base ++ [name], '/' ∉ n.toList := by
    intro n hn
    obtain hn | hn := List.mem_append.1 hn
    · exact (isPlain_of_mem_names hn).noSlash
    · rw [List.mem_singleton.1 hn]
      exact hname.noSlash
  have hsplit := split_intercalate (by simp) hplain
  rw [normal, isAbsolute_join (isAbsolute_eq_false hname.noSlash), names_join hname]
  by_cases habs : isAbsolute base
  · rw [if_pos habs, if_pos habs]
    have hslash := split_append_slash "" ("/".intercalate (names base ++ [name]))
    rw [String.empty_append, hsplit] at hslash
    rw [hslash]
    rfl
  · rw [if_neg habs, if_neg habs, String.empty_append, hsplit]
    rfl

end

end Path

end LangBundle
