import Mathlib.Algebra.GroupWithZero.Nat
import Mathlib.Data.String.Basic
import LangBundle.Proofs.Assembling
import LangBundle.Proofs.EntryNames

/-!
# How long names may be

A name that is too long for the file system names no file, and one that is too long for an archive
names no entry.  The names of a build come from the declared names of its inputs, so these decide
whether the module and the archives can be written.

* `short_of_resolve`: where a path leads, its last name and itself are short.
* `length_deflate_le`, `length_write`: **how long** blocks and archives get.
* `Bundle.Contents.fit_iff`: **all entries fit** exactly if all data do, once the names fit.
* `NamesFit`: the names of a build fit; `NamesFit.of_le`: they do if the declared names are short.
* `namesFit_of_build`: **no build succeeds** whose names do not fit.
-/

namespace LangBundle

open Files Files.Tree

/-! ## Names in paths -/

namespace Files.Tree

/-- The last name of a walk that succeeds is short. -/
theorem Walks.short {t : Tree} {follow : Bool} {links : Nat} {dir p : Place} {todo : List String}
    (h : t.Walks follow links dir todo p) {front : List String} {name : String}
    (htodo : todo = front ++ [name]) (hname : Path.IsPlain name ∧ name ≠ "..") :
    name.utf8ByteSize ≤ maxName := by
  induction h generalizing front with
  | here => simp at htodo
  | @stay _ _ _ _ first rest _ hfirst _ ih =>
    rcases front with _ | ⟨other, front⟩
    · obtain ⟨rfl, -⟩ : first = name ∧ rest = [] := by simpa using htodo
      rcases hfirst with hempty | ⟨hdot, -⟩
      · exact absurd hempty hname.1.not_empty
      · exact absurd hdot hname.1.not_dot
    · exact ih (List.cons.inj htodo).2
  | up _ _ _ ih =>
    rcases front with _ | ⟨other, front⟩
    · exact absurd (List.cons.inj htodo).1.symm hname.2
    · exact ih (List.cons.inj htodo).2
  | stop henter _ _ =>
    rcases front with _ | ⟨other, front⟩
    · rw [← (List.cons.inj htodo).1]
      exact henter.short
    · simp at htodo
  | @jump _ _ _ _ target _ henter _ _ _ _ ih =>
    rcases front with _ | ⟨other, front⟩
    · rw [← (List.cons.inj htodo).1]
      exact henter.short
    · have hrest := (List.cons.inj htodo).2
      exact @ih (Text.split '/' target ++ front) (by rw [hrest, List.append_assoc]; rfl)
  | down henter _ _ ih =>
    rcases front with _ | ⟨other, front⟩
    · rw [← (List.cons.inj htodo).1]
      exact henter.short
    · exact ih (List.cons.inj htodo).2

/-- **A path** that leads somewhere is short, and so is its last name. -/
theorem short_of_resolve {t : Tree} {cwd p : Place} {path name below : String} {follow : Bool}
    (hbelow : Path.Continues path [name] below) (h : t.resolve cwd below follow = .ok p) :
    name.utf8ByteSize ≤ maxName ∧ below.utf8ByteSize < maxPath := by
  unfold resolve at h
  rw [ite_eq_iff, ite_eq_iff, ite_eq_iff] at h
  obtain ⟨-, h⟩ | ⟨-, ⟨-, h⟩ | ⟨-, ⟨-, h⟩ | ⟨hlong, h⟩⟩⟩ := h
  any_goals cases h
  refine ⟨?_, Nat.lt_of_not_le hlong⟩
  rw [hbelow.split] at h
  exact (walks_of_walk h).short rfl (hbelow.plain name List.mem_cons_self)

end Files.Tree

/-! ## How long archives get -/

namespace Utf8

theorem length_encodeChar (c : Char) : (encodeChar c).length = c.utf8Size := by
  have hle (n : UInt32) : c.val ≤ n ↔ c.toNat ≤ n.toNat := UInt32.le_iff_toNat_le
  simp only [encodeChar, Char.utf8Size, hle]
  split_ifs <;> simp_all <;> omega

/-- A text takes as many bytes as its size tells. -/
theorem length_ofString (s : String) : (ofString s).length = s.utf8ByteSize := by
  rw [← String.utf8Len_toList, ofString, encode]
  induction s.toList with
  | nil => rfl
  | cons c cs ih =>
    rw [List.flatMap_cons, List.length_append, length_encodeChar, ih, String.utf8Len_cons,
      Nat.add_comm]

end Utf8

namespace Archive

theorem length_block (last : Bool) (data : Bytes) : (block last data).length = data.length + 5 := by
  simp [block]
  omega

/-- **Blocks** take five bytes each. -/
theorem length_deflate_le (data : Bytes) :
    (deflate data).length ≤ data.length + 5 * (data.length / maxBlock + 1) := by
  induction hn : data.length using Nat.strongRecOn generalizing data with
  | ind n ih =>
    by_cases h : data.length ≤ maxBlock
    · rw [deflate_of_le h, length_block, hn]
      exact Nat.add_le_add_left (Nat.le_mul_of_pos_right 5 (Nat.succ_pos _)) n
    · have hlong : maxBlock < n := hn ▸ Nat.lt_of_not_le h
      have hrest : (data.drop maxBlock).length = n - maxBlock := by rw [List.length_drop, hn]
      have hfirst : (data.take maxBlock).length = maxBlock := by
        rw [List.length_take, Nat.min_eq_left (Nat.le_of_not_le h)]
      have hless := ih (n - maxBlock) (Nat.sub_lt (by omega) (by decide)) _ hrest
      rw [deflate_of_gt h, List.length_append, length_block, hfirst]
      unfold maxBlock at hlong hless ⊢
      omega

/-- What an entry takes: two headers, its name twice, and its blocks. -/
def Entry.room (e : Entry) : Nat :=
  76 + 2 * (Utf8.ofString e.name).length + (deflate e.data).length

theorem length_directory (entries : List Entry) (directory : Bytes) (offset : Nat) :
    (entries.foldl addToDirectory (directory, offset)).1.length =
      directory.length + (entries.map fun e => 46 + (Utf8.ofString e.name).length).sum := by
  induction entries generalizing directory offset with
  | nil => simp
  | cons e rest ih =>
    rw [List.foldl_cons, addToDirectory, ih]
    simp [directoryRecord, directoryMark, length_commonHeader]
    omega

/-- **An archive** takes what its entries take, and 22 bytes at the end. -/
theorem length_write (entries : List Entry) :
    (write entries).length = (entries.map Entry.room).sum + 22 := by
  have hrecords : (entries.map entryRecord).flatten.length +
      (entries.map fun e => 46 + (Utf8.ofString e.name).length).sum =
        (entries.map Entry.room).sum := by
    induction entries with
    | nil => rfl
    | cons e rest ih =>
      simp only [List.map_cons, List.flatten_cons, List.length_append, List.sum_cons, Entry.room,
        entryRecord, length_commonHeader] at ih ⊢
      simp only [entryMark, List.length_cons, List.length_nil]
      omega
  have hdirectory := length_directory entries [] 0
  rw [write]
  rcases hfold : entries.foldl addToDirectory ([], 0) with ⟨directory, size⟩
  rw [hfold, List.length_nil] at hdirectory
  simp only [endMark, List.length_append, length_number, List.length_cons, List.length_nil]
    at hdirectory ⊢
  omega

/-- An entry fits if its name and its blocks do. -/
theorem Entry.fault?_eq_none_iff (e : Entry) :
    e.fault? = none ↔
      (Utf8.ofString e.name).length ≤ 65535 ∧ (deflate e.data).length < 0x100000000 := by
  unfold Entry.fault?
  split_ifs <;> simp <;> omega

end Archive

/-! ## Entries that fit -/

namespace Bundle

/-- Data that an entry can hold. -/
def IsShort (data : Bytes) : Prop :=
  (Archive.deflate data).length < 0x100000000

/-- A name that an entry can have. -/
def IsBrief (name : String) : Prop :=
  (Utf8.ofString name).length ≤ 65535

/-- The name of one entry is one of the first candidates. -/
theorem exists_candidate_eq_freeName (taken : List String) (label entryName : String) :
    ∃ n ≤ taken.length, freeName taken label entryName = candidate label entryName n := by
  obtain ⟨n, hname, -, hbefore⟩ := freeName_eq_candidate taken label entryName
  obtain ⟨k, hk, hfree⟩ := exists_free taken label entryName
  refine ⟨n, le_trans (Nat.le_of_not_lt fun hlt => hfree (hbefore k hlt)) hk, hname⟩

/-- **The names of all entries** are some of the first candidates. -/
theorem exists_candidate_of_mem {artifacts : List Artifact} {name : String}
    (h : name ∈ entryNames artifacts) :
    ∃ a ∈ artifacts, ∃ n < artifacts.length, name = candidate a.label a.entryName n := by
  suffices hall : ∀ taken, name ∈ entryNamesAfter taken artifacts → name ∉ taken →
      ∃ a ∈ artifacts, ∃ n < taken.length + artifacts.length,
        name = candidate a.label a.entryName n by
    simpa using hall [] h
  clear h
  intro taken hmem hnot
  induction artifacts generalizing taken with
  | nil => exact absurd (List.mem_reverse.1 hmem) hnot
  | cons a rest ih =>
    obtain ⟨n, hn, hname⟩ := exists_candidate_eq_freeName taken a.label a.entryName
    by_cases heq : name = freeName taken a.label a.entryName
    · refine ⟨a, List.mem_cons_self, n, ?_, heq.trans hname⟩
      rw [List.length_cons]
      omega
    · obtain ⟨b, hb, m, hm, hfound⟩ := ih _ hmem (by simp [heq, hnot])
      refine ⟨b, List.mem_cons_of_mem a hb, m, ?_, hfound⟩
      rw [List.length_cons] at hm ⊢
      omega

/-- A candidate with a number of one digit. -/
theorem utf8ByteSize_candidate_le (label entryName : String) {n : Nat} (hn : n < 10) :
    (candidate label entryName n).utf8ByteSize ≤
      label.utf8ByteSize + 3 + entryName.utf8ByteSize := by
  have hdigit : ∀ k < 10, (toString k).utf8ByteSize ≤ 1 := by decide
  have hyphen : "-".utf8ByteSize = 1 := rfl
  rcases n with _ | _ | n
  · rw [candidate]
    omega
  · rw [candidate, String.utf8ByteSize_append, String.utf8ByteSize_append]
    omega
  · have := hdigit (n + 2) hn
    simp only [candidate, String.utf8ByteSize_append]
    omega

/-- The names of few entries are brief if those of the artifacts are. -/
theorem isBrief_entryNames {artifacts : List Artifact} (hfew : artifacts.length ≤ 10)
    (h : ∀ a ∈ artifacts, a.label.utf8ByteSize ≤ 30 ∧ a.entryName.utf8ByteSize ≤ 65500)
    {name : String} (hname : name ∈ entryNames artifacts) : IsBrief name := by
  obtain ⟨a, ha, n, hn, rfl⟩ := exists_candidate_of_mem hname
  have hsize := utf8ByteSize_candidate_le a.label a.entryName (hn.trans_le hfew)
  obtain ⟨hlabel, hentry⟩ := h a ha
  rw [IsBrief, Utf8.length_ofString]
  omega

/-- Entries fit if all names and all data do. -/
theorem entriesFor_fit_iff {artifacts : List Artifact} {data : List Bytes}
    (hlength : artifacts.length = data.length) :
    (∀ e ∈ entriesFor artifacts data, e.fault? = none) ↔
      (∀ name ∈ entryNames artifacts, IsBrief name) ∧ ∀ d ∈ data, IsShort d := by
  rw [← length_entryNames artifacts] at hlength
  unfold entriesFor
  generalize entryNames artifacts = names at hlength
  induction names generalizing data with
  | nil =>
    obtain rfl := List.length_eq_zero_iff.1 hlength.symm
    simp
  | cons name names ih =>
    obtain ⟨d, data, rfl⟩ := List.exists_cons_of_length_eq_add_one hlength.symm
    have hrest : names.length = data.length := by simpa using hlength
    simp only [List.zipWith_cons_cons, List.forall_mem_cons]
    rw [ih hrest, Archive.Entry.fault?_eq_none_iff]
    exact and_and_and_comm

section
variable {base : Tree} {cwd ws : Place} {path archive name : String} {h h' : Host}
  (hsite : base.Site cwd path ws) (htidy : Tidy ws base h.files) (hcwd : h.cwd = cwd)
include hsite htidy hcwd

/-- **The entries** of an archive that was written fit. -/
theorem fit_of_writeArchive (harchive : Path.Continues path [name] archive)
    {artifacts : List Artifact} {data : List Bytes}
    (hoffers : List.Forall₂ (fun a d => h.files.Offers cwd a.path d ∧ ∃ names,
      Path.Continues path names a.path ∧ names ≠ [name]) artifacts data)
    {u : Unit} (hwrite : writeArchive archive artifacts h = .ok u h') :
    ∀ e ∈ entriesFor artifacts data, e.fault? = none := by
  subst hcwd
  obtain ⟨sink, t, entries, t', hopen, hfaults, hall, -, -⟩ := writeArchive_eq_ok hwrite
  obtain ⟨p, hp, hopened⟩ := openWrite_eq_ok hopen
  obtain rfl := htidy.resolve_continues hsite harchive hp
  have hreal := isReal_of_resolve hsite.real hp
  have hbelow := List.prefix_append ws [name]
  have htidy₁ : Tidy ws base t := htidy.opened hsite.real hp hbelow hopened
  have hagree := (htidy.toUnlinked.opened_eq hreal hbelow hopened).2
  suffices hentries : entries = entriesFor artifacts data by rwa [← hentries]
  clear hfaults hwrite
  have hlength := length_entryNames artifacts
  unfold entriesFor
  generalize entryNames artifacts = names at hlength hall
  -- an artifact's data is what its file offers, for the archive is another file
  induction hoffers generalizing names entries with
  | nil =>
    obtain rfl := List.length_eq_zero_iff.1 hlength
    cases hall
    rfl
  | cons hfirst _ ih =>
    obtain ⟨first, rest, rfl⟩ := List.exists_cons_of_length_eq_add_one hlength
    obtain ⟨hoffer, other, hcontinues, hne⟩ := hfirst
    rw [List.zip_cons_cons] at hall
    cases hall with
    | @cons _ e _ _ hentry hrest =>
      obtain ⟨hname, hread⟩ := hentry
      obtain ⟨source, hopen', hread'⟩ := (hoffer.of_agree hsite htidy hopened.sameShape hcontinues
        hagree hne).read_ok htidy₁.sound
      rw [Tree.read, hopen'] at hread
      have hdata : e.data = _ := Except.ok.inj (hread.symm.trans hread')
      rw [List.zipWith_cons_cons, ← ih _ rest (by simpa using hlength) hrest, ← hdata]
      exact congrArg (fun name => (⟨name, e.data⟩ : Archive.Entry) :: _) hname

end

/-- The most that a source holds for the archive of the sources to fit under all names. -/
def maxSource : Nat :=
  0x40000000

/-- **The archive of the sources** fits if no source is too long, whatever the names are. -/
theorem isShort_packed {c : Contents} {a : ArtifactSet}
    (hnames : ∀ name ∈ entryNames a.sources, IsBrief name)
    (hsources : ∀ d ∈ c.sources, d.length ≤ maxSource) : IsShort (c.packed a) := by
  have hroom {e : Archive.Entry} (hname : IsBrief e.name) (hdata : e.data.length ≤ maxSource) :
      e.room ≤ 0x40040000 := by
    have hblocks := Archive.length_deflate_le e.data
    have hcount : e.data.length / Archive.maxBlock ≤ maxSource / Archive.maxBlock :=
      Nat.div_le_div_right hdata
    rw [show maxSource / Archive.maxBlock = 16384 from rfl] at hcount
    unfold IsBrief at hname
    unfold Archive.Entry.room
    unfold maxSource at hdata
    omega
  obtain ⟨first, second, third, hthree⟩ : ∃ x y z, entryNames a.sources = [x, y, z] := by
    rw [← List.length_eq_three, length_entryNames]
    rfl
  rw [hthree] at hnames
  have hwrite : (c.packed a).length ≤ 3 * 0x40040000 + 22 := by
    rw [Contents.packed, Archive.length_write, entriesFor, hthree, Contents.sources]
    simp only [List.zipWith_cons_cons, List.zipWith_nil_left, List.map_cons, List.map_nil,
      List.sum_cons, List.sum_nil]
    have hlexer := hroom (e := ⟨first, c.lexer⟩) (hnames first (by simp))
      (hsources c.lexer (by simp [Contents.sources]))
    have hparser := hroom (e := ⟨second, c.parser⟩) (hnames second (by simp))
      (hsources c.parser (by simp [Contents.sources]))
    have hinterpreter := hroom (e := ⟨third, c.interpreter⟩) (hnames third (by simp))
      (hsources c.interpreter (by simp [Contents.sources]))
    omega
  have hblocks := Archive.length_deflate_le (c.packed a)
  have hcount : (c.packed a).length / Archive.maxBlock ≤ (3 * 0x40040000 + 22) / Archive.maxBlock :=
    Nat.div_le_div_right hwrite
  rw [show (3 * 0x40040000 + 22) / Archive.maxBlock = 49164 from rfl] at hcount
  unfold IsShort
  omega

/-- **All entries fit** exactly if all data do, once the names fit. -/
theorem Contents.fit_iff {c : Contents} {a : ArtifactSet} {directory : String}
    (hnames : ∀ name ∈ entryNames a.sources, IsBrief name)
    (hresult : ∀ name ∈ entryNames (resultArtifacts a directory), IsBrief name)
    (hsources : ∀ d ∈ c.sources, d.length ≤ maxSource) :
    c.Fit a directory ↔ ∀ d ∈ c.sources ++ c.deliverables, IsShort d := by
  have hfirst := entriesFor_fit_iff (show a.sources.length = c.sources.length from rfl)
  have hsecond := entriesFor_fit_iff
    (show (resultArtifacts a directory).length = (c.packed a :: c.deliverables).length from rfl)
  rw [List.forall_mem_append]
  refine ⟨fun hfit => ?_, fun hshort => ⟨hfirst.2 ⟨hnames, hshort.1⟩, hsecond.2 ⟨hresult, ?_⟩⟩⟩
  · exact ⟨(hfirst.1 hfit.sources).2, (List.forall_mem_cons.1 (hsecond.1 hfit.result).2).2⟩
  · exact List.forall_mem_cons.2 ⟨isShort_packed hnames hsources, hshort.2⟩

end Bundle

open Bundle (IsBrief)

/-- **The entries** of both archives that were written fit. -/
theorem fit_of_assemble {base : Tree} {cwd ws : Place} {path : String} {h h' : Host}
    (hsite : base.Site cwd path ws) (hpath : Path.IsOpen path) (htidy : Tidy ws base h.files)
    (hcwd : h.cwd = cwd) (supply : Role → Supply)
    (harchives : ∀ name ∈ archiveNames, h.files.CanMake cwd (Path.join path name))
    {c : Bundle.Contents} (hoffers :
      let a := Stage.artifacts path (.ofSupplies path supply)
      List.Forall₂ (fun a d => h.files.Offers cwd a.path d) (a.sources ++ a.deliverables)
        (c.sources ++ c.deliverables)) {bundle : String}
    (hassemble : Bundle.assemble (Stage.artifacts path (.ofSupplies path supply)) path h =
      .ok bundle h') :
    c.Fit (Stage.artifacts path (.ofSupplies path supply)) path := by
  dsimp only at hoffers
  have hbeside {archive : String} (harchive : archive ∈ archiveNames) (b : Artifact)
      (hb : b ∈ (Stage.artifacts path (.ofSupplies path supply)).sources ++
        (Stage.artifacts path (.ofSupplies path supply)).deliverables) :
      ∃ names, Path.Continues path names b.path ∧ names ≠ [archive] := by
    obtain ⟨names, hcontinues, hne⟩ := continues_artifact hpath supply hb
    exact ⟨names, hcontinues, hne archive harchive⟩
  generalize Stage.artifacts path (.ofSupplies path supply) = a at hoffers hassemble hbeside ⊢
  have hsources : Bundle.sourcesArchive ∈ archiveNames := by simp [archiveNames]
  have hresult : Bundle.resultArchive ∈ archiveNames := by simp [archiveNames]
  have hother : [Bundle.sourcesArchive] ≠ [Bundle.resultArchive] := by decide
  have hsplit : (a.sources ++ a.deliverables).zip (c.sources ++ c.deliverables) =
      a.sources.zip c.sources ++ a.deliverables.zip c.deliverables :=
    List.zip_append rfl
  have hboth {b : Artifact} {d : Bytes}
      (hmem : (b, d) ∈ a.sources.zip c.sources ++ a.deliverables.zip c.deliverables) :
      h.files.Offers cwd b.path d :=
    (List.forall₂_iff_zip.1 hoffers).2 (hsplit ▸ hmem)
  have hfirst : List.Forall₂ (fun b d => h.files.Offers cwd b.path d ∧ ∃ names,
      Path.Continues path names b.path ∧ names ≠ [Bundle.sourcesArchive]) a.sources c.sources :=
    List.forall₂_iff_zip.2 ⟨rfl, fun {b d} hmem => ⟨hboth (List.mem_append_left _ hmem),
      hbeside hsources b (List.mem_append_left _ (List.of_mem_zip hmem).1)⟩⟩
  obtain ⟨u, h₁, hwrite, hrest⟩ := Service.bind_eq_ok hassemble
  have hfit := Bundle.fit_of_writeArchive hsite htidy hcwd (continues_archive hpath hsources)
    hfirst hwrite
  obtain ⟨t, hwrite', htidy₁, hgrows, hagree, hpacked⟩ := Bundle.writeArchive_ok hsite htidy hcwd
    (continues_archive hpath hsources) (harchives _ hsources) a.sources c.sources hfirst hfit
  obtain rfl : h₁ = { h with files := t } := by
    rw [hwrite'] at hwrite
    cases hwrite
    rfl
  obtain ⟨u', h₂, hsecond, -⟩ := Service.bind_eq_ok hrest
  refine ⟨hfit, Bundle.fit_of_writeArchive (h := { h with files := t }) hsite htidy₁ hcwd
    (continues_archive hpath hresult)
    (.cons ⟨hpacked, _, continues_archive hpath hsources, hother⟩
      (List.forall₂_iff_zip.2 ⟨rfl, fun {b d} hmem => ?_⟩)) hsecond⟩
  have hb := List.mem_append_right a.sources (List.of_mem_zip hmem).1
  obtain ⟨names, hcontinues, hne⟩ := hbeside hsources b hb
  exact ⟨(hboth (List.mem_append_right _ hmem)).of_agree hsite htidy hgrows.shape hcontinues hagree
    hne, hbeside hresult b hb⟩

/-! ## The names of a build -/

/-- The names that a build makes of the declared ones are not too long: those of the module's two
files, and those of the entries of both archives. -/
structure NamesFit (path : String) (supply : Role → Supply) : Prop where
  stem : (moduleStem ((supply .interpreter).entryName .interpreter)).utf8ByteSize + 5 ≤ maxName
  room : path.utf8ByteSize + 1 +
    ((moduleStem ((supply .interpreter).entryName .interpreter)).utf8ByteSize + 5) < maxPath
  sources : ∀ name ∈ Bundle.entryNames (Stage.artifacts path (.ofSupplies path supply)).sources,
    IsBrief name
  result : ∀ name ∈ Bundle.entryNames
    (Bundle.resultArtifacts (Stage.artifacts path (.ofSupplies path supply)) path), IsBrief name

/-- Names fit if the stem of the module is short and the inputs are called by names that leave some
room for a label. -/
theorem NamesFit.of_le {path : String} {supply : Role → Supply}
    (hstem : (moduleStem ((supply .interpreter).entryName .interpreter)).utf8ByteSize ≤ 250)
    (hpath : path.utf8ByteSize ≤ 3839)
    (hnames : ∀ role, ((supply role).entryName role).utf8ByteSize ≤ 65500) :
    NamesFit path supply := by
  have hmodule {suffix : String} (hsuffix : suffix = ".js" ∨ suffix = ".wasm") :
      (moduleStem ((supply .interpreter).entryName .interpreter) ++ suffix).utf8ByteSize ≤ 65500 := by
    rw [String.utf8ByteSize_append]
    have hbytes : suffix.utf8ByteSize ≤ 5 := by
      rcases hsuffix with rfl | rfl <;> decide
    omega
  have hfixed : ∀ name ∈ [Stage.lexerSource, Stage.parserSource, Bundle.sourcesArchive],
      name.utf8ByteSize ≤ 65500 := by
    decide
  have hlabels : ∀ label ∈ ["lexer", "parser", "interpreter", "sources", "module", "documentation",
      "example"], label.utf8ByteSize ≤ 30 := by
    decide
  simp only [List.forall_mem_cons] at hfixed hlabels
  obtain ⟨hlexer, hparser, harchive, -⟩ := hfixed
  obtain ⟨hlexer', hparser', hinterpreter', hsources', hmodule', hdocumentation', hexample', -⟩ :=
    hlabels
  refine ⟨Nat.add_le_add_right hstem 5, ?_,
    fun name => Bundle.isBrief_entryNames (Nat.le_of_ble_eq_true rfl) ?_,
    fun name => Bundle.isBrief_entryNames (Nat.le_of_ble_eq_true rfl) ?_⟩
  · unfold maxPath
    omega
  · exact List.forall_mem_cons.2 ⟨⟨hlexer', hlexer⟩, List.forall_mem_cons.2 ⟨⟨hparser', hparser⟩,
      List.forall_mem_singleton.2 ⟨hinterpreter', hnames .interpreter⟩⟩⟩
  · exact List.forall_mem_cons.2 ⟨⟨hsources', harchive⟩,
      List.forall_mem_cons.2 ⟨⟨hmodule', hmodule (.inl rfl)⟩,
      List.forall_mem_cons.2 ⟨⟨hmodule', hmodule (.inr rfl)⟩,
      List.forall_mem_cons.2 ⟨⟨hdocumentation', hnames .documentation⟩,
      List.forall_mem_singleton.2 ⟨hexample', hnames .example⟩⟩⟩⟩⟩

/-- The names of the entries of an archive that was written are short enough. -/
theorem Bundle.isBrief_of_writeArchive {path : String} {artifacts : List Artifact} {u : Unit}
    {h h' : Host} (hwrite : writeArchive path artifacts h = .ok u h') :
    ∀ name ∈ entryNames artifacts, IsBrief name := by
  obtain ⟨sink, t, entries, t', -, hfaults, hall, -, -⟩ := writeArchive_eq_ok hwrite
  intro name hname
  have hlength := length_entryNames artifacts
  have hsnd : (artifacts.zip (entryNames artifacts)).map Prod.snd = entryNames artifacts :=
    List.map_snd_zip (by omega)
  rw [← hsnd] at hname
  obtain ⟨named, hnamed, rfl⟩ := List.mem_map.1 hname
  obtain ⟨k, hk, rfl⟩ := List.getElem_of_mem hnamed
  have hentry := hall.get hk (hall.length_eq ▸ hk)
  have hfault := hfaults _ (List.get_mem entries ⟨k, hall.length_eq ▸ hk⟩)
  have hbrief := ((Archive.Entry.fault?_eq_none_iff _).1 hfault).1
  rw [hentry.1] at hbrief
  exact hbrief

/-- The outputs of a stage that succeeded are there. -/
theorem Stage.isPresent_of_run {c : Command} {workdir : String} {limit : Nat} {h h' : Host}
    {o : Output} (hrun : c.run workdir limit h = .ok o h') :
    ∀ path ∈ c.outputs, isPresent h' path = true := by
  unfold Command.run Command.conclude at hrun
  dsimp only at hrun
  split at hrun
  · cases hrun
  split at hrun
  · cases hrun
  split at hrun
  · cases hrun
  split at hrun
  · cases hrun
  · next hfind =>
    cases hrun
    simpa using hfind

/-- **No build succeeds** whose names do not fit, whatever the tools do. -/
theorem namesFit_of_build {p : Pipeline} {path bundle : String} {supply : Role → Supply}
    {h h' : Host} (hpath : Path.IsOpen path)
    (hbuild : p.build path (.ofSupplies path supply) h = .ok bundle h') : NamesFit path supply := by
  obtain ⟨a, h₁, hrun, hassemble⟩ := Service.bind_eq_ok hbuild
  obtain ⟨-, h₂, -, hrun⟩ := Service.bind_eq_ok hrun
  obtain ⟨-, h₃, -, hrun⟩ := Service.bind_eq_ok hrun
  obtain ⟨o, h₄, hlink, hrun⟩ := Service.bind_eq_ok hrun
  obtain rfl : Stage.artifacts path (.ofSupplies path supply) = a := by
    cases hrun
    rfl
  obtain ⟨u, h₅, hsources, hassemble⟩ := Service.bind_eq_ok hassemble
  obtain ⟨v, h₆, hresult, -⟩ := Service.bind_eq_ok hassemble
  let stem := moduleStem ((supply .interpreter).entryName .interpreter)
  have hbinary : stem ++ ".wasm" ∈ outputNames (Naming.ofSupplies supply).stem := by
    rw [Naming.stem_ofSupplies]
    exact .tail _ (.tail _ (.tail _ (.tail _ (.head _))))
  have hcontinues := (continues_output hpath supply hbinary).1
  have hpresent := Stage.isPresent_of_run hlink (Path.join path (stem ++ ".wasm")) (.tail _ (.head _))
  obtain ⟨n, hstat, -⟩ := (Stage.isPresent_iff h₄ _).1 hpresent
  obtain ⟨q, hq, -⟩ := stat_eq_ok_iff.1 hstat
  obtain ⟨hname, hshort⟩ := short_of_resolve hcontinues hq
  have hsize : (stem ++ ".wasm").utf8ByteSize = stem.utf8ByteSize + 5 := by
    rw [String.utf8ByteSize_append]
    rfl
  have hjoin : (Path.join path (stem ++ ".wasm")).utf8ByteSize =
      path.utf8ByteSize + 1 + (stem.utf8ByteSize + 5) := by
    rw [Path.join_of_isOpen hpath (Path.isAbsolute_eq_false
      (hcontinues.plain _ List.mem_cons_self).1.noSlash), String.utf8ByteSize_append,
      String.utf8ByteSize_append, hsize]
    rfl
  exact ⟨hsize ▸ hname, hjoin ▸ hshort, Bundle.isBrief_of_writeArchive hsources,
    Bundle.isBrief_of_writeArchive hresult⟩

end LangBundle
