import Mathlib.Data.List.Forall2
import LangBundle.Proofs.ArchiveRoundTrip
import LangBundle.Proofs.Succeeding

/-!
# What assembling writes

An archive that is written reads back as its entries, whatever was at its path, and its entries hold
what the files of the artifacts hold.

* `Bundle.entriesOf_eq_ok`: **the entries** of artifacts hold what their files hold.
* `Bundle.Writes.of_ok`: **an archive** is written to its own file and reads back as its entries.
* `Bundle.IsBundle`: an archive with five entries, the first one an archive with three.
* `isBundle_of_assemble`: **assembling** gives that, or fails.
* `assemble_ok`: **it does not fail** if all artifacts can be read and fit.
-/

namespace LangBundle

open Files Files.Tree

/-! ## The entries of artifacts -/

namespace Bundle

theorem length_entryNames (artifacts : List Artifact) :
    (entryNames artifacts).length = artifacts.length := by
  have hafter (taken : List String) :
      (entryNamesAfter taken artifacts).length = taken.length + artifacts.length := by
    induction artifacts generalizing taken with
    | nil => simp [entryNamesAfter]
    | cons a rest ih =>
      rw [entryNamesAfter, ih, List.length_cons, List.length_cons]
      omega
  rw [entryNames, hafter, List.length_nil, Nat.zero_add]

section
variable {h h' : Host}

theorem look_eq_ok {α : Type} {path : String} {op : Tree → Place → Except Fault α} {a : α}
    (hlook : Service.look path op h = .ok a h') : h' = h ∧ op h.files h.cwd = .ok a := by
  unfold Service.look at hlook
  split at hlook
  · next hop =>
    cases hlook
    exact ⟨rfl, hop⟩
  · cases hlook

theorem onFiles_eq_ok {α : Type} {path : String}
    {op : Tree → Place → Except Fault (α × Tree)} {a : α}
    (hon : Service.onFiles path op h = .ok a h') :
    ∃ t, op h.files h.cwd = .ok (a, t) ∧ h' = { h with files := t } := by
  unfold Service.onFiles at hon
  split at hon
  · next hop =>
    cases hon
    exact ⟨_, hop, rfl⟩
  · cases hon

/-- **The entry** of an artifact. -/
theorem entryOf_eq_ok {a : Artifact} {name : String} {e : Archive.Entry}
    (hentry : entryOf a name h = .ok e h') :
    h' = h ∧ e.name = name ∧ e.fault? = none ∧ h.files.read h.cwd a.path = .ok e.data := by
  obtain ⟨source, h₁, hlook, hrest⟩ := Service.bind_eq_ok hentry
  obtain ⟨rfl, hopen⟩ := look_eq_ok hlook
  have hfit (hfit : (do
      let data ← Service.look a.path fun t _ => t.readAll source
      fitting a ⟨name, data⟩) h₁ = .ok e h') :
      h' = h₁ ∧ e.name = name ∧ e.fault? = none ∧ h₁.files.read h₁.cwd a.path = .ok e.data := by
    obtain ⟨data, h₂, hlook', hfitting⟩ := Service.bind_eq_ok hfit
    obtain ⟨rfl, hread⟩ := look_eq_ok hlook'
    rcases hfault : Archive.Entry.fault? ⟨name, data⟩ with _ | fault
    · simp only [fitting, hfault] at hfitting
      cases hfitting
      refine ⟨rfl, rfl, hfault, ?_⟩
      rw [Tree.read, hopen]
      exact hread
    · simp only [fitting, hfault] at hfitting
      cases hfitting
  dsimp only at hrest
  split at hrest
  · cases hrest
  · exact hfit hrest

/-- **The entries** of artifacts, each under its name. -/
theorem entriesOf_eq_ok {artifacts : List (Artifact × String)} {entries : List Archive.Entry}
    (hentries : entriesOf artifacts h = .ok entries h') :
    h' = h ∧ (∀ e ∈ entries, e.fault? = none) ∧
      List.Forall₂ (fun a e => e.name = a.2 ∧ h.files.read h.cwd a.1.path = .ok e.data) artifacts
        entries := by
  induction artifacts generalizing entries h' with
  | nil =>
    cases hentries
    exact ⟨rfl, by simp, .nil⟩
  | cons first rest ih =>
    obtain ⟨e, h₁, hfirst, hentries⟩ := Service.bind_eq_ok hentries
    obtain ⟨more, h₂, hmore, hentries⟩ := Service.bind_eq_ok hentries
    cases hentries
    obtain ⟨rfl, hname, hfault, hread⟩ := entryOf_eq_ok hfirst
    obtain ⟨rfl, hfaults, hall⟩ := ih hmore
    refine ⟨rfl, ?_, .cons ⟨hname, hread⟩ hall⟩
    simpa using ⟨hfault, hfaults⟩

/-- What writing an archive does. -/
theorem writeArchive_eq_ok {path : String} {artifacts : List Artifact} {u : Unit}
    (hwrite : writeArchive path artifacts h = .ok u h') :
    ∃ sink t entries t', h.files.openWrite h.cwd path = .ok (sink, t) ∧
      (∀ e ∈ entries, e.fault? = none) ∧
      List.Forall₂ (fun a e => e.name = a.2 ∧ t.read h.cwd a.1.path = .ok e.data)
        (artifacts.zip (entryNames artifacts)) entries ∧
      t.writeAt sink 0 (Archive.write entries) = .ok t' ∧ h' = { h with files := t' } := by
  obtain ⟨sink, h₁, hfirst, hrest⟩ := Service.bind_eq_ok hwrite
  obtain ⟨t, hopen, rfl⟩ := onFiles_eq_ok hfirst
  obtain ⟨entries, h₂, hentries, hlast⟩ := Service.bind_eq_ok hrest
  obtain ⟨rfl, hfaults, hall⟩ := entriesOf_eq_ok hentries
  obtain ⟨t', hon, rfl⟩ := onFiles_eq_ok hlast
  obtain ⟨t'', hat, heq⟩ := Tree.bind_eq_ok hon
  cases heq
  exact ⟨sink, t, entries, t', hopen, hfaults, hall, hat, rfl⟩

/-- **Entries** that can be had. -/
theorem entriesOf_ok {artifacts : List (Artifact × String)} {entries : List Archive.Entry}
    (hall : List.Forall₂ (fun a e => e.name = a.2 ∧ ∃ source,
      h.files.openRead h.cwd a.1.path = .ok source ∧ h.files.readAll source = .ok e.data) artifacts
        entries) (hfaults : ∀ e ∈ entries, e.fault? = none) :
    entriesOf artifacts h = .ok entries h := by
  induction hall with
  | nil => rfl
  | @cons a e artifacts entries hfirst _ ih =>
    obtain ⟨hname, source, hopen, hread⟩ := hfirst
    obtain ⟨a, name⟩ := a
    obtain ⟨other, data⟩ := e
    obtain rfl : other = name := hname
    have hfault : Archive.Entry.fault? ⟨other, data⟩ = none := hfaults _ List.mem_cons_self
    have hlong : ¬ 65535 < (Utf8.ofString other).length := by
      intro hlong
      rw [Archive.Entry.fault?, if_pos hlong] at hfault
      cases hfault
    have hlook : Service.look a.path (fun t cwd => t.openRead cwd a.path) h = .ok source h := by
      simp only [Service.look, hopen]
    have hlook' : Service.look a.path (fun t _ => t.readAll source) h = .ok data h := by
      simp only [Service.look, hread]
    have hentry : entryOf a other h = .ok ⟨other, data⟩ h := by
      rw [entryOf, Service.bind_of_ok hlook]
      simp only [if_neg hlong]
      refine (Service.bind_of_ok hlook').trans ?_
      simp only [fitting, hfault]
      rfl
    rw [entriesOf, Service.bind_of_ok hentry,
      Service.bind_of_ok (ih fun e he => hfaults e (List.mem_cons_of_mem _ he))]
    rfl

end

/-! ## Archives in a workspace -/

/-- The entries of artifacts: their names in order, each with what the artifact's file holds. -/
structure Collects (t : Tree) (cwd : Place) (artifacts : List Artifact)
    (entries : List Archive.Entry) : Prop where
  names : entries.map (·.name) = entryNames artifacts
  data : List.Forall₂ (fun a e => t.Shows cwd a.path e.data) artifacts entries

/-- An archive of artifacts is written to a place, and all else stays as it is. -/
structure Writes (t t' : Tree) (ws cwd p : Place) (base : Tree) (path : String)
    (artifacts : List Artifact) (entries : List Archive.Entry) : Prop where
  tidy : Tidy ws base t'
  shape : t.SameShape t'
  agree : t.AgreesOff t' p
  collects : Collects t cwd artifacts entries
  reads : Archive.read? (Archive.write entries) = some entries
  shows : t'.Shows cwd path (Archive.write entries)

section
variable {base : Tree} {cwd ws : Place} {path : String} {h h' : Host}

/-- **An archive** in a tidy workspace, beside its artifacts. -/
theorem Writes.of_ok (hsite : base.Site cwd path ws) (htidy : Tidy ws base h.files)
    (hcwd : h.cwd = cwd) {name archive : String} (harchive : Path.Continues path [name] archive)
    {artifacts : List Artifact} (hartifacts : ∀ a ∈ artifacts, ∃ names,
      Path.Continues path names a.path ∧ names ≠ [name])
    {u : Unit} (hwrite : writeArchive archive artifacts h = .ok u h') :
    ∃ entries t, h' = { h with files := t } ∧
      Writes h.files t ws cwd (ws ++ [name]) base archive artifacts entries := by
  obtain ⟨sink, t, entries, t', hopen, hfaults, hall, hat, rfl⟩ := writeArchive_eq_ok hwrite
  subst hcwd
  obtain ⟨p, hp, hopened⟩ := openWrite_eq_ok hopen
  obtain rfl := htidy.resolve_continues hsite harchive hp
  have hreal := isReal_of_resolve hsite.real hp
  have hbelow := List.prefix_append ws [name]
  have htidy₁ : Tidy ws base t := htidy.opened hsite.real hp hbelow hopened
  obtain ⟨⟨mode, hopenAt, -⟩, hagree₁⟩ := htidy.toUnlinked.opened_eq hreal hbelow hopened
  obtain ⟨hwritten, hagree₂⟩ := htidy₁.toUnlinked.writeAt_eq hreal hbelow hopenAt hat
  have hshape := hopened.sameShape.trans (writeAt_sameShape hat)
  have hlength := length_entryNames artifacts
  refine ⟨entries, t', rfl, htidy₁.writeAt hreal hbelow hopenAt hat, hshape, hagree₁.trans hagree₂,
    ⟨?_, ?_⟩, Archive.read?_write hfaults, ?_⟩
  · have hnames : entries.map (·.name) = (artifacts.zip (entryNames artifacts)).map Prod.snd := by
      clear hfaults hat hwritten hlength
      generalize artifacts.zip (entryNames artifacts) = named at hall
      induction hall with
      | nil => rfl
      | cons hfirst _ ih => rw [List.map_cons, List.map_cons, hfirst.1, ih]
    rw [hnames, List.map_snd_zip (by omega)]
  · have hdata : List.Forall₂ (fun a e => t.read h.cwd a.path = .ok e.data)
        ((artifacts.zip (entryNames artifacts)).map Prod.fst) entries :=
      List.forall₂_map_left_iff.2 (hall.imp fun _ _ hboth => hboth.2)
    rw [List.map_fst_zip (by omega)] at hdata
    refine List.forall₂_iff_zip.2 ⟨hdata.length_eq, fun {a e} hmem => ?_⟩
    have hread : t.read h.cwd a.path = .ok e.data := (List.forall₂_iff_zip.1 hdata).2 hmem
    obtain ⟨names, hcontinues, hne⟩ := hartifacts a (List.of_mem_zip hmem).1
    obtain ⟨q, hq⟩ := resolve_of_read hread
    obtain rfl := htidy₁.resolve_continues hsite hcontinues hq
    have hshows := htidy₁.shows_of_read hsite.real hq (List.prefix_append ws names) hread
    refine hshows.of_agree hopened.sameShape fun q hq => ?_
    have hreal := isReal_of_resolve hsite.real hq
    obtain rfl := htidy₁.resolve_continues hsite hcontinues hq
    exact hagree₁ _ hreal fun heq => hne (List.append_cancel_left heq)
  · obtain ⟨serial, -, hfile⟩ := hwritten
    rw [overwrite_start] at hfile
    exact (shows_iff (resolve_of_sameShape hshape hp)).2 ⟨serial, mode, hfile⟩

end

/-- The entries of artifacts whose files hold some data. -/
def entriesFor (artifacts : List Artifact) (data : List Bytes) : List Archive.Entry :=
  List.zipWith Archive.Entry.mk (entryNames artifacts) data

/-- **An archive** that can be written: its file can be made, and its artifacts can be read and
fit. -/
theorem writeArchive_ok {base : Tree} {cwd ws : Place} {path archive name : String} {h : Host}
    (hsite : base.Site cwd path ws) (htidy : Tidy ws base h.files) (hcwd : h.cwd = cwd)
    (harchive : Path.Continues path [name] archive) (hmake : h.files.CanMake cwd archive)
    (artifacts : List Artifact) (data : List Bytes)
    (hoffers : List.Forall₂ (fun a d => h.files.Offers cwd a.path d ∧ ∃ names,
      Path.Continues path names a.path ∧ names ≠ [name]) artifacts data)
    (hfit : ∀ e ∈ entriesFor artifacts data, e.fault? = none) :
    ∃ t, writeArchive archive artifacts h = .ok () { h with files := t } ∧ Tidy ws base t ∧
      h.files.Grows t ∧ h.files.AgreesOff t (ws ++ [name]) ∧
      t.Offers cwd archive (Archive.write (entriesFor artifacts data)) := by
  subst hcwd
  obtain ⟨hp, sink, t, mode, hopen, hopened, hopenAt, hallow⟩ :=
    htidy.openWrite_ok hsite harchive hmake
  have hreal := isReal_of_resolve hsite.real hp
  have hbelow := List.prefix_append ws [name]
  have htidy₁ := htidy.opened hsite.real hp hbelow hopened
  have hagree := (htidy.toUnlinked.opened_eq hreal hbelow hopened).2
  have hentries : entriesOf (artifacts.zip (entryNames artifacts)) { h with files := t } =
      .ok (entriesFor artifacts data) { h with files := t } := by
    refine entriesOf_ok ?_ hfit
    clear hfit
    have hlength := length_entryNames artifacts
    unfold entriesFor
    generalize entryNames artifacts = names at hlength
    induction hoffers generalizing names with
    | nil =>
      rw [List.length_eq_zero_iff.1 hlength]
      exact .nil
    | cons hfirst _ ih =>
      obtain ⟨first, rest, rfl⟩ := List.exists_cons_of_length_eq_add_one hlength
      obtain ⟨hoffer, other, hcontinues, hne⟩ := hfirst
      have hstill :=
        hoffer.of_agree hsite htidy hopened.sameShape hcontinues hagree hne
      exact .cons ⟨rfl, hstill.read_ok htidy₁.sound⟩ (ih rest (by simpa using hlength))
  obtain ⟨t', hat⟩ : ∃ t', t.writeAt sink 0 (Archive.write (entriesFor artifacts data)) =
      .ok t' := by
    obtain ⟨serial, rfl, -⟩ := hopenAt
    exact ⟨_, rfl⟩
  obtain ⟨⟨serial, -, hfile⟩, hagree'⟩ :=
    htidy₁.toUnlinked.writeAt_eq hreal hbelow hopenAt hat
  rw [overwrite_start] at hfile
  have hgrows : h.files.Grows t' := (Grows.of_opened hopened).trans (.of_writeAt hat)
  refine ⟨t', ?_, htidy₁.writeAt hreal hbelow hopenAt hat, hgrows, hagree.trans hagree', serial,
    mode, stat_eq_ok_iff.2 ⟨_, resolve_of_sameShape hgrows.shape hp, hfile⟩, hallow⟩
  have hfirst : Service.onFiles archive (fun t cwd => t.openWrite cwd archive) h =
      .ok sink { h with files := t } := by
    simp only [Service.onFiles, hopen]
  have hlast : Service.onFiles archive
      (fun t _ => return ((), ← t.writeAt sink 0 (Archive.write (entriesFor artifacts data))))
        { h with files := t } = .ok () { h with files := t' } := by
    simp only [Service.onFiles, hat]
    rfl
  rw [writeArchive, Service.bind_of_ok hfirst, Service.bind_of_ok hentries, hlast]

/-! ## The bundle -/

/-- What the files of the artifacts of a build hold. -/
structure Contents where
  lexer : Bytes
  parser : Bytes
  interpreter : Bytes
  glue : Bytes
  binary : Bytes
  documentation : Bytes
  sample : Bytes

namespace Contents

def sources (c : Contents) : List Bytes :=
  [c.lexer, c.parser, c.interpreter]

def deliverables (c : Contents) : List Bytes :=
  [c.glue, c.binary, c.documentation, c.sample]

/-- The archive of the sources. -/
def packed (c : Contents) (a : ArtifactSet) : Bytes :=
  Archive.write (entriesFor a.sources c.sources)

/-- Everything fits into the format. -/
structure Fit (c : Contents) (a : ArtifactSet) (directory : String) : Prop where
  sources : ∀ e ∈ entriesFor a.sources c.sources, e.fault? = none
  result : ∀ e ∈ entriesFor (resultArtifacts a directory) (c.packed a :: c.deliverables),
    e.fault? = none

end Contents

/-- The files of artifacts hold some contents. -/
structure Contents.AreOf (c : Contents) (t : Tree) (cwd : Place) (a : ArtifactSet) : Prop where
  lexer : t.Shows cwd a.lexerSource.path c.lexer
  parser : t.Shows cwd a.parserSource.path c.parser
  interpreter : t.Shows cwd a.interpreterSource.path c.interpreter
  glue : t.Shows cwd a.moduleGlue.path c.glue
  binary : t.Shows cwd a.moduleBinary.path c.binary
  documentation : t.Shows cwd a.documentation.path c.documentation
  sample : t.Shows cwd a.sample.path c.sample

/-- An archive of the archive of the sources, the module, the documentation and the example.  The
archive of the sources is one of the sources of the scanner, of the parser and of the interpreter. -/
def IsBundle (a : ArtifactSet) (directory : String) (c : Contents) (bytes : Bytes) : Prop :=
  ∃ packed glue binary documentation sample lexer parser interpreter,
    entryNames (resultArtifacts a directory) =
      [sourcesArchive, glue, binary, documentation, sample] ∧
    Archive.read? bytes = some [⟨sourcesArchive, packed⟩, ⟨glue, c.glue⟩, ⟨binary, c.binary⟩,
      ⟨documentation, c.documentation⟩, ⟨sample, c.sample⟩] ∧
    entryNames a.sources = [lexer, parser, interpreter] ∧
    Archive.read? packed = some [⟨lexer, c.lexer⟩, ⟨parser, c.parser⟩,
      ⟨interpreter, c.interpreter⟩]

/-- The archive of the sources keeps its name. -/
theorem entryNames_resultArtifacts (a : ArtifactSet) (directory : String) :
    ∃ rest, entryNames (resultArtifacts a directory) = sourcesArchive :: rest := by
  have hafter (taken : List String) (artifacts : List Artifact) :
      ∃ rest, entryNamesAfter taken artifacts = taken.reverse ++ rest := by
    induction artifacts generalizing taken with
    | nil => exact ⟨[], by simp [entryNamesAfter]⟩
    | cons first more ih =>
      obtain ⟨rest, hrest⟩ := ih (freeName taken first.label first.entryName :: taken)
      exact ⟨_ :: rest, by rw [entryNamesAfter, hrest, List.reverse_cons, List.append_assoc]; rfl⟩
  have hfirst : freeName [] "sources" sourcesArchive = sourcesArchive := by decide
  rw [entryNames, resultArtifacts, entryNamesAfter, hfirst]
  exact hafter [sourcesArchive] a.deliverables

/-- Two archives, the second of which collects the first one, are a bundle. -/
theorem isBundle_of_collects {t t' : Tree} {cwd : Place} {a : ArtifactSet} {directory : String}
    {sources entries : List Archive.Entry} (hsources : Collects t cwd a.sources sources)
    (hread : Archive.read? (Archive.write sources) = some sources)
    (hshows : t'.Shows cwd (Path.join directory sourcesArchive) (Archive.write sources))
    (hentries : Collects t' cwd (resultArtifacts a directory) entries)
    (hagree : ∀ d ∈ a.deliverables, ∀ data, t'.Shows cwd d.path data → t.Shows cwd d.path data)
    (hread' : Archive.read? (Archive.write entries) = some entries) :
    ∃ c : Contents, c.AreOf t cwd a ∧ IsBundle a directory c (Archive.write entries) := by
  obtain ⟨rest, hfirst⟩ := entryNames_resultArtifacts a directory
  have hdata := hentries.data
  have hsourceData := hsources.data
  simp only [ArtifactSet.sources] at hsourceData
  simp only [resultArtifacts, ArtifactSet.deliverables] at hdata
  cases hsourceData with
  | cons hlexer hsourceData =>
  cases hsourceData with
  | cons hparser hsourceData =>
  cases hsourceData with
  | cons hinterpreter hsourceData =>
  cases hsourceData
  cases hdata with
  | @cons _ packed _ _ hpacked hdata =>
  cases hdata with
  | cons hglue hdata =>
  cases hdata with
  | cons hbinary hdata =>
  cases hdata with
  | cons hdocumentation hdata =>
  cases hdata with
  | cons hsample hdata =>
  cases hdata
  have hsame := hshows.unique hpacked
  have hnames := hentries.names
  rw [hfirst] at hnames
  obtain ⟨hname, rfl⟩ := List.cons.inj hnames
  obtain ⟨name, data⟩ := packed
  subst hname
  dsimp only at hsame
  subst hsame
  refine ⟨⟨_, _, _, _, _, _, _⟩, ⟨hlexer, hparser, hinterpreter, hagree _ ?_ _ hglue,
    hagree _ ?_ _ hbinary, hagree _ ?_ _ hdocumentation, hagree _ ?_ _ hsample⟩,
    _, _, _, _, _, _, _, _, hfirst, hread', hsources.names.symm, hread⟩
  all_goals simp [ArtifactSet.deliverables]

end Bundle

/-- The names of the files that the tools have to leave. -/
def outputNames (stem : String) : List String :=
  [Stage.parserSource, Stage.parserHeader, Stage.lexerSource, stem ++ ".js", stem ++ ".wasm"]

theorem madeNames_eq (stem : String) : madeNames stem = outputNames stem ++ archiveNames :=
  rfl

/-- The outputs of the tools do not take the place of the inputs. -/
theorem ne_inputsDirectory {stem name : String} (hname : name ∈ outputNames stem) :
    name ≠ inputsDirectory := by
  have hdot : '.' ∈ name.toList := by
    simp only [outputNames, List.mem_cons, List.not_mem_nil, or_false] at hname
    rcases hname with rfl | rfl | rfl | rfl | rfl
    · decide
    · decide
    · decide
    · simp
    · simp
  rintro rfl
  revert hdot
  decide

section
variable {path : String} (hpath : Path.IsOpen path) (supply : Role → Supply)
include hpath

/-- A file that the tools leave is no archive of the build. -/
theorem continues_output {name : String}
    (hname : name ∈ outputNames (Naming.ofSupplies supply).stem) :
    Path.Continues path [name] (Path.join path name) ∧ name ∉ archiveNames := by
  have hsafe := Naming.isSafe_ofSupplies supply
  have hnodup := nodup_madeNames hsafe
  rw [madeNames_eq, List.nodup_append] at hnodup
  refine ⟨Path.continues_join hpath (isPlain_of_mem_madeNames hsafe ?_), fun harchive => ?_⟩
  · rw [madeNames_eq]
    exact List.mem_append_left _ hname
  · exact hnodup.2.2 name hname name harchive rfl

omit hpath in
/-- The paths of the artifacts: what the tools make, and three of the inputs. -/
theorem paths_artifacts :
    let a := Stage.artifacts path (.ofSupplies path supply)
    let stem := (Naming.ofSupplies supply).stem
    (a.sources ++ a.deliverables).map (·.path) =
      [Path.join path Stage.lexerSource, Path.join path Stage.parserSource,
        ((supply .interpreter).input path .interpreter).path, Path.join path (stem ++ ".js"),
        Path.join path (stem ++ ".wasm"),
        ((supply .documentation).input path .documentation).path,
        ((supply .example).input path .example).path] := by
  simp only [Stage.artifacts, ArtifactSet.sources, ArtifactSet.deliverables, Artifact.ofInput,
    Inputs.ofSupplies, Supply.entryName_input, Naming.stem_ofSupplies, List.cons_append,
    List.nil_append, List.map_cons, List.map_nil]

/-- The files of the artifacts lie beside the archives. -/
theorem continues_artifact {a : Artifact}
    (ha : a ∈ (Stage.artifacts path (.ofSupplies path supply)).sources ++
      (Stage.artifacts path (.ofSupplies path supply)).deliverables) :
    ∃ names, Path.Continues path names a.path ∧ ∀ archive ∈ archiveNames, names ≠ [archive] := by
  have hmade {name : String} (hname : name ∈ outputNames (Naming.ofSupplies supply).stem) :
      ∃ names, Path.Continues path names (Path.join path name) ∧
        ∀ archive ∈ archiveNames, names ≠ [archive] := by
    obtain ⟨hcontinues, hnot⟩ := continues_output hpath supply hname
    refine ⟨_, hcontinues, fun archive harchive heq => hnot ?_⟩
    rwa [List.singleton_inj.1 heq]
  have hstored (role : Role) : ∃ names,
      Path.Continues path names ((supply role).input path role).path ∧
        ∀ archive ∈ archiveNames, names ≠ [archive] :=
    ⟨_, continues_stored hpath role, fun archive _ heq => by simp [storedNames] at heq⟩
  have hmem := List.mem_map_of_mem (f := fun a : Artifact => a.path) ha
  rw [paths_artifacts] at hmem
  simp only [List.mem_cons, List.not_mem_nil, or_false] at hmem
  rcases hmem with h | h | h | h | h | h | h <;> rw [h]
  · exact hmade (.tail _ (.tail _ (.head _)))
  · exact hmade (.head _)
  · exact hstored .interpreter
  · exact hmade (.tail _ (.tail _ (.tail _ (.head _))))
  · exact hmade (.tail _ (.tail _ (.tail _ (.tail _ (.head _)))))
  · exact hstored .documentation
  · exact hstored .example

end

/-! ## Both archives -/

/-- The last names of the two archives lead straight to them. -/
theorem continues_archive {path : String} (hpath : Path.IsOpen path) {name : String}
    (hname : name ∈ archiveNames) : Path.Continues path [name] (Path.join path name) :=
  Path.continues_join hpath (isPlain_archive hname)

/-- **Both archives** in a tidy workspace. -/
theorem isBundle_of_assemble {base : Tree} {cwd ws : Place} {path : String} {h h' : Host}
    (hsite : base.Site cwd path ws) (hpath : Path.IsOpen path) (htidy : Tidy ws base h.files)
    (hcwd : h.cwd = cwd) (supply : Role → Supply) {bundle : String}
    (hassemble : Bundle.assemble (Stage.artifacts path (.ofSupplies path supply)) path h =
      .ok bundle h') :
    bundle = Path.join path Bundle.resultArchive ∧
    ∃ bytes c, h'.files.Shows cwd bundle bytes ∧
      Bundle.IsBundle (Stage.artifacts path (.ofSupplies path supply)) path c bytes ∧
      c.AreOf h.files cwd (Stage.artifacts path (.ofSupplies path supply)) := by
  have hsources : Bundle.sourcesArchive ∈ archiveNames := by simp [archiveNames]
  have hresult : Bundle.resultArchive ∈ archiveNames := by simp [archiveNames]
  have hbeside {a : Artifact} {archive : String} (harchive : archive ∈ archiveNames)
      (ha : a ∈ (Stage.artifacts path (.ofSupplies path supply)).sources ++
        (Stage.artifacts path (.ofSupplies path supply)).deliverables) :
      ∃ names, Path.Continues path names a.path ∧ names ≠ [archive] := by
    obtain ⟨names, hcontinues, hne⟩ := continues_artifact hpath supply ha
    exact ⟨names, hcontinues, hne archive harchive⟩
  obtain ⟨_, h₁, hfirst, hrest⟩ := Service.bind_eq_ok hassemble
  obtain ⟨_, h₂, hsecond, hlast⟩ := Service.bind_eq_ok hrest
  obtain ⟨hbundle, hend⟩ := EStateM.Result.ok.inj hlast
  subst hbundle hend
  obtain ⟨sources, t₁, rfl, hwrites₁⟩ := Bundle.Writes.of_ok hsite htidy hcwd
    (continues_archive hpath hsources) (fun a ha => hbeside hsources (List.mem_append_left _ ha))
    hfirst
  have htidy₁ : Tidy ws base ({ h with files := t₁ } : Host).files := hwrites₁.tidy
  obtain ⟨entries, t₂, rfl, hwrites₂⟩ := Bundle.Writes.of_ok hsite htidy₁ hcwd
    (continues_archive hpath hresult) (fun a ha => by
      obtain rfl | ha := List.mem_cons.1 ha
      · exact ⟨_, continues_archive hpath hsources, by decide⟩
      · exact hbeside hresult (List.mem_append_right _ ha)) hsecond
  obtain ⟨c, hcontents, hreads⟩ := Bundle.isBundle_of_collects hwrites₁.collects hwrites₁.reads
    hwrites₁.shows hwrites₂.collects (fun d hd data hshows => by
      obtain ⟨names, hcontinues, hne⟩ := hbeside hsources (List.mem_append_right _ hd)
      refine hshows.of_agree hwrites₁.shape fun q hq => ?_
      have hreal := isReal_of_resolve hsite.real hq
      obtain rfl := hwrites₁.tidy.resolve_continues hsite hcontinues hq
      exact hwrites₁.agree _ hreal fun heq => hne (List.append_cancel_left heq)) hwrites₂.reads
  exact ⟨rfl, _, c, hwrites₂.shows, hreads, hcontents⟩

/-- **Both archives** are written if they can be made, and all artifacts can be read and fit; the
bundle can be read then. -/
theorem assemble_ok {base : Tree} {cwd ws : Place} {path : String} {h : Host}
    (hsite : base.Site cwd path ws) (hpath : Path.IsOpen path) (htidy : Tidy ws base h.files)
    (hcwd : h.cwd = cwd) (supply : Role → Supply)
    (harchives : ∀ name ∈ archiveNames, h.files.CanMake cwd (Path.join path name))
    {c : Bundle.Contents} (hoffers :
      let a := Stage.artifacts path (.ofSupplies path supply)
      List.Forall₂ (fun a d => h.files.Offers cwd a.path d) (a.sources ++ a.deliverables)
        (c.sources ++ c.deliverables))
    (hfit : c.Fit (Stage.artifacts path (.ofSupplies path supply)) path) :
    ∃ t data, Bundle.assemble (Stage.artifacts path (.ofSupplies path supply)) path h =
        .ok (Path.join path Bundle.resultArchive) { h with files := t } ∧
      Tidy ws base t ∧ t.Offers cwd (Path.join path Bundle.resultArchive) data := by
  dsimp only at hoffers
  have hbeside {archive : String} (harchive : archive ∈ archiveNames) (b : Artifact)
      (hb : b ∈ (Stage.artifacts path (.ofSupplies path supply)).sources ++
        (Stage.artifacts path (.ofSupplies path supply)).deliverables) :
      ∃ names, Path.Continues path names b.path ∧ names ≠ [archive] := by
    obtain ⟨names, hcontinues, hne⟩ := continues_artifact hpath supply hb
    exact ⟨names, hcontinues, hne archive harchive⟩
  generalize Stage.artifacts path (.ofSupplies path supply) = a at hoffers hfit hbeside ⊢
  have hsources : Bundle.sourcesArchive ∈ archiveNames := by simp [archiveNames]
  have hresult : Bundle.resultArchive ∈ archiveNames := by simp [archiveNames]
  have hother : [Bundle.sourcesArchive] ≠ [Bundle.resultArchive] := by decide
  have hsplit : (a.sources ++ a.deliverables).zip (c.sources ++ c.deliverables) =
      a.sources.zip c.sources ++ a.deliverables.zip c.deliverables :=
    List.zip_append rfl
  have hboth {b : Artifact} {d : Bytes}
      (hmem : (b, d) ∈ a.sources.zip c.sources ++ a.deliverables.zip c.deliverables) :
      h.files.Offers cwd b.path d :=
    (List.forall₂_iff_zip.1 hoffers).2 (hsplit ▸ hmem)
  obtain ⟨t, hfirst, htidy₁, hgrows, hagree, hpacked⟩ := Bundle.writeArchive_ok hsite htidy
    hcwd (continues_archive hpath hsources) (harchives _ hsources) a.sources c.sources
    (List.forall₂_iff_zip.2 ⟨rfl, fun {b d} hmem => ⟨hboth (List.mem_append_left _ hmem),
      hbeside hsources b (List.mem_append_left _ (List.of_mem_zip hmem).1)⟩⟩) hfit.sources
  obtain ⟨t', hsecond, htidy₂, -, -, hoffered⟩ := Bundle.writeArchive_ok hsite
    (h := { h with files := t }) htidy₁ hcwd (continues_archive hpath hresult)
    (hgrows.canMake htidy.sound hsite.real (harchives _ hresult))
    (Bundle.resultArtifacts a path) (c.packed a :: c.deliverables)
    (.cons ⟨hpacked, _, continues_archive hpath hsources, hother⟩
      (List.forall₂_iff_zip.2 ⟨rfl, fun {b d} hmem => by
        have hb := List.mem_append_right a.sources (List.of_mem_zip hmem).1
        obtain ⟨names, hcontinues, hne⟩ := hbeside hsources b hb
        exact ⟨(hboth (List.mem_append_right _ hmem)).of_agree hsite htidy hgrows.shape hcontinues
          hagree hne, hbeside hresult b hb⟩⟩)) hfit.result
  refine ⟨t', _, ?_, htidy₂, hoffered⟩
  rw [Bundle.assemble, Service.bind_of_ok hfirst, Service.bind_of_ok hsecond]
  rfl

end LangBundle
