import LangBundle.Proofs.Assembling

/-!
# Tools that write files

A tool that writes files into its workspace keeps the workspace tidy, and a build goes through if
its tools write what they have to.

* `Tidy.leftBy_writer`: **nothing else** changes below a tidy workspace.
* `Tidy.leftBy_writer_ok`: **the files** are there afterwards.
* `build_writer_ok`: **a build** with such tools.
-/

namespace LangBundle

open Files Files.Tree
open Stage (leftBy foundBy commandFor)

/-! ## One tool -/

section
variable {base t : Tree} {cwd ws : Place} {path : String} (hsite : base.Site cwd path ws)
  (hpath : Path.IsOpen path)
include hsite hpath

theorem Files.Tree.Tidy.writeIfPossible (h : Tidy ws base t) {name : String}
    (hname : Path.IsPlain name ∧ name ≠ "..") (data : Bytes) :
    Tidy ws base (t.writeIfPossible cwd (Path.join path name) data) ∧
      t.AgreesOff (t.writeIfPossible cwd (Path.join path name) data) (ws ++ [name]) := by
  unfold Files.Tree.writeIfPossible
  split
  · next t' hwrite =>
    obtain ⟨⟨sink, opened⟩, hopen, hat⟩ := bind_eq_ok hwrite
    obtain ⟨q, hq, hopened⟩ := openWrite_eq_ok hopen
    obtain rfl := h.resolve_continues hsite (Path.continues_join hpath hname) hq
    have hreal := isReal_of_resolve hsite.real hq
    have hbelow := List.prefix_append ws [name]
    have hopenedTidy := h.opened hsite.real hq hbelow hopened
    obtain ⟨⟨mode, hopenAt, -⟩, hagree⟩ := h.toUnlinked.opened_eq hreal hbelow hopened
    exact ⟨hopenedTidy.writeAt hreal hbelow hopenAt hat,
      hagree.trans (hopenedTidy.toUnlinked.writeAt_eq hreal hbelow hopenAt hat).2⟩
  · exact ⟨h, fun _ _ _ => rfl⟩

/-- Files that are written one after the other change nothing below other names. -/
theorem Files.Tree.Tidy.written_kept (h : Tidy ws base t) (files : List (String × Bytes))
    (hplain : ∀ file ∈ files, Path.IsPlain file.1 ∧ file.1 ≠ "..") :
    let t' := files.foldl (fun t file => t.writeIfPossible cwd (Path.join path file.1) file.2) t
    Tidy ws base t' ∧ ∀ name q, IsReal q → ws ++ [name] <+: q → (∀ file ∈ files, file.1 ≠ name) →
      t'.get? q = t.get? q := by
  induction files generalizing t with
  | nil => exact ⟨h, fun _ _ _ _ _ => rfl⟩
  | cons file rest ih =>
    obtain ⟨hfirst, hagree⟩ :=
      h.writeIfPossible hsite hpath (hplain file List.mem_cons_self) file.2
    obtain ⟨hrest, hkept⟩ :=
      ih hfirst fun other hother => hplain other (List.mem_cons_of_mem file hother)
    rw [List.foldl_cons]
    refine ⟨hrest, fun name q hq hbelow hne => ?_⟩
    rw [hkept name q hq hbelow fun other hother => hne other (List.mem_cons_of_mem file hother)]
    refine hagree q hq fun heq => hne file List.mem_cons_self ?_
    rw [heq, List.prefix_append_right_inj] at hbelow
    exact (List.cons_prefix_cons.1 hbelow).1.symm

/-- A tool that writes files keeps the workspace tidy, and changes nothing below other names. -/
theorem Files.Tree.Tidy.leftBy_writer (h : Tidy ws base t)
    (files : String → List (String × Bytes)) (limit : Nat) (c : Stage.Command)
    (hplain : ∀ file ∈ files c.program, Path.IsPlain file.1 ∧ file.1 ≠ "..") :
    Tidy ws base (leftBy (writer files) cwd path limit c t) ∧
      ∀ name q, IsReal q → ws ++ [name] <+: q → (∀ file ∈ files c.program, file.1 ≠ name) →
        (leftBy (writer files) cwd path limit c t).get? q = t.get? q := by
  unfold leftBy
  dsimp only [writer, Deed.filesAfter]
  split
  · exact ⟨h, fun _ _ _ _ _ => rfl⟩
  · exact h.written_kept hsite hpath _ hplain

/-- Files that can be made, and are written one after the other, are there then, and nothing is taken
away. -/
theorem Files.Tree.Tidy.written_ok (h : Tidy ws base t) (files : List (String × Bytes))
    (hnodup : (files.map Prod.fst).Nodup)
    (hplain : ∀ file ∈ files, Path.IsPlain file.1 ∧ file.1 ≠ "..")
    (hmake : ∀ file ∈ files, t.CanMake cwd (Path.join path file.1)) :
    let t' := files.foldl (fun t file => t.writeIfPossible cwd (Path.join path file.1) file.2) t
    t.Grows t' ∧ ∀ file ∈ files, t'.Offers cwd (Path.join path file.1) file.2 := by
  induction files generalizing t with
  | nil => exact ⟨.refl t, by simp⟩
  | cons file rest ih =>
    obtain ⟨hfirst, hrest⟩ := List.nodup_cons.1 hnodup
    have hcontinues := Path.continues_join hpath (hplain file List.mem_cons_self)
    have hplain' (other : String × Bytes) (hother : other ∈ rest) :=
      hplain other (List.mem_cons_of_mem file hother)
    have hne (other : String × Bytes) (hother : other ∈ rest) : other.1 ≠ file.1 :=
      fun heq => hfirst (heq ▸ List.mem_map_of_mem hother)
    obtain ⟨t₁, hwrite, htidy, hgrows, -, hoffers⟩ :=
      h.write_ok hsite hcontinues (hmake file List.mem_cons_self) file.2
    have hpossible : t.writeIfPossible cwd (Path.join path file.1) file.2 = t₁ := by
      unfold Files.Tree.writeIfPossible
      rw [hwrite]
    obtain ⟨hgrows', hoffers'⟩ := ih htidy hrest hplain' fun other hother =>
      hgrows.canMake h.sound hsite.real (hmake other (List.mem_cons_of_mem file hother))
    rw [List.foldl_cons, hpossible]
    refine ⟨hgrows.trans hgrows', fun other hother => ?_⟩
    obtain rfl | hother := List.mem_cons.1 hother
    · -- the other files have other names, so this one stays as it is
      refine hoffers.of_kept hgrows'.shape fun q hq => ?_
      have hreal := isReal_of_resolve hsite.real hq
      obtain rfl := htidy.resolve_continues hsite hcontinues hq
      exact (htidy.written_kept hsite hpath rest hplain').2 other.1 _ hreal List.prefix_rfl hne
    · exact hoffers' other hother

/-- A tool that writes files that can be made leaves them all, and takes nothing away. -/
theorem Files.Tree.Tidy.leftBy_writer_ok (h : Tidy ws base t)
    (files : String → List (String × Bytes)) {limit : Nat} (hlimit : limit ≠ 0) (c : Stage.Command)
    (hnodup : ((files c.program).map Prod.fst).Nodup)
    (hplain : ∀ file ∈ files c.program, Path.IsPlain file.1 ∧ file.1 ≠ "..")
    (hmake : ∀ file ∈ files c.program, t.CanMake cwd (Path.join path file.1)) :
    t.Grows (leftBy (writer files) cwd path limit c t) ∧ ∀ file ∈ files c.program,
      (leftBy (writer files) cwd path limit c t).Offers cwd (Path.join path file.1) file.2 := by
  unfold leftBy
  dsimp only [writer, Deed.filesAfter]
  rw [if_neg hlimit]
  exact h.written_ok hsite hpath _ hnodup hplain hmake

end

/-! ## A build -/

/-- What a build holds whose tools leave some files. -/
def writtenContents (files : List (String × Bytes)) (supply : Role → Supply) : Bundle.Contents :=
  let written (name : String) : Bytes := (files.lookup name).getD []
  let stem := (Naming.ofSupplies supply).stem
  { lexer := written Stage.lexerSource
    parser := written Stage.parserSource
    interpreter := (supply .interpreter).data
    glue := written (stem ++ ".js")
    binary := written (stem ++ ".wasm")
    documentation := (supply .documentation).data
    sample := (supply .example).data }

/-- Some files are all that the tools have to leave behind a path. -/
structure SuitsBuild (path : String) (supply : Role → Supply) (files : List (String × Bytes)) :
    Prop where
  nodup : (files.map Prod.fst).Nodup
  takes : ∀ file ∈ files, Path.Takes path file.1 ∧ file.1 ≠ inputsDirectory
  archives : ∀ name ∈ archiveNames, Path.Takes path name
  outputs : ∀ name ∈ outputNames (Naming.ofSupplies supply).stem, ∃ data,
    (name, data) ∈ files ∧ data ≠ []
  fit : (writtenContents files supply).Fit (Stage.artifacts path (.ofSupplies path supply)) path

theorem outputs_commandFor {tools : Toolchain} {path : String} {supply : Role → Supply} {s : Stage}
    {output : String} (houtput : output ∈ (commandFor tools path (.ofSupplies path supply) s).outputs) :
    ∃ name ∈ outputNames (Naming.ofSupplies supply).stem, output = Path.join path name := by
  rw [Naming.stem_ofSupplies]
  cases s <;>
    simp only [commandFor, Stage.Command.grammar, Stage.Command.lexer, Stage.Command.link,
      Stage.Command.compile, List.mem_cons, List.not_mem_nil, or_false] at houtput
  · rcases houtput with h | h
    · exact ⟨_, .head _, h⟩
    · exact ⟨_, .tail _ (.head _), h⟩
  · exact ⟨_, .tail _ (.tail _ (.head _)), houtput⟩
  · rcases houtput with h | h
    · exact ⟨_, .tail _ (.tail _ (.tail _ (.head _))), h⟩
    · exact ⟨_, .tail _ (.tail _ (.tail _ (.tail _ (.head _)))), h⟩

/-- A workspace with five inputs that is ready for tools that leave some files. -/
structure ReadyFor (ws : Place) (base : Tree) (cwd : Place) (path : String)
    (supply : Role → Supply) (files : List (String × Bytes)) (t : Tree) : Prop
    extends Tidy ws base t where
  makes : ∀ file ∈ files, t.CanMake cwd (Path.join path file.1)
  archives : ∀ name ∈ archiveNames, t.CanMake cwd (Path.join path name)
  stored : ∀ role, t.Offers cwd ((supply role).input path role).path (supply role).data

section
variable {base t : Tree} {cwd ws : Place} {path : String} {supply : Role → Supply}
  {files : List (String × Bytes)} (hsite : base.Site cwd path ws) (hpath : Path.IsOpen path)
  (hsuits : SuitsBuild path supply files) {limit : Nat}
  (hlimit : Deed.turnaround 0 < limit * 1000)
include hsite hpath hsuits hlimit

/-- What such tools leave is ready again, and offers their files. -/
theorem ReadyFor.leftBy_writer (h : ReadyFor ws base cwd path supply files t) (c : Stage.Command) :
    let left := leftBy (writer fun _ => files) cwd path limit c t
    ReadyFor ws base cwd path supply files left ∧
      ∀ file ∈ files, left.Offers cwd (Path.join path file.1) file.2 := by
  have hplain (file : String × Bytes) (hfile : file ∈ files) : Path.IsPlain file.1 ∧ file.1 ≠ ".." :=
    (hsuits.takes file hfile).1.plain
  have hlimited : limit ≠ 0 := by
    rintro rfl
    rw [Nat.zero_mul] at hlimit
    exact Nat.not_lt_zero _ hlimit
  obtain ⟨htidy, hkept⟩ := h.toTidy.leftBy_writer hsite hpath (fun _ => files) limit c hplain
  obtain ⟨hgrows, hoffers⟩ :=
    h.toTidy.leftBy_writer_ok hsite hpath (fun _ => files) hlimited c hsuits.nodup hplain h.makes
  refine ⟨⟨htidy, fun file hfile => ?_, fun name hname => ?_, fun role => ?_⟩, hoffers⟩
  · exact hgrows.canMake h.sound hsite.real (h.makes file hfile)
  · exact hgrows.canMake h.sound hsite.real (h.archives name hname)
  · refine (h.stored role).of_kept hgrows.shape fun q hq => ?_
    have hreal := isReal_of_resolve hsite.real hq
    obtain rfl := h.toTidy.resolve_continues hsite (continues_stored hpath role) hq
    exact hkept inputsDirectory _ hreal ⟨[_], by rw [List.append_assoc]; rfl⟩
      fun file hfile => (hsuits.takes file hfile).2

/-- A stage whose tool leaves such files does what it has to. -/
theorem ReadyFor.meets (h : ReadyFor ws base cwd path supply files t) (tools : Toolchain)
    (s : Stage) :
    Stage.Meets (writer fun _ => files) cwd path limit
      (commandFor tools path (.ofSupplies path supply) s) t := by
  obtain ⟨-, hoffers⟩ := h.leftBy_writer hsite hpath hsuits hlimit
    (commandFor tools path (.ofSupplies path supply) s)
  refine ⟨_, rfl, ?_, fun output houtput => ?_⟩
  · simp only [Deed.statusWithin, Option.bind_some, if_pos hlimit]
  · obtain ⟨name, hname, rfl⟩ := outputs_commandFor houtput
    obtain ⟨data, hfile, hdata⟩ := hsuits.outputs name hname
    obtain ⟨serial, mode, hstat, -⟩ := hoffers (name, data) hfile
    exact ⟨_, hstat, hdata⟩

omit hsite hpath hlimit in
/-- Where such files are, the artifacts can be read. -/
theorem ReadyFor.offers (h : ReadyFor ws base cwd path supply files t)
    (hfiles : ∀ file ∈ files, t.Offers cwd (Path.join path file.1) file.2) :
    let a := Stage.artifacts path (.ofSupplies path supply)
    List.Forall₂ (fun a d => t.Offers cwd a.path d) (a.sources ++ a.deliverables)
      ((writtenContents files supply).sources ++ (writtenContents files supply).deliverables) := by
  have hmade {name : String} (hname : name ∈ outputNames (Naming.ofSupplies supply).stem) :
      t.Offers cwd (Path.join path name) ((files.lookup name).getD []) := by
    obtain ⟨data, hfile, -⟩ := hsuits.outputs name hname
    rw [lookup_of_mem hsuits.nodup hfile, Option.getD_some]
    exact hfiles (name, data) hfile
  have hpaths : List.Forall₂ (fun named d => t.Offers cwd named d)
      (((Stage.artifacts path (.ofSupplies path supply)).sources ++
        (Stage.artifacts path (.ofSupplies path supply)).deliverables).map (·.path))
      ((writtenContents files supply).sources ++ (writtenContents files supply).deliverables) := by
    rw [paths_artifacts]
    exact .cons (hmade (.tail _ (.tail _ (.head _)))) <| .cons (hmade (.head _)) <|
      .cons (h.stored .interpreter) <| .cons (hmade (.tail _ (.tail _ (.tail _ (.head _))))) <|
      .cons (hmade (.tail _ (.tail _ (.tail _ (.tail _ (.head _)))))) <|
      .cons (h.stored .documentation) <| .cons (h.stored .example) .nil
  exact List.forall₂_map_left_iff.1 hpaths

omit hlimit in
/-- A workspace in which five inputs have been stored is ready. -/
theorem Stocked.readyFor (hstocked : Stocked ws supply (fun role => some (supply role).data) t)
    (htidy : Tidy ws base t) (hroom : Path.HasRoom path 30) :
    ReadyFor ws base cwd path supply files t := by
  refine ⟨htidy, fun file hfile => ?_, fun name hname => ?_,
    fun role => hstocked.offers hsite htidy hroom rfl⟩
  · exact hstocked.canMake hsite htidy hpath (hsuits.takes file hfile).1 (hsuits.takes file hfile).2
  · refine hstocked.canMake hsite htidy hpath (hsuits.archives name hname) ?_
    simp only [archiveNames, List.mem_cons, List.not_mem_nil, or_false] at hname
    obtain rfl | rfl := hname <;> decide

omit hlimit in
/-- **A build** goes through if its tools leave what they have to, and the bundle can be read. -/
theorem ReadyFor.build_ok {p : Pipeline} {h : Host}
    (hready : ReadyFor ws base cwd path supply files h.files)
    (hcalls : h.CallsOnly (writer fun _ => files)) (hcwd : h.cwd = cwd)
    (hlimit : Deed.turnaround 0 < p.tools.stageTimeout * 1000) :
    ∃ h' data, p.build path (.ofSupplies path supply) h =
        .ok (Path.join path Bundle.resultArchive) h' ∧ h'.cwd = cwd ∧ Tidy ws base h'.files ∧
      h'.files.Offers cwd (Path.join path Bundle.resultArchive) data := by
  let command := commandFor p.tools path (.ofSupplies path supply)
  have hafter {t : Tree} (hready : ReadyFor ws base cwd path supply files t) (s : Stage) :=
    hready.leftBy_writer hsite hpath hsuits hlimit (command s)
  have hfound (s : Stage) : ReadyFor ws base cwd path supply files (foundBy
      (writer fun _ => files) cwd path p.tools.stageTimeout command h.files s) := by
    cases s with
    | grammar => exact hready
    | lexer => exact (hafter hready .grammar).1
    | link => exact (hafter (hafter hready .grammar).1 .lexer).1
  obtain ⟨hleft, hoffers⟩ := hafter (hfound .link) .link
  obtain ⟨a, h₁, hrun⟩ : ∃ a h₁,
      Stage.runAll p.tools path (.ofSupplies path supply) h = .ok a h₁ := by
    refine Stage.runAll_ok hcalls fun s => ?_
    rw [hcwd]
    exact (hfound s).meets hsite hpath hsuits hlimit p.tools s
  obtain ⟨rfl, hcwd₁, hfiles⟩ := Stage.runAll_eq_ok hcalls hrun
  rw [hcwd] at hfiles hcwd₁
  rw [← show h₁.files = leftBy (writer fun _ => files) cwd path p.tools.stageTimeout
    (command .link) _ from hfiles] at hleft hoffers
  obtain ⟨t, data, hassemble, htidy, hoffered⟩ := assemble_ok hsite hpath hleft.toTidy hcwd₁ supply
    hleft.archives (hleft.offers hsuits hoffers) hsuits.fit
  refine ⟨{ h₁ with files := t }, data, ?_, hcwd₁, htidy, hoffered⟩
  rw [Pipeline.build, Service.bind_of_ok hrun, hassemble]

end

/-- **A build** of five uploads goes through then. -/
theorem build_writer_ok {p : Pipeline} {h h₀ h₁ : Host} {w : Workspace} {order : List Role}
    {i : Intake} {supply : Role → Supply} {files : List (String × Bytes)}
    (hcalls : h.CallsOnly (writer fun _ => files)) (hsound : h.files.IsSound) (hcwd : IsReal h.cwd)
    (hacquire : p.acquireWorkspace h = .ok w h₀) (horder : order.Perm Role.all)
    (htake : Intake.takeAll supply order ({ workspace := w.path }, h₀) = .ok () (i, h₁))
    (hroom : Path.HasRoom w.path 30) (hsuits : SuitsBuild w.path supply files)
    (hlimit : Deed.turnaround 0 < p.tools.stageTimeout * 1000) :
    ∃ h₂, p.build w.path (.ofSupplies w.path supply) h₁ =
      .ok (Path.join w.path Bundle.resultArchive) h₂ := by
  obtain ⟨hopen, ws, hsite, hstocks⟩ :=
    stocks_of_takeAll hcalls hsound hcwd hacquire horder htake
  have hstocked : Stocked ws supply (fun role => some (supply role).data) h₁.files :=
    hstocks.stocked
  have hready := hstocked.readyFor hsite hopen hsuits hstocks.prepared.tidy hroom
  obtain ⟨h₂, _, hbuild, -⟩ :=
    hready.build_ok hsite hopen hsuits hstocks.works.calls hstocks.works.cwd hlimit
  exact ⟨h₂, hbuild⟩

end LangBundle
