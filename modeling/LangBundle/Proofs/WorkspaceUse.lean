import LangBundle.CommandLine.Build
import LangBundle.CommandLine.Doctor
import LangBundle.Http.Server
import LangBundle.Proofs.CommandLines
import LangBundle.Proofs.Confinement
import LangBundle.Proofs.Contracts
import LangBundle.Proofs.StageOrder

/-!
# What a build does to its workspace

Storing inputs, calling tools and writing archives, whatever comes of it, changes nothing outside
the workspace, as long as the tools keep to it.

* `Pipeline.Comes`: the trees that come of a tree when the tools are called on it.
* `ToolFunction.KeepsTo`: the tools keep to a workspace, whatever they do there.
* `ToolFunction.LeavesArchives`: they leave no way out of it in the place of an archive.
* `ensures_begin`, `ensures_write`: **the intake** keeps the workspace prepared.
* `ensures_runAll`, `ensures_assemble`: **a build** keeps to the workspace.
* `buildFiles_confined`, `buildUpload_confined`, `probe_confined`: so does all that uses one.
-/

namespace LangBundle

open Files Files.Tree
open Stage (leftBy commandFor)

/-! ## The tools -/

/-- The commands that a pipeline may call in a workspace. -/
def Pipeline.Calls (p : Pipeline) (path : String) (c : Stage.Command) : Prop :=
  (∃ inputs s, c = commandFor p.tools path inputs s) ∨ ∃ source, c = .probe p.tools path source

/-- The trees that come of a tree when the tools are called in a workspace. -/
inductive Pipeline.Comes (p : Pipeline) (f : ToolFunction) (cwd : Place) (path : String)
    (t : Tree) : Tree → Prop
  | start : Comes p f cwd path t t
  | call {t' : Tree} {c : Stage.Command} (h : Comes p f cwd path t t') (hc : p.Calls path c) :
      Comes p f cwd path t (leftBy f cwd path p.tools.stageTimeout c t')

/-- The tools keep to the workspace: what they leave differs below it only, and can be removed. -/
def ToolFunction.KeepsTo (f : ToolFunction) (p : Pipeline) (cwd : Place) (path : String)
    (ws : Place) (base : Tree) : Prop :=
  ∀ t t', Prepared ws base t → p.Comes f cwd path t t' → Confined ws base t'

/-- The names of the two archives. -/
def archiveNames : List String :=
  [Bundle.sourcesArchive, Bundle.resultArchive]

/-- The tools leave no way out of the workspace in the place of an archive. -/
def ToolFunction.LeavesArchives (f : ToolFunction) (p : Pipeline) (cwd : Place) (path : String)
    (ws : Place) (base : Tree) : Prop :=
  ∀ t t' inputs, Prepared ws base t → p.Comes f cwd path t t' → ∀ name ∈ archiveNames,
    LeadsInside ws
      (leftBy f cwd path p.tools.stageTimeout (commandFor p.tools path inputs .link) t') cwd
      (Path.join path name)

/-- The path of the workspace that is made next on a host. -/
def Pipeline.nextWorkspace (p : Pipeline) (h : Host) : String :=
  Workspace.pathOf p.root (h.ids h.drawn)

/-- The tools keep to the workspace that is made next on a host. -/
def ToolFunction.KeepsToNext (f : ToolFunction) (p : Pipeline) (h : Host) : Prop :=
  ∀ ws, h.files.Site h.cwd (p.nextWorkspace h) ws →
    f.KeepsTo p h.cwd (p.nextWorkspace h) ws h.files

/-- The tools leave no way out of the workspace that is made next on a host. -/
def ToolFunction.LeavesNextArchives (f : ToolFunction) (p : Pipeline) (h : Host) : Prop :=
  ∀ ws, h.files.Site h.cwd (p.nextWorkspace h) ws →
    f.LeavesArchives p h.cwd (p.nextWorkspace h) ws h.files

/-! ## A host at work -/

/-- What a build tells of between the making and the removal of its workspace. -/
def Event.IsWork : Event → Prop
  | .storing _ | .called _ => True
  | .acquired _ | .released _ => False

/-- A host that works for a build. -/
structure Host.Works (f : ToolFunction) (cwd : Place) (before : List Event) (h : Host) : Prop where
  calls : h.CallsOnly f
  cwd : h.cwd = cwd
  journal : ∃ work, h.journal = before ++ work ∧ ∀ e ∈ work, e.IsWork

section
variable {f : ToolFunction} {cwd : Place} {before : List Event} {h : Host}
  (hworks : h.Works f cwd before)
include hworks

theorem Host.Works.files (t : Tree) : Host.Works f cwd before { h with files := t } :=
  ⟨⟨hworks.calls.launch, hworks.calls.leftovers, hworks.calls.members⟩, hworks.cwd, hworks.journal⟩

theorem Host.Works.note {e : Event} (he : e.IsWork) : Host.Works f cwd before (h.note e) := by
  obtain ⟨work, hjournal, hwork⟩ := hworks.journal
  refine ⟨⟨hworks.calls.launch, hworks.calls.leftovers, hworks.calls.members⟩, hworks.cwd,
    work ++ [e], by rw [Host.note, hjournal, List.append_assoc], fun e' he' => ?_⟩
  obtain hold | hnew := List.mem_append.1 he'
  · exact hwork e' hold
  · rwa [List.mem_singleton.1 hnew]

end

section
variable {f : ToolFunction} {p : Pipeline} {base : Tree} {cwd ws : Place} {path : String}
  {before : List Event}

/-! ## The intake -/

variable (f base cwd ws path before) in
/-- The intake writes into the workspace. -/
structure TakesIn (s : Intake × Host) : Prop where
  workspace : s.1.workspace = path
  works : s.2.Works f cwd before
  prepared : Prepared ws base s.2.files

/-- The names of the file of an input below the workspace. -/
theorem isPlain_fileName (role : Role) (declared : Option String) :
    Path.IsPlain (Intake.fileName role (Intake.entryName role declared)) ∧
      Intake.fileName role (Intake.entryName role declared) ≠ ".." :=
  isPlain_stored (Naming.isSafe_ofSupplies fun _ => ⟨declared, []⟩) role

theorem isPlain_inputsDirectory : Path.IsPlain inputsDirectory ∧ inputsDirectory ≠ ".." :=
  Path.isPlain_of_head rfl (by decide) (by decide)

theorem split_fileName (hpath : Path.IsOpen path) {name : String} (hname : Path.IsPlain name) :
    Text.split '/' (Path.join (Path.join path inputsDirectory) name) =
      Text.split '/' path ++ [inputsDirectory, name] := by
  have hinputs := isPlain_inputsDirectory.1
  rw [Path.split_join (Path.isOpen_join hinputs path) hname.noSlash,
    Path.split_join hpath hinputs.noSlash, List.append_assoc]
  rfl

variable (hsite : base.Site cwd path ws) (hpath : Path.IsOpen path)
include hsite hpath

theorem leadsInside_fileName {t : Tree} (h : Prepared ws base t) {name : String}
    (hname : Path.IsPlain name ∧ name ≠ "..") :
    LeadsInside ws t cwd (Path.join (Path.join path inputsDirectory) name) := by
  have hinputs := isPlain_inputsDirectory
  refine h.leadsInside hsite (by simp) ?_ (split_fileName hpath hname.1) ?_
  · simpa using ⟨hinputs, hname⟩
  · rw [Path.isAbsolute_join (Path.isAbsolute_eq_false hname.1.noSlash),
      Path.isAbsolute_join (Path.isAbsolute_eq_false hinputs.1.noSlash)]

/-- **Beginning** an upload. -/
theorem ensures_begin (role : Role) (declared : Option String) :
    Ensures (TakesIn f base cwd ws path before) (Intake.begin role declared)
      (fun u s => TakesIn f base cwd ws path before s ∧ StaysInside ws s.2.files u.sink)
      (TakesIn f base cwd ws path before) := by
  refine ⟨fun (i, h) ⟨hworkspace, hworks, hprepared⟩ => ?_⟩
  obtain rfl : i.workspace = path := hworkspace
  have hinputs := isPlain_inputsDirectory
  have hname := isPlain_fileName role declared
  by_cases hclaimed : i.claimed.contains role = true
  · simp only [Intake.begin, if_pos hclaimed]
    exact ⟨rfl, hworks, hprepared⟩
  simp only [Intake.begin, if_neg hclaimed]
  have hnoted := hworks.note (e := .storing (Path.join (Path.join i.workspace inputsDirectory)
    (Intake.fileName role (Intake.entryName role declared)))) trivial
  generalize hnew : h.note _ = h' at hnoted ⊢
  have hfiles : h'.files = h.files := by rw [← hnew]; rfl
  rcases hmake : h'.files.makeDirectories h'.cwd (Path.join i.workspace inputsDirectory) with ⟨r, t⟩
  have hmade : Prepared ws base t := by
    rw [hfiles, hnoted.cwd] at hmake
    exact hprepared.makeDirectories hsite hinputs.1 hinputs.2 (by decide) hmake
  rcases r with fault | u
  · exact ⟨rfl, hnoted.files t, hmade⟩
  cases u
  dsimp only
  rcases hopen : t.openWrite h'.cwd (Path.join (Path.join i.workspace inputsDirectory)
    (Intake.fileName role (Intake.entryName role declared))) with fault | ⟨sink, t'⟩
  · exact ⟨rfl, hnoted.files t, hmade⟩
  · obtain ⟨p, hp, hopened⟩ := openWrite_eq_ok hopen
    rw [hnoted.cwd] at hp
    have hinside := leadsInside_fileName hsite hpath hmade hname
    exact ⟨⟨rfl, hnoted.files t', hmade.opened hsite hp hopened hinside⟩,
      .opened hmade.sound hp hopened hinside⟩

omit hsite hpath in
/-- **Writing** a piece of an upload. -/
theorem ensures_write (u : Upload) (data : Bytes) :
    Ensures (fun s => TakesIn f base cwd ws path before s ∧ StaysInside ws s.2.files u.sink)
      (Intake.write u data)
      (fun u s => TakesIn f base cwd ws path before s ∧ StaysInside ws s.2.files u.sink)
      (TakesIn f base cwd ws path before) := by
  refine ⟨fun (i, h) ⟨⟨hworkspace, hworks, hprepared⟩, hinside⟩ => ?_⟩
  have hnoted := hworks.note (e := .storing u.path) trivial
  simp only [Intake.write]
  rcases hwrite : (h.note (.storing u.path)).files.writeAt u.sink u.written data with fault | t
  · exact ⟨hworkspace, hnoted, hprepared⟩
  · exact ⟨⟨hworkspace, hnoted.files t, hprepared.writeAt hinside hwrite⟩, hinside.writeAt hwrite⟩

omit hsite hpath in
theorem ensures_commit (u : Upload) {E : Intake × Host → Prop} :
    Ensures (TakesIn f base cwd ws path before) (Intake.commit u)
      (fun _ => TakesIn f base cwd ws path before) E :=
  ⟨fun _ h => ⟨h.workspace, h.works, h.prepared⟩⟩

/-- Beginning an upload and writing it as one piece. -/
theorem ensures_begin_write (role : Role) (declared : Option String) (data : Bytes)
    {α : Type} {k : Upload → Intake.Step α}
    (hk : ∀ u, Ensures (TakesIn f base cwd ws path before) (k u)
      (fun _ => TakesIn f base cwd ws path before) (TakesIn f base cwd ws path before)) :
    Ensures (TakesIn f base cwd ws path before)
      (do
        let u ← Intake.begin role declared
        let u ← Intake.write u data
        k u)
      (fun _ => TakesIn f base cwd ws path before) (TakesIn f base cwd ws path before) :=
  (ensures_begin hsite hpath role declared).bind fun u =>
    (ensures_write u data).bind fun u => (hk u).imp (fun _ h => h.1) (fun _ _ h => h) fun _ h => h

theorem ensures_storePart (part : Http.Part) :
    Ensures (TakesIn f base cwd ws path before) (Http.Upload.storePart part)
      (fun _ => TakesIn f base cwd ws path before) (TakesIn f base cwd ws path before) := by
  unfold Http.Upload.storePart
  split
  · exact .pure fun _ h => h
  · exact ensures_begin_write hsite hpath _ _ _ fun u => ensures_commit u

theorem ensures_storeParts (parts : List Http.Part) :
    Ensures (TakesIn f base cwd ws path before) (Http.Upload.storeParts parts)
      (fun _ => TakesIn f base cwd ws path before) (TakesIn f base cwd ws path before) := by
  induction parts with
  | nil => exact .pure fun _ h => h
  | cons part rest ih => exact (ensures_storePart hsite hpath part).bind fun _ => ih

theorem ensures_beginBroken (fault : Http.Multipart.Fault) :
    Ensures (TakesIn f base cwd ws path before) (Http.Upload.beginBroken fault)
      (fun _ => TakesIn f base cwd ws path before) (TakesIn f base cwd ws path before) := by
  unfold Http.Upload.beginBroken
  split
  · split
    · exact .pure fun _ h => h
    · exact (ensures_begin hsite hpath _ _).bind fun _ => .pure fun _ h => h.1
  · exact .pure fun _ h => h

/-- **An upload** is stored in the workspace. -/
theorem store_prepared {w : Workspace} (hw : w.path = path) {h h' : Host}
    (hworks : h.Works f cwd before) (hprepared : Prepared ws base h.files) {boundary : String}
    {body : Bytes} {r : Except Http.Error Intake}
    (hstore : Http.Upload.store boundary body w h = (r, h')) :
    h'.Works f cwd before ∧ Prepared ws base h'.files := by
  rcases hread : Http.Multipart.read boundary body with ⟨parts, fault⟩
  have hstep : Ensures (TakesIn f base cwd ws path before)
      (do
        Http.Upload.storeParts parts
        fault.forM Http.Upload.beginBroken)
      (fun _ => TakesIn f base cwd ws path before) (TakesIn f base cwd ws path before) := by
    refine (ensures_storeParts hsite hpath parts).bind fun _ => ?_
    cases fault with
    | none => exact .pure fun _ h => h
    | some fault => exact ensures_beginBroken hsite hpath fault
  have hstart : TakesIn f base cwd ws path before ({ workspace := w.path }, h) :=
    ⟨hw, hworks, hprepared⟩
  simp only [Http.Upload.store, hread] at hstore
  split at hstore
  · next hx =>
    cases hstore
    have hend := hstep.of_error hstart hx
    exact ⟨hend.works, hend.prepared⟩
  · next hx =>
    cases hstore
    have hend := hstep.of_ok hstart hx
    exact ⟨hend.works, hend.prepared⟩
  · next hx =>
    cases hstore
    have hend := hstep.of_ok hstart hx
    exact ⟨hend.works, hend.prepared⟩

/-- **A file** is stored in the workspace. -/
theorem ensures_storeFile (role : Role) (source : String) :
    Ensures (TakesIn f base cwd ws path before) (Intake.storeFile role source)
      (fun _ => TakesIn f base cwd ws path before) (TakesIn f base cwd ws path before) := by
  have hstore (declared : Option String) (data : Bytes) (failure : Option String) :
      Ensures (TakesIn f base cwd ws path before) (Intake.store role declared data failure)
        (fun _ => TakesIn f base cwd ws path before) (TakesIn f base cwd ws path before) := by
    refine ensures_begin_write hsite hpath role declared data fun u => ?_
    cases failure with
    | some detail => exact .throw fun _ h => h
    | none => exact (ensures_commit u).bind fun _ => .pure fun _ h => h
  refine ⟨fun (i, h) htakes => ?_⟩
  simp only [Intake.storeFile]
  rcases h.files.openRead h.cwd source with fault | opened
  · exact htakes
  · exact (hstore _ _ _).ends (i, h) htakes

theorem ensures_storeFiles (source : Role → String) (roles : List Role) :
    Ensures (TakesIn f base cwd ws path before) (CommandLine.storeFiles source roles)
      (fun _ => TakesIn f base cwd ws path before) (TakesIn f base cwd ws path before) := by
  induction roles with
  | nil => exact .pure fun _ h => h
  | cons role rest ih =>
    exact (ensures_storeFile hsite hpath role (source role)).adaptExcept.bind fun _ => ih

/-! ## The stages -/

omit hsite hpath in
/-- **One call** of a tool. -/
theorem ensures_run {t : Tree} {c : Stage.Command} (hc : p.Calls path c) :
    Ensures (fun h => h.Works f cwd before ∧ p.Comes f cwd path t h.files)
      (c.run path p.tools.stageTimeout)
      (fun _ h => h.Works f cwd before ∧ ∃ t', p.Comes f cwd path t t' ∧
        h.files = leftBy f cwd path p.tools.stageTimeout c t')
      (fun h => h.Works f cwd before ∧ p.Comes f cwd path t h.files) := by
  refine ⟨fun h ⟨hworks, hcomes⟩ => ?_⟩
  obtain ⟨h', hran, hend⟩ := Stage.run_of_calls hworks.calls c path p.tools.stageTimeout
  have hfiles := hran.files
  rw [hworks.cwd] at hfiles
  have hworks' : h'.Works f cwd before := by
    have hnoted := hworks.note (e := .called c) trivial
    exact ⟨hran.calls, hran.cwd.trans hworks.cwd, by rw [hran.journal]; exact hnoted.journal⟩
  obtain ⟨-, o, hrun⟩ | ⟨-, failure, hrun⟩ := hend
  · rw [hrun]
    exact ⟨hworks', h.files, hcomes, hfiles⟩
  · rw [hrun]
    exact ⟨hworks', hfiles ▸ hcomes.call hc⟩

omit hsite hpath in
theorem ensures_runAll {t : Tree} (inputs : Inputs) :
    Ensures (fun h => h.Works f cwd before ∧ p.Comes f cwd path t h.files)
      (Stage.runAll p.tools path inputs)
      (fun a h => (h.Works f cwd before ∧ ∃ t', p.Comes f cwd path t t' ∧ h.files =
        leftBy f cwd path p.tools.stageTimeout (commandFor p.tools path inputs .link) t') ∧
        a = Stage.artifacts path inputs)
      (fun h => h.Works f cwd before ∧ p.Comes f cwd path t h.files) := by
  have hcalls (s : Stage) : p.Calls path (commandFor p.tools path inputs s) := .inl ⟨inputs, s, rfl⟩
  have hgoes (s : Stage) : Ensures (fun h => h.Works f cwd before ∧ p.Comes f cwd path t h.files)
      ((commandFor p.tools path inputs s).run path p.tools.stageTimeout)
      (fun _ h => h.Works f cwd before ∧ p.Comes f cwd path t h.files)
      (fun h => h.Works f cwd before ∧ p.Comes f cwd path t h.files) :=
    (ensures_run (hcalls s)).imp (fun _ h => h)
      (fun _ _ ⟨hworks, _, hcomes, hfiles⟩ => ⟨hworks, hfiles ▸ hcomes.call (hcalls s)⟩)
      fun _ h => h
  exact (hgoes .grammar).bind fun _ => (hgoes .lexer).bind fun _ =>
    (ensures_run (hcalls .link)).bind fun _ => .pure fun _ h => ⟨h, rfl⟩

/-! ## The archives -/

variable (f base cwd ws path before) in
/-- The archives are assembled in the workspace. -/
structure Assembles (h : Host) : Prop where
  works : h.Works f cwd before
  confined : Confined ws base h.files
  archives : ∀ name ∈ archiveNames, LeadsInside ws h.files cwd (Path.join path name)

omit hsite hpath in
/-- Reading what goes into an archive changes nothing. -/
theorem ensures_entriesOf {P : Host → Prop} (artifacts : List (Artifact × String)) :
    Ensures P (Bundle.entriesOf artifacts) (fun _ => P) P := by
  have hentry (a : Artifact) (name : String) :
      Ensures P (Bundle.entryOf a name) (fun _ => P) P := by
    refine Ensures.look.bind fun source => ?_
    have hread : Ensures P (do
        let data ← Service.look a.path fun t _ => t.readAll source
        Bundle.fitting a ⟨name, data⟩) (fun _ => P) P := by
      refine Ensures.look.bind fun data => ?_
      unfold Bundle.fitting
      split
      · exact .throw fun _ h => h
      · exact .pure fun _ h => h
    split
    · exact Ensures.bind (Q := fun _ => P) (.throw fun _ h => h) fun _ => hread
    · exact hread
  induction artifacts with
  | nil => exact .pure fun _ h => h
  | cons first rest ih =>
    exact (hentry first.1 first.2).bind fun _ => ih.bind fun _ => .pure fun _ h => h

omit hsite hpath in
theorem isPlain_archive {name : String} (h : name ∈ archiveNames) :
    Path.IsPlain name ∧ name ≠ ".." := by
  simp only [archiveNames, List.mem_cons, List.not_mem_nil, or_false] at h
  obtain rfl | rfl := h
  · exact Path.isPlain_of_head rfl (by decide) (by decide)
  · exact Path.isPlain_of_head rfl (by decide) (by decide)

/-- **Opening** an archive. -/
theorem ensures_openArchive {name : String} (hname : name ∈ archiveNames) :
    Ensures (Assembles f base cwd ws path before)
      (Service.onFiles (Path.join path name) fun t cwd => t.openWrite cwd (Path.join path name))
      (fun sink h => Assembles f base cwd ws path before h ∧ StaysInside ws h.files sink ∧
        h.files.get? ws ≠ none)
      (Assembles f base cwd ws path before) := by
  refine .onFiles (fun _ h => h) fun h sink t ⟨hworks, hconfined, harchives⟩ hopen => ?_
  have hplain := (isPlain_archive hname).1
  obtain ⟨p, hp, hopened⟩ := openWrite_eq_ok hopen
  rw [hworks.cwd] at hp
  have hsome := hconfined.ne_none (hsite.leads_of_off hconfined.off) (List.cons_ne_nil name [])
    (Path.split_join hpath hplain.noSlash)
    (Path.isAbsolute_join (Path.isAbsolute_eq_false hplain.noSlash) path) hp
  have hinside := harchives name hname
  have hconfined' := hconfined.opened hsite.ne_nil hsome hsite.real hp hopened hinside
  refine ⟨⟨hworks.files t, hconfined', fun other hother => ?_⟩,
    .opened hconfined.sound hp hopened hinside, ?_⟩
  · exact (harchives other hother).opened hconfined.sound hopened
      (hinside p p hp (isReal_of_resolve hsite.real hp) (.inl rfl))
  · obtain ⟨mode, hmode⟩ := directory_of_here hconfined.here hsome
    simp [hopened.sameShape.directory hmode]

theorem ensures_writeArchive {name : String} (hname : name ∈ archiveNames)
    (artifacts : List Artifact) :
    Ensures (Assembles f base cwd ws path before)
      (Bundle.writeArchive (Path.join path name) artifacts)
      (fun _ => Assembles f base cwd ws path before) (Assembles f base cwd ws path before) := by
  refine (ensures_openArchive hsite hpath hname).bind fun sink => ?_
  refine Ensures.bind ((ensures_entriesOf _).imp (fun _ h => h) (fun _ _ h => h) fun _ h => h.1)
    fun entries => ?_
  refine .onFiles (fun _ h => h.1) ?_
  rintro h _ t ⟨⟨hworks, hconfined, harchives⟩, hinside, hsome⟩ hwrite
  obtain ⟨t', hwrite, heq⟩ := Tree.bind_eq_ok hwrite
  cases heq
  exact ⟨hworks.files t, hconfined.writeAt hsome hinside hwrite,
    fun other hother => (harchives other hother).writeAt hwrite⟩

theorem ensures_assemble (artifacts : ArtifactSet) :
    Ensures (Assembles f base cwd ws path before) (Bundle.assemble artifacts path)
      (fun bundle h => Assembles f base cwd ws path before h ∧
        bundle = Path.join path Bundle.resultArchive)
      (Assembles f base cwd ws path before) := by
  have hsources : Bundle.sourcesArchive ∈ archiveNames := by simp [archiveNames]
  have hresult : Bundle.resultArchive ∈ archiveNames := by simp [archiveNames]
  refine (ensures_writeArchive hsite hpath hsources artifacts.sources).bind fun _ => ?_
  refine (ensures_writeArchive hsite hpath hresult (Bundle.resultArtifacts artifacts path)).bind
    fun _ => ?_
  exact .pure fun _ h => ⟨h, rfl⟩

/-- **A build** keeps to the workspace, however it ends. -/
theorem ensures_build (hkeeps : f.KeepsTo p cwd path ws base)
    (harchives : f.LeavesArchives p cwd path ws base) (inputs : Inputs) :
    Ensures (fun h => h.Works f cwd before ∧ Prepared ws base h.files) (p.build path inputs)
      (fun bundle h => (h.Works f cwd before ∧ Confined ws base h.files) ∧
        bundle = Path.join path Bundle.resultArchive)
      (fun h => h.Works f cwd before ∧ Confined ws base h.files) := by
  refine ⟨fun h ⟨hworks, hprepared⟩ => ?_⟩
  refine (Ensures.bind (P := fun h' => h'.Works f cwd before ∧ p.Comes f cwd path h.files h'.files)
    ((ensures_runAll inputs).imp (fun _ h => h) (fun _ _ h => h)
      fun h' ⟨hworks', hcomes⟩ => ⟨hworks', hkeeps _ _ hprepared hcomes⟩)
    fun artifacts => ?_).ends h ⟨hworks, .start⟩
  refine (ensures_assemble hsite hpath artifacts).imp ?_
    (fun _ h' ⟨hassembles, hbundle⟩ => ⟨⟨hassembles.works, hassembles.confined⟩, hbundle⟩)
    fun h' hassembles => ⟨hassembles.works, hassembles.confined⟩
  rintro h' ⟨⟨hworks', t', hcomes, hfiles⟩, -⟩
  have hlink : p.Calls path (commandFor p.tools path inputs .link) := .inl ⟨inputs, .link, rfl⟩
  refine ⟨hworks', ?_, fun name hname => ?_⟩
  · rw [hfiles]
    exact hkeeps _ _ hprepared (hcomes.call hlink)
  · rw [hfiles]
    exact harchives _ _ inputs hprepared hcomes name hname

/-- **A build from files** keeps to the workspace, however it ends. -/
theorem buildFiles_confined (hkeeps : f.KeepsTo p cwd path ws base)
    (harchives : f.LeavesArchives p cwd path ws base) {w : Workspace} (hw : w.path = path)
    {h h' : Host} (hworks : h.Works f cwd before) (hprepared : Prepared ws base h.files)
    {source : Role → String} {r : Except CommandLine.Failure String}
    (hbuild : CommandLine.buildFiles p source w h = (r, h')) :
    (h'.Works f cwd before ∧ Confined ws base h'.files) ∧
      ∀ bundle, r = .ok bundle → bundle = Path.join path Bundle.resultArchive := by
  subst hw
  have hstore : Ensures (TakesIn f base cwd ws w.path before)
      (CommandLine.storeFiles source Role.all) (fun _ => TakesIn f base cwd ws w.path before)
      (TakesIn f base cwd ws w.path before) := ensures_storeFiles hsite hpath source Role.all
  have hstart : TakesIn f base cwd ws w.path before ({ workspace := w.path }, h) :=
    ⟨rfl, hworks, hprepared⟩
  unfold CommandLine.buildFiles at hbuild
  split at hbuild
  · next hfail =>
    cases hbuild
    have hend := hstore.of_error hstart hfail
    exact ⟨⟨hend.works, hend.prepared.toConfined⟩, fun _ h => nomatch h⟩
  · next intake h₁ hok =>
    have hend := hstore.of_ok hstart hok
    split at hbuild
    · cases hbuild
      exact ⟨⟨hend.works, hend.prepared.toConfined⟩, fun _ h => nomatch h⟩
    · next inputs _ =>
      split at hbuild
      · next hfail =>
        cases hbuild
        exact ⟨(ensures_build hsite hpath hkeeps harchives inputs).of_error
          ⟨hend.works, hend.prepared⟩ hfail, fun _ h => nomatch h⟩
      · next hok =>
        cases hbuild
        obtain ⟨hin, hbundle⟩ := (ensures_build hsite hpath hkeeps harchives inputs).of_ok
          ⟨hend.works, hend.prepared⟩ hok
        exact ⟨hin, fun bundle h => by cases h; exact hbundle⟩

/-- **A build from an upload** keeps to the workspace, however it ends. -/
theorem buildUpload_confined {s : Http.Server} (hkeeps : f.KeepsTo s.pipeline cwd path ws base)
    (harchives : f.LeavesArchives s.pipeline cwd path ws base) {w : Workspace} (hw : w.path = path)
    {h h' : Host} (hworks : h.Works f cwd before) (hprepared : Prepared ws base h.files)
    {r : Http.Request} {boundary : String} {result : Except Http.Error String}
    (hbuild : s.buildUpload r boundary w h = (result, h')) :
    h'.Works f cwd before ∧ Confined ws base h'.files := by
  unfold Http.Server.buildUpload at hbuild
  split at hbuild
  · cases hbuild
    exact ⟨hworks, hprepared.toConfined⟩
  split at hbuild
  · cases hbuild
    exact ⟨hworks, hprepared.toConfined⟩
  split at hbuild
  · next hstore =>
    cases hbuild
    obtain ⟨hworks', hprepared'⟩ := store_prepared hsite hpath hw hworks hprepared hstore
    exact ⟨hworks', hprepared'.toConfined⟩
  · next hstore =>
    obtain ⟨hworks', hprepared'⟩ := store_prepared hsite hpath hw hworks hprepared hstore
    split at hbuild
    · cases hbuild
      exact ⟨hworks', hprepared'.toConfined⟩
    · next inputs _ =>
      rw [hw] at hbuild
      split at hbuild
      · next hok =>
        cases hbuild
        obtain ⟨hin, -⟩ := (ensures_build hsite hpath hkeeps harchives inputs).of_ok
          ⟨hworks', hprepared'⟩ hok
        exact hin
      · next hfail =>
        cases hbuild
        exact (ensures_build hsite hpath hkeeps harchives inputs).of_error
          ⟨hworks', hprepared'⟩ hfail

/-- **A probe** keeps to the workspace, however it ends. -/
theorem probe_confined (hkeeps : f.KeepsTo p cwd path ws base) {w : Workspace} (hw : w.path = path)
    {h h' : Host} (hworks : h.Works f cwd before) (hprepared : Prepared ws base h.files)
    {r : Except CommandLine.Failure Stage.Output} (hprobe : CommandLine.probe p w h = (r, h')) :
    h'.Works f cwd before ∧ Confined ws base h'.files := by
  subst hw
  have hplain : Path.IsPlain CommandLine.probeSource ∧ CommandLine.probeSource ≠ ".." :=
    Path.isPlain_of_head rfl (by decide) (by decide)
  have hnoted := hworks.note (e := .storing (w.join CommandLine.probeSource)) trivial
  have hinside : LeadsInside ws h.files cwd (w.join CommandLine.probeSource) := by
    refine hprepared.leadsInside hsite (List.cons_ne_nil CommandLine.probeSource []) ?_
      (Path.split_join hpath hplain.1.noSlash)
      (Path.isAbsolute_join (Path.isAbsolute_eq_false hplain.1.noSlash) w.path)
    simpa using hplain
  unfold CommandLine.probe at hprobe
  dsimp only at hprobe
  split at hprobe
  · cases hprobe
    exact ⟨hnoted, hprepared.toConfined⟩
  · next t hwrite =>
    rw [hnoted.cwd] at hwrite
    have hprepared' : Prepared ws base t := hprepared.write hsite hinside hwrite
    have hcall : p.Calls w.path (.probe p.tools w.path (w.join CommandLine.probeSource)) :=
      .inr ⟨_, rfl⟩
    have hcomes : p.Comes f cwd w.path t t := .start
    split at hprobe
    · next hfail =>
      cases hprobe
      obtain ⟨hworks', hcomes'⟩ := (ensures_run hcall).of_error ⟨hnoted.files t, hcomes⟩ hfail
      exact ⟨hworks', hkeeps _ _ hprepared' hcomes'⟩
    · next hok =>
      cases hprobe
      obtain ⟨hworks', t', hcomes', hfiles⟩ :=
        (ensures_run hcall).of_ok ⟨hnoted.files t, hcomes⟩ hok
      rw [hfiles]
      exact ⟨hworks', hkeeps _ _ hprepared' (hcomes'.call hcall)⟩

end

/-! ## A tool that writes files -/

/-- Writes a file, if that can be done. -/
def Files.Tree.writeIfPossible (t : Tree) (cwd : Place) (path : String) (data : Bytes) : Tree :=
  match t.write cwd path data with
  | .ok t => t
  | .error _ => t

/-- A tool that writes files in its working directory, by the name of the program. -/
def writer (files : String → List (String × Bytes)) : ToolFunction :=
  fun t cwd workdir program _ => .ok {
    said := []
    files := (files program).foldl
      (fun t file => t.writeIfPossible cwd (Path.join workdir file.1) file.2) t
    ending := some (0, .exited 0) }

/-- Tools under their usual names. -/
def usualTools : Toolchain :=
  { bison := "bison", flex := "flex", emcc := "emcc" }

/-- Something in each file that a build of a module has to leave. -/
def usualOutputs (stem : String) : List (String × Bytes) :=
  [Stage.parserSource, Stage.parserHeader, Stage.lexerSource, stem ++ ".js", stem ++ ".wasm"].map
    (·, [7])

section
variable {files : String → List (String × Bytes)}
  (hplain : ∀ program, ∀ file ∈ files program, Path.IsPlain file.1 ∧ file.1 ≠ "..")
  {p : Pipeline} {base t : Tree} {cwd ws : Place} {path : String}
  (hsite : base.Site cwd path ws) (hpath : Path.IsOpen path)
include hplain hsite hpath

theorem Files.Tree.Prepared.leftBy_writer (h : Prepared ws base t) (limit : Nat)
    (c : Stage.Command) : Prepared ws base (leftBy (writer files) cwd path limit c t) := by
  have hwritten (written : List (String × Bytes)) (hmem : ∀ file ∈ written,
      Path.IsPlain file.1 ∧ file.1 ≠ "..") (t : Tree) (h : Prepared ws base t) :
      Prepared ws base (written.foldl
        (fun t file => t.writeIfPossible cwd (Path.join path file.1) file.2) t) := by
    induction written generalizing t with
    | nil => exact h
    | cons file rest ih =>
      have hname := hmem file List.mem_cons_self
      refine ih (fun other hother => hmem other (List.mem_cons_of_mem file hother)) _ ?_
      dsimp only [writeIfPossible]
      split
      · next t' hwrite =>
        have hinside : LeadsInside ws t cwd (Path.join path file.1) :=
          h.leadsInside hsite (List.cons_ne_nil file.1 []) (by simpa using hname)
            (Path.split_join hpath hname.1.noSlash)
            (Path.isAbsolute_join (Path.isAbsolute_eq_false hname.1.noSlash) path)
        exact h.write hsite hinside hwrite
      · exact h
  unfold leftBy
  dsimp only [writer, Deed.filesAfter]
  split
  · exact h
  · exact hwritten _ (hplain c.program) t h

theorem Files.Tree.Prepared.comes_writer (h : Prepared ws base t) {t' : Tree}
    (hcomes : p.Comes (writer files) cwd path t t') : Prepared ws base t' := by
  induction hcomes with
  | start => exact h
  | call _ _ ih => exact ih.leftBy_writer hplain hsite hpath _ _

/-- A tool that writes files keeps to the workspace. -/
theorem keepsTo_writer : (writer files).KeepsTo p cwd path ws base :=
  fun _ _ h hcomes => (h.comes_writer hplain hsite hpath hcomes).toConfined

/-- It leaves no way out. -/
theorem leavesArchives_writer : (writer files).LeavesArchives p cwd path ws base := by
  intro t t' inputs h hcomes name hname
  have hleft := (h.comes_writer hplain hsite hpath hcomes).leftBy_writer hplain hsite hpath
    p.tools.stageTimeout (commandFor p.tools path inputs .link)
  have hname := isPlain_archive hname
  exact hleft.leadsInside hsite (List.cons_ne_nil name []) (by simpa using hname)
    (Path.split_join hpath hname.1.noSlash)
    (Path.isAbsolute_join (Path.isAbsolute_eq_false hname.1.noSlash) path)

end

end LangBundle
