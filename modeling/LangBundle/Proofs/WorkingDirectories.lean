import LangBundle.Proofs.BundleContents

/-!
# Two working directories

A tool works in its workspace, the service somewhere else, and both are told the same paths.  An
absolute path means the same file to both; a relative one need not.

* `resolve_of_isAbsolute`: an absolute path does not depend on the working directory.
* `ToolFunction.Honours`: a tool keeps its contract, told as it sees its files.
* `runAll_of_isAbsolute`: **absolute paths** mean the same files, and the stages go through.
* `stat_of_relative`: **a relative path** that does not lead up names nothing in a new workspace.
* `runAll_of_relative`: **a relative root** hides the inputs from the tools.
-/

namespace LangBundle

open Files Files.Tree
open Stage (leftBy foundBy commandFor IsFilled Meets)

/-! ## What a path means -/

namespace Files.Tree

/-- An absolute path means the same whoever resolves it. -/
theorem resolve_of_isAbsolute {path : String} (habs : Path.isAbsolute path = true) (t : Tree)
    (cwd place : Place) (follow : Bool) :
    t.resolve place path follow = t.resolve cwd path follow := by
  simp only [resolve, if_pos habs]

/-- Where no link is there is none to follow. -/
theorem Walks.follow {t : Tree} {links : Nat} {dir p : Place} {todo : List String}
    (hwalk : t.Walks false links dir todo p) (hlink : ∀ target, t.get? p ≠ some (.link target)) :
    t.Walks true links dir todo p := by
  induction hwalk with
  | here => exact .here
  | stay hdir hname _ ih => exact .stay hdir hname (ih hlink)
  | up hdir hsearch _ ih => exact .up hdir hsearch (ih hlink)
  | stop _ hat _ => exact absurd hat (hlink _)
  | jump henter hat _ htarget _ ih => exact .jump henter hat (.inr rfl) htarget (ih hlink)
  | down henter hat _ ih => exact .down henter hat (ih hlink)

theorem resolve_follow {t : Tree} {cwd p : Place} {path : String}
    (hp : t.resolve cwd path false = .ok p) (hlink : ∀ target, t.get? p ≠ some (.link target)) :
    t.resolve cwd path = .ok p := by
  obtain ⟨hfits, hwalk⟩ := resolve_eq_ok_iff.1 hp
  exact resolve_eq_ok_iff.2 ⟨hfits, hwalk.follow hlink⟩

section
variable {t : Tree} {cwd place : Place} {path : String}
  (hsame : t.resolve place path = t.resolve cwd path)
include hsame

/-- Who resolves a path to the same place reads the same file. -/
theorem Offers.of_same {data : Bytes} (h : t.Offers cwd path data) : t.Offers place path data := by
  obtain ⟨serial, mode, hstat, hallow⟩ := h
  refine ⟨serial, mode, ?_, hallow⟩
  rwa [stat_eq_ok_iff, hsame, ← stat_eq_ok_iff]

theorem CanMake.of_same (h : t.CanMake cwd path) : t.CanMake place path := by
  obtain ⟨hopen, p, hp, hnode⟩ := h
  exact ⟨hopen, p, hsame.trans hp, hnode⟩

end

end Files.Tree

/-! ## What a command names -/

/-- The upload that a stage works on. -/
def Stage.role : Stage → Role
  | .grammar => .grammar
  | .lexer => .lexer
  | .link => .interpreter

/-- The files that the tool of a stage reads. -/
def Stage.sources (tools : Toolchain) (path : String) (supply : Role → Supply) (s : Stage) :
    List String :=
  let input := ((supply s.role).input path s.role).path
  match s with
  | .grammar | .lexer => [input]
  | .link =>
    Path.join path Stage.lexerSource :: Path.join path Stage.parserSource :: input ::
      tools.supportLibs

/-- The arguments of commands that are no paths. -/
def Toolchain.options (tools : Toolchain) : List String :=
  "-d" :: "-o" :: "-s" :: tools.optimization :: tools.settings

/-- The paths that a stage's command names: its tool, if that is given by a path, what it reads and
what it has to leave. -/
def Stage.paths (tools : Toolchain) (path : String) (supply : Role → Supply) (s : Stage) :
    List String :=
  let c := commandFor tools path (.ofSupplies path supply) s
  (if '/' ∈ c.program.toList then [c.program] else []) ++
    (Stage.sources tools path supply s ++ c.outputs)

theorem input_mem_sources {tools : Toolchain} {path : String} {supply : Role → Supply} (s : Stage) :
    ((supply s.role).input path s.role).path ∈ Stage.sources tools path supply s := by
  cases s
  · exact .head _
  · exact .head _
  · exact .tail _ (.tail _ (.head _))

theorem input_mem_paths {tools : Toolchain} {path : String} {supply : Role → Supply} (s : Stage) :
    ((supply s.role).input path s.role).path ∈ Stage.paths tools path supply s :=
  List.mem_append_right _ (List.mem_append_left _ (input_mem_sources s))

/-- An argument is an option or one of these paths. -/
theorem mem_paths_of_mem_args {tools : Toolchain} {path : String} {supply : Role → Supply}
    {s : Stage} {argument : String}
    (hargument : argument ∈ (commandFor tools path (.ofSupplies path supply) s).args) :
    argument ∈ tools.options ∨ argument ∈ Stage.paths tools path supply s := by
  have hpath (h : argument ∈ Stage.sources tools path supply s ∨
      argument ∈ (commandFor tools path (.ofSupplies path supply) s).outputs) :
      argument ∈ Stage.paths tools path supply s :=
    List.mem_append_right _ (List.mem_append.2 h)
  cases s with
  | grammar =>
    simp only [commandFor, Stage.Command.grammar, List.mem_cons, List.not_mem_nil, or_false]
      at hargument
    rcases hargument with h | h | h | h
    · exact .inl (h ▸ .head _)
    · exact .inl (h ▸ .tail _ (.head _))
    · exact .inr (hpath (.inr (h ▸ .head _)))
    · exact .inr (hpath (.inl (h ▸ .head _)))
  | lexer =>
    simp only [commandFor, Stage.Command.lexer, List.mem_cons, List.not_mem_nil, or_false]
      at hargument
    rcases hargument with h | h | h
    · exact .inl (h ▸ .tail _ (.head _))
    · exact .inr (hpath (.inr (h ▸ .head _)))
    · exact .inr (hpath (.inl (h ▸ .head _)))
  | link =>
    simp only [commandFor, Stage.Command.link, Stage.Command.compile, List.mem_append,
      List.mem_cons, List.mem_flatMap, List.not_mem_nil, or_false] at hargument
    rcases hargument with (((h | h | h) | h) | h | ⟨setting, hsetting, h | h⟩) | h | h
    · exact .inr (hpath (.inl (h ▸ .head _)))
    · exact .inr (hpath (.inl (h ▸ .tail _ (.head _))))
    · exact .inr (hpath (.inl (h ▸ .tail _ (.tail _ (.head _)))))
    · exact .inr (hpath (.inl (.tail _ (.tail _ (.tail _ h)))))
    · exact .inl (h ▸ .tail _ (.tail _ (.tail _ (.head _))))
    · exact .inl (h ▸ .tail _ (.tail _ (.head _)))
    · exact .inl (h ▸ .tail _ (.tail _ (.tail _ (.tail _ hsetting))))
    · exact .inl (h ▸ .tail _ (.head _))
    · exact .inr (hpath (.inr (h ▸ .head _)))

/-- Workspaces, tools that are given by paths, and libraries have absolute paths. -/
structure Pipeline.IsAbsolute (p : Pipeline) : Prop where
  root : Path.isAbsolute p.root = true
  tools : ∀ program ∈ [p.tools.bison, p.tools.flex, p.tools.emcc], '/' ∈ program.toList →
    Path.isAbsolute program = true
  libs : ∀ lib ∈ p.tools.supportLibs, Path.isAbsolute lib = true

/-- Below an absolute root all that a command names is absolute. -/
theorem isAbsolute_of_mem_paths {p : Pipeline} (habs : p.IsAbsolute) {path : String}
    (hpath : Path.isAbsolute path = true) {supply : Role → Supply} {s : Stage} {named : String}
    (hnamed : named ∈ Stage.paths p.tools path supply s) : Path.isAbsolute named = true := by
  have hmade {name : String} (hname : name ∈ outputNames (Naming.ofSupplies supply).stem) :
      Path.isAbsolute (Path.join path name) = true := by
    have hplain := isPlain_of_mem_madeNames (Naming.isSafe_ofSupplies supply)
      (List.mem_append_left _ hname)
    rw [Path.isAbsolute_join (Path.isAbsolute_eq_false hplain.1.noSlash), hpath]
  have hstored (role : Role) : Path.isAbsolute ((supply role).input path role).path = true := by
    have hname := (isPlain_fileName role (supply role).declared).1
    have hinputs := isPlain_inputsDirectory.1
    exact (Path.isAbsolute_join (Path.isAbsolute_eq_false hname.noSlash) _).trans
      ((Path.isAbsolute_join (Path.isAbsolute_eq_false hinputs.noSlash) _).trans hpath)
  unfold Stage.paths at hnamed
  obtain hprogram | hnamed := List.mem_append.1 hnamed
  · split at hprogram
    · next hslash =>
      rw [List.mem_singleton] at hprogram
      subst hprogram
      refine habs.tools _ ?_ hslash
      cases s
      · exact .head _
      · exact .tail _ (.head _)
      · exact .tail _ (.tail _ (.head _))
    · cases hprogram
  obtain hsource | houtput := List.mem_append.1 hnamed
  · cases s with
    | grammar => exact List.mem_singleton.1 hsource ▸ hstored _
    | lexer => exact List.mem_singleton.1 hsource ▸ hstored _
    | link =>
      simp only [Stage.sources, List.mem_cons] at hsource
      rcases hsource with h | h | h | h
      · exact h ▸ hmade (.tail _ (.tail _ (.head _)))
      · exact h ▸ hmade (.head _)
      · exact h ▸ hstored _
      · exact habs.libs _ h
  · obtain ⟨name, hname, rfl⟩ := outputs_commandFor houtput
    exact hmade hname

/-! ## Tools that keep their contracts -/

/-- A tool keeps its contract for a stage in a workspace, as it sees its files from there: if it can
read its sources, its input is valid and its outputs can be made, it ends well, its outputs are
there and not empty, and it takes nothing away. -/
def ToolFunction.Honours (f : ToolFunction) (p : Pipeline) (cwd ws : Place) (base : Tree)
    (path : String) (supply : Role → Supply) (valid : Role → Bytes → Prop) (s : Stage) : Prop :=
  let c := commandFor p.tools path (.ofSupplies path supply) s
  ∀ t data, Tidy ws base t → t.directoryAt cwd path = .ok ws →
    (∀ source ∈ Stage.sources p.tools path supply s, t.CanRead ws source) →
    t.Shows ws ((supply s.role).input path s.role).path data → valid s.role data →
    (∀ output ∈ c.outputs, t.CanMake ws output) →
    ∃ d, f t cwd path c.program c.args = .ok d ∧
      d.statusWithin p.tools.stageTimeout = some (.exited 0) ∧ Tidy ws base d.files ∧
      (∀ output ∈ c.outputs, d.files.CanRead ws output ∧
        ∃ n, d.files.stat ws output = .ok n ∧ IsFilled n) ∧
      (∀ q, IsReal q → ws ++ [inputsDirectory] <+: q → d.files.get? q = t.get? q) ∧
      ∀ other, (t.CanRead ws other → d.files.CanRead ws other) ∧
        (t.CanMake ws other → d.files.CanMake ws other)

/-- What the tools need is within their reach. -/
structure InReach (p : Pipeline) (ws : Place) (base : Tree) (path : String)
    (supply : Role → Supply) (t : Tree) : Prop extends Tidy ws base t where
  stored : ∀ role, ∃ serial mode,
    t.get? (ws ++ storedNames supply role) = some (.file serial mode (supply role).data)
  inputs : ∀ s : Stage, t.CanRead ws ((supply s.role).input path s.role).path
  libs : ∀ lib ∈ p.tools.supportLibs, t.CanRead ws lib
  outputs : ∀ name ∈ outputNames (Naming.ofSupplies supply).stem,
    t.CanMake ws (Path.join path name)

/-- Such a workspace is there. -/
theorem InReach.directoryAt {p : Pipeline} {base t : Tree} {cwd ws : Place} {path : String}
    {supply : Role → Supply} (h : InReach p ws base path supply t) (hsite : base.Site cwd path ws) :
    t.directoryAt cwd path = .ok ws := by
  obtain ⟨serial, mode, hfile⟩ := h.stored .grammar
  have hreal := hsite.isReal.snoc isPlain_inputsDirectory.1.noSlash
  have hname := (isPlain_fileName .grammar (supply .grammar).declared).1.noSlash
  rw [storedNames, List.append_cons] at hfile
  obtain ⟨_, hinputs⟩ := h.sound.above _ _ (hreal.snoc hname) (hfile ▸ Option.some_ne_none _)
  obtain ⟨mode, hdir⟩ := h.sound.above _ _ hreal (hinputs ▸ Option.some_ne_none _)
  have hleads := resolve_follow (hsite.leads_of_off h.off) (by simp [hdir])
  simp only [Files.Tree.directoryAt, hleads, bind, Except.bind, hdir]
  rfl

section
variable {p : Pipeline} {f : ToolFunction} {base t : Tree} {cwd ws : Place} {path : String}
  {supply : Role → Supply} {valid : Role → Bytes → Prop} (hsite : base.Site cwd path ws)
  (hpath : Path.IsOpen path) (hvalid : ∀ role, valid role (supply role).data)
include hsite hpath hvalid

/-- **A stage** whose paths mean the same to the tool does what it has to, and what the tools need
stays within their reach. -/
theorem InReach.meets (h : InReach p ws base path supply t) {s : Stage}
    (hsame : ∀ named ∈ Stage.paths p.tools path supply s, ∀ (t : Tree) follow,
      t.resolve ws named follow = t.resolve cwd named follow)
    (hsources : ∀ source ∈ Stage.sources p.tools path supply s, t.CanRead ws source)
    (hhonours : f.Honours p cwd ws base path supply valid s) :
    let c := commandFor p.tools path (.ofSupplies path supply) s
    let left := leftBy f cwd path p.tools.stageTimeout c t
    Meets f cwd path p.tools.stageTimeout c t ∧ InReach p ws base path supply left ∧
      (∀ output ∈ c.outputs, left.CanRead ws output) ∧
      ∀ other, t.CanRead ws other → left.CanRead ws other := by
  intro c left
  have hmem {named : String} (hnamed : named ∈ c.outputs) :
      named ∈ Stage.paths p.tools path supply s :=
    List.mem_append_right _ (List.mem_append_right _ hnamed)
  have hshows : t.Shows ws ((supply s.role).input path s.role).path (supply s.role).data := by
    obtain ⟨_, _, _, hstat, -⟩ := hsources _ (input_mem_sources s)
    obtain ⟨q, hq, -⟩ := stat_eq_ok_iff.1 hstat
    have hq' := hq
    rw [hsame _ (input_mem_paths s)] at hq'
    obtain rfl := h.toTidy.resolve_continues hsite (continues_stored hpath s.role) hq'
    exact (shows_iff hq).2 (h.stored s.role)
  obtain ⟨d, hd, hstatus, htidy, hmade, hkept, hmore⟩ := hhonours t _ h.toTidy
    (h.directoryAt hsite) hsources hshows (hvalid s.role) fun output houtput => by
      obtain ⟨name, hname, rfl⟩ := outputs_commandFor houtput
      exact h.outputs name hname
  have hlimit : p.tools.stageTimeout ≠ 0 := by
    intro hzero
    rw [hzero] at hstatus
    obtain ⟨⟨time, status⟩, -, hend⟩ := Option.bind_eq_some_iff.1 hstatus
    simp at hend
  have hleft : left = d.files := by
    simp only [left, leftBy, c, hd, Deed.filesAfter, if_neg hlimit]
  rw [hleft]
  refine ⟨⟨d, hd, hstatus, fun output houtput => ?_⟩, ⟨htidy, fun role => ?_, fun other => ?_,
    fun lib hlib => ?_, fun name hname => ?_⟩, fun output houtput => (hmade output houtput).1,
    fun other hother => (hmore other).1 hother⟩
  · obtain ⟨-, n, hstat, hfilled⟩ := hmade output houtput
    refine ⟨n, ?_, hfilled⟩
    obtain ⟨q, hq, hn⟩ := stat_eq_ok_iff.1 hstat
    rw [hsame _ (hmem houtput)] at hq
    rw [Deed.filesAfter, if_neg hlimit]
    exact stat_eq_ok_iff.2 ⟨q, hq, hn⟩
  · rw [hkept _ (hsite.isReal.append (isReal_storedNames role))
      ⟨[_], by rw [List.append_assoc]; rfl⟩]
    exact h.stored role
  · exact (hmore _).1 (h.inputs other)
  · exact (hmore _).1 (h.libs lib hlib)
  · exact (hmore _).2 (h.outputs name hname)

end

/-- **With absolute paths** the tools mean the same files as the service, and the stages go through
if the tools keep their contracts and the uploads are valid. -/
theorem runAll_of_isAbsolute {p : Pipeline} {f : ToolFunction} {h h₀ h₁ : Host} {w : Workspace}
    {supply : Role → Supply} {order : List Role} {i : Intake} {inputs : Inputs}
    (valid : Role → Bytes → Prop) (habs : p.IsAbsolute) (hcalls : h.CallsOnly f)
    (hsound : h.files.IsSound) (hcwd : IsReal h.cwd) (hacquire : p.acquireWorkspace h = .ok w h₀)
    (horder : order.Perm Role.all)
    (htake : Intake.takeAll supply order ({ workspace := w.path }, h₀) = .ok () (i, h₁))
    (hfinish : i.finish = .ok inputs) (hroom : Path.HasRoom w.path 30)
    (hnames : ∀ name ∈ outputNames (Naming.ofSupplies supply).stem, Path.Takes w.path name)
    (hlibs : ∀ lib ∈ p.tools.supportLibs, h₁.files.CanRead h.cwd lib)
    (hvalid : ∀ role, valid role (supply role).data)
    (hhonours : ∀ ws, h.files.Site h.cwd w.path ws → ∀ s,
      f.Honours p h.cwd ws h.files w.path supply valid s) :
    ∃ ws, h₁.files.directoryAt h.cwd w.path = .ok ws ∧
      (∀ s, ∀ named ∈ Stage.paths p.tools w.path supply s, ∀ (t : Tree) follow,
        t.resolve ws named follow = t.resolve h.cwd named follow) ∧
      ∃ a h₂, Stage.runAll p.tools w.path inputs h₁ = .ok a h₂ := by
  rw [Intake.finish_of_takeAll horder htake] at hfinish
  cases hfinish
  obtain ⟨⟨hw, -⟩, -⟩ := acquireWorkspace_eq_ok hcalls hsound hcwd hacquire
  obtain ⟨hopen, ws, hsite, hstocks⟩ :=
    stocks_of_takeAll hcalls hsound hcwd hacquire horder htake
  have hcwd₁ : h₁.cwd = h.cwd := hstocks.works.cwd
  have htidy : Tidy ws h.files h₁.files := hstocks.prepared.tidy
  have hstocked : Stocked ws supply (fun role => some (supply role).data) h₁.files :=
    hstocks.stocked
  have hwabs : Path.isAbsolute w.path = true := by
    rw [hw, Pipeline.nextWorkspace, Workspace.pathOf,
      Path.isAbsolute_join (Path.isAbsolute_eq_false (isPlain_workspace _).noSlash)]
    exact habs.root
  have hsame (s : Stage) (named : String) (hnamed : named ∈ Stage.paths p.tools w.path supply s)
      (t : Tree) (follow : Bool) : t.resolve ws named follow = t.resolve h.cwd named follow :=
    resolve_of_isAbsolute (isAbsolute_of_mem_paths habs hwabs hnamed) t h.cwd ws follow
  have hlibSame (lib : String) (hlib : lib ∈ p.tools.supportLibs) (t : Tree) (follow : Bool) :
      t.resolve ws lib follow = t.resolve h.cwd lib follow :=
    resolve_of_isAbsolute (habs.libs lib hlib) t h.cwd ws follow
  have hstart : InReach p ws h.files w.path supply h₁.files := by
    refine ⟨htidy, fun role => ?_, fun s => ?_, fun lib hlib => ?_, fun name hname => ?_⟩
    · obtain ⟨serial, hfile⟩ := hstocked.file role _ rfl
      exact ⟨serial, fileMode, hfile⟩
    · exact ⟨_, (hstocked.offers hsite htidy hroom rfl).of_same (hsame s _ (input_mem_paths s) _ _)⟩
    · obtain ⟨data, hoffers⟩ := hlibs lib hlib
      exact ⟨data, hoffers.of_same (hlibSame lib hlib _ _)⟩
    · have htakes := hnames name hname
      have habsolute : Path.isAbsolute (Path.join w.path name) = true := by
        rw [Path.isAbsolute_join (Path.isAbsolute_eq_false htakes.plain.1.noSlash), hwabs]
      exact (hstocked.canMake hsite htidy hopen htakes (ne_inputsDirectory hname)).of_same
        (resolve_of_isAbsolute habsolute _ _ _ _)
  refine ⟨ws, hstart.directoryAt hsite, hsame, ?_⟩
  -- each stage finds its own input, and the last one what the two before it have left
  obtain ⟨hmeets₁, hreach₁, hmade₁, -⟩ := hstart.meets hsite hopen hvalid (hsame .grammar)
    (fun source hsource => List.mem_singleton.1 hsource ▸ hstart.inputs .grammar)
    (hhonours ws hsite .grammar)
  obtain ⟨hmeets₂, hreach₂, hmade₂, hmore₂⟩ := hreach₁.meets hsite hopen hvalid (hsame .lexer)
    (fun source hsource => List.mem_singleton.1 hsource ▸ hreach₁.inputs .lexer)
    (hhonours ws hsite .lexer)
  obtain ⟨hmeets₃, -⟩ := hreach₂.meets hsite hopen hvalid (hsame .link)
    (fun source hsource => by
      simp only [Stage.sources, List.mem_cons] at hsource
      rcases hsource with h | h | h | h
      · exact h ▸ hmade₂ _ (.head _)
      · exact h ▸ hmore₂ _ (hmade₁ _ (.head _))
      · exact h ▸ hreach₂.inputs .link
      · exact hreach₂.libs _ h) (hhonours ws hsite .link)
  refine Stage.runAll_ok hstocks.works.calls fun s => ?_
  rw [hcwd₁]
  cases s with
  | grammar => exact hmeets₁
  | lexer => exact hmeets₂
  | link => exact hmeets₃

/-- Tools that write their outputs keep their contracts below an absolute path. -/
theorem honours_writer {p : Pipeline} {base : Tree} {cwd ws : Place} {path : String}
    {supply : Role → Supply} (valid : Role → Bytes → Prop) {files : String → List (String × Bytes)}
    {s : Stage} (hsite : base.Site cwd path ws) (hpath : Path.IsOpen path)
    (habs : Path.isAbsolute path = true)
    (hlimit : Deed.turnaround 0 < p.tools.stageTimeout * 1000)
    (houtputs : (commandFor p.tools path (.ofSupplies path supply) s).outputs =
      (files (commandFor p.tools path (.ofSupplies path supply) s).program).map
        fun file => Path.join path file.1)
    (hfiles : ∀ file ∈ files (commandFor p.tools path (.ofSupplies path supply) s).program,
      file.1 ∈ outputNames (Naming.ofSupplies supply).stem ∧ file.2 ≠ [])
    (hnodup : ((files (commandFor p.tools path (.ofSupplies path supply) s).program).map
      Prod.fst).Nodup) :
    (writer files).Honours p cwd ws base path supply valid s := by
  unfold ToolFunction.Honours
  dsimp only
  generalize commandFor p.tools path (.ofSupplies path supply) s = c at houtputs hfiles hnodup ⊢
  intro t data htidy _ _ _ _ hmake
  have hplain (file : String × Bytes) (hfile : file ∈ files c.program) :
      Path.IsPlain file.1 ∧ file.1 ≠ ".." :=
    isPlain_of_mem_madeNames (Naming.isSafe_ofSupplies supply)
      (List.mem_append_left _ (hfiles file hfile).1)
  have hsame (file : String × Bytes) (hfile : file ∈ files c.program) (t : Tree) (follow : Bool) :
      t.resolve ws (Path.join path file.1) follow = t.resolve cwd (Path.join path file.1) follow := by
    refine resolve_of_isAbsolute ?_ t cwd ws follow
    rw [Path.isAbsolute_join (Path.isAbsolute_eq_false (hplain file hfile).1.noSlash), habs]
  have hlimited : p.tools.stageTimeout ≠ 0 := by
    intro hzero
    rw [hzero, Nat.zero_mul] at hlimit
    exact Nat.not_lt_zero _ hlimit
  obtain ⟨d, hd, hstatus⟩ : ∃ d, writer files t cwd path c.program c.args = .ok d ∧
      d.statusWithin p.tools.stageTimeout = some (.exited 0) :=
    ⟨_, rfl, by simp only [Deed.statusWithin, Option.bind_some, if_pos hlimit]⟩
  have hleft : leftBy (writer files) cwd path p.tools.stageTimeout c t = d.files := by
    simp only [leftBy, hd, Deed.filesAfter, if_neg hlimited]
  obtain ⟨htidy', hkept⟩ :=
    htidy.leftBy_writer hsite hpath files p.tools.stageTimeout c hplain
  obtain ⟨hgrows, hoffers⟩ := htidy.leftBy_writer_ok hsite hpath files hlimited c hnodup hplain
    fun file hfile => (hmake _ (houtputs ▸ List.mem_map_of_mem hfile)).of_same
      (hsame file hfile t true).symm
  rw [hleft] at htidy' hkept hgrows hoffers
  refine ⟨d, hd, hstatus, htidy', fun output houtput => ?_, fun q hq hbelow => ?_,
    fun other => ⟨hgrows.canRead, hgrows.canMake htidy.sound hsite.isReal⟩⟩
  · rw [houtputs] at houtput
    obtain ⟨file, hfile, rfl⟩ := List.mem_map.1 houtput
    obtain ⟨serial, mode, hstat, hallow⟩ := (hoffers file hfile).of_same (hsame file hfile _ _)
    exact ⟨⟨file.2, serial, mode, hstat, hallow⟩, _, hstat, (hfiles file hfile).2⟩
  · exact hkept inputsDirectory q hq hbelow fun file hfile =>
      ne_inputsDirectory (hfiles file hfile).1

/-- The arguments of the usual tools that name what they read. -/
def sourcesIn (program : String) (args : List String) : List String :=
  if program = "emcc" then args.take 3 else args.drop (args.length - 1)

/-- A tool that writes files in its working directory, if it can read all its sources from there. -/
def careful (files : String → List (String × Bytes)) : ToolFunction :=
  fun t cwd workdir program args => do
    let place ← t.directoryAt cwd workdir
    if (sourcesIn program args).all fun source => (t.openRead place source).isOk then
      writer files t cwd workdir program args
    else return { said := [], files := t, ending := some (0, .exited 3) }

/-- Such tools keep their contracts if those that just write their outputs do. -/
theorem ToolFunction.Honours.careful {p : Pipeline} {base : Tree} {cwd ws : Place} {path : String}
    {supply : Role → Supply} {valid : Role → Bytes → Prop} {files : String → List (String × Bytes)}
    {s : Stage} (h : (writer files).Honours p cwd ws base path supply valid s)
    (hsources : let c := commandFor p.tools path (.ofSupplies path supply) s
      sourcesIn c.program c.args ⊆ Stage.sources p.tools path supply s) :
    (careful files).Honours p cwd ws base path supply valid s := by
  unfold ToolFunction.Honours at h ⊢
  dsimp only at h hsources ⊢
  generalize commandFor p.tools path (.ofSupplies path supply) s = c at h hsources ⊢
  intro t data htidy hdir hread hshows hvalid hmake
  obtain ⟨d, hd, hends⟩ := h t data htidy hdir hread hshows hvalid hmake
  have hall : ((sourcesIn c.program c.args).all fun source => (t.openRead ws source).isOk) = true := by
    rw [List.all_eq_true]
    intro source hsource
    obtain ⟨content, hoffers⟩ := hread source (hsources hsource)
    obtain ⟨opened, hopen, -⟩ := hoffers.read_ok htidy.sound
    rw [hopen]
    rfl
  refine ⟨d, ?_, hends⟩
  rw [← hd]
  simp only [LangBundle.careful, hdir, bind, Except.bind, hall, if_true]

/-- Without one of its sources such a tool fails. -/
theorem careful_of_unread {files : String → List (String × Bytes)} {t : Tree} {cwd place : Place}
    {workdir program source : String} {args : List String}
    (hdir : t.directoryAt cwd workdir = .ok place) (hsource : source ∈ sourcesIn program args)
    (hhidden : ∀ n, t.stat place source ≠ .ok n) :
    careful files t cwd workdir program args =
      .ok { said := [], files := t, ending := some (0, .exited 3) } := by
  have hall : ((sourcesIn program args).all fun source => (t.openRead place source).isOk) = false := by
    rw [List.all_eq_false]
    refine ⟨source, hsource, ?_⟩
    rcases hstat : t.stat place source with fault | n
    · simp [openRead, hstat, bind, Except.bind, Except.isOk, Except.toBool]
    · exact absurd hstat (hhidden n)
  simp only [careful, hdir, bind, Except.bind, hall, Bool.false_eq_true, if_false]
  rfl

/-- Each of the usual tools leaves its own outputs. -/
def ownOutputs (program : String) : List (String × Bytes) :=
  (match program with
    | "bison" => [Stage.parserSource, Stage.parserHeader]
    | "flex" => [Stage.lexerSource]
    | _ => ["interpreter.js", "interpreter.wasm"]).map (·, [7])

theorem outputs_ownOutputs {path : String} {supply : Role → Supply}
    (hstem : (Naming.ofSupplies supply).stem = "interpreter") (s : Stage) :
    let c := commandFor usualTools path (.ofSupplies path supply) s
    c.outputs = (ownOutputs c.program).map fun file => Path.join path file.1 := by
  rw [Naming.stem_ofSupplies] at hstem
  cases s
  · rfl
  · rfl
  · simp only [commandFor, Stage.Command.link, Stage.Command.compile, Inputs.ofSupplies,
      Supply.entryName_input, hstem]
    rfl

theorem honours_ownOutputs {base : Tree} {cwd ws : Place} {path : String} {supply : Role → Supply}
    (root : String) (hsite : base.Site cwd path ws) (hpath : Path.IsOpen path)
    (habs : Path.isAbsolute path = true)
    (hstem : (Naming.ofSupplies supply).stem = "interpreter") (valid : Role → Bytes → Prop)
    (s : Stage) :
    (careful ownOutputs).Honours ⟨root, usualTools⟩ cwd ws base path supply valid s := by
  have hnames : ∀ s : Stage,
      (∀ file ∈ ownOutputs (commandFor usualTools path (.ofSupplies path supply) s).program,
        file.1 ∈ outputNames "interpreter" ∧ file.2 ≠ []) ∧
      ((ownOutputs (commandFor usualTools path (.ofSupplies path supply) s).program).map
        Prod.fst).Nodup := by
    rintro (_ | _ | _)
    · show (∀ file ∈ ownOutputs "bison", _) ∧ ((ownOutputs "bison").map Prod.fst).Nodup
      decide
    · show (∀ file ∈ ownOutputs "flex", _) ∧ ((ownOutputs "flex").map Prod.fst).Nodup
      decide
    · show (∀ file ∈ ownOutputs "emcc", _) ∧ ((ownOutputs "emcc").map Prod.fst).Nodup
      decide
  obtain ⟨hfiles, hnodup⟩ := hnames s
  have hlimit : Deed.turnaround 0 < usualTools.stageTimeout * 1000 := by decide
  have hwrites : (writer ownOutputs).Honours ⟨root, usualTools⟩ cwd ws base path supply valid s :=
    honours_writer valid hsite hpath habs hlimit (outputs_ownOutputs hstem s) (hstem ▸ hfiles) hnodup
  refine hwrites.careful ?_
  cases s
  · exact List.Subset.refl _
  · exact List.Subset.refl _
  · exact List.Subset.refl _

def dutifulHost : Host :=
  ({ files := precious } : Host).withTools (careful ownOutputs)

/-- Tools that write their outputs make the stages of a valid build go through. -/
theorem runAll_of_dutifulHost : ∃ w h₀ i h₁ inputs,
    (Pipeline.IsAbsolute ⟨"/", usualTools⟩ ∧ dutifulHost.CallsOnly (careful ownOutputs) ∧
      dutifulHost.files.IsSound ∧ IsReal dutifulHost.cwd ∧
      Pipeline.acquireWorkspace ⟨"/", usualTools⟩ dutifulHost = .ok w h₀ ∧
      Role.all.Perm Role.all ∧
      Intake.takeAll twoPieces Role.all ({ workspace := w.path }, h₀) = .ok () (i, h₁) ∧
      i.finish = .ok inputs ∧ Path.HasRoom w.path 30 ∧
      (∀ name ∈ outputNames (Naming.ofSupplies twoPieces).stem, Path.Takes w.path name) ∧
      (∀ lib ∈ usualTools.supportLibs, h₁.files.CanRead dutifulHost.cwd lib) ∧
      (∀ role, (fun _ data => data ≠ []) role (twoPieces role).data) ∧
      ∀ ws, dutifulHost.files.Site dutifulHost.cwd w.path ws → ∀ s,
        (careful ownOutputs).Honours ⟨"/", usualTools⟩ dutifulHost.cwd ws dutifulHost.files w.path
          twoPieces (fun _ data => data ≠ []) s) ∧
    ∃ ws, h₁.files.directoryAt dutifulHost.cwd w.path = .ok ws ∧
      (∀ s, ∀ named ∈ Stage.paths usualTools w.path twoPieces s, ∀ (t : Tree) follow,
        t.resolve ws named follow = t.resolve dutifulHost.cwd named follow) ∧
      ∃ a h₂, Stage.runAll usualTools w.path inputs h₁ = .ok a h₂ := by
  have hcalls : dutifulHost.CallsOnly (careful ownOutputs) := Host.callsOnly_withTools _ _
  have habs : Pipeline.IsAbsolute ⟨"/", usualTools⟩ :=
    ⟨by decide, by decide, fun lib hlib => nomatch hlib⟩
  have hnext : Pipeline.nextWorkspace ⟨"/", usualTools⟩ dutifulHost = firstPath := by
    decide +kernel
  obtain ⟨w, h₀, hacquire⟩ := acquireWorkspace_ok (p := ⟨"/", usualTools⟩)
    (h := dutifulHost) (hnext ▸ site_staleHost)
  have hw : w.path = firstPath :=
    (acquireWorkspace_eq_ok hcalls isSound_precious isReal_nil hacquire).1.1.trans hnext
  have hroom : Path.HasRoom w.path 30 := hw ▸ hasRoom_firstPath
  obtain ⟨-, ws, hsite, hstart⟩ :=
    stocks_of_acquireWorkspace twoPieces hcalls isSound_precious isReal_nil hacquire
  obtain ⟨⟨i, h₁⟩, htake⟩ := takeAll_ok hsite hroom (by rw [hw]; decide +kernel) Role.nodup_all
    hstart fun role _ => by simp
  have hfinish := Intake.finish_of_takeAll (List.Perm.refl Role.all) htake
  have hstem : (Naming.ofSupplies twoPieces).stem = "interpreter" := by decide +kernel
  have hnames (name : String) (hname : name ∈ outputNames (Naming.ofSupplies twoPieces).stem) :
      Path.Takes w.path name := by
    rw [hstem] at hname
    have hfile : (name, [7]) ∈ usualOutputs "interpreter" := List.mem_map_of_mem hname
    exact hw ▸ (suitsBuild_staleFiles.takes _ (.tail _ (.tail _ hfile))).1
  have hlibs (lib : String) (hlib : lib ∈ usualTools.supportLibs) :
      h₁.files.CanRead dutifulHost.cwd lib := nomatch hlib
  have hvalid (role : Role) : (twoPieces role).data ≠ [] := List.cons_ne_nil _ _
  have hhonours (ws : Place) (hsite : dutifulHost.files.Site dutifulHost.cwd w.path ws) :=
    honours_ownOutputs "/" hsite hroom.toIsOpen (by rw [hw]; decide +kernel) hstem
      fun _ data => data ≠ []
  refine ⟨w, h₀, i, h₁, .ofSupplies w.path twoPieces, ⟨habs, hcalls, isSound_precious, isReal_nil,
    hacquire, .refl _, htake, hfinish, hroom, hnames, hlibs, hvalid, hhonours⟩, ?_⟩
  exact runAll_of_isAbsolute (h := dutifulHost) (p := ⟨"/", usualTools⟩) (fun _ data => data ≠ []) habs
    hcalls isSound_precious isReal_nil hacquire (.refl _) htake hfinish
    hroom hnames hlibs hvalid hhonours

/-! ## Relative paths -/

section
variable {base t : Tree} {cwd ws : Place} {path : String} {supply : Role → Supply}
  {held : Role → Option Bytes} (hsite : base.Site cwd path ws) (htidy : Tidy ws base t)
  (hstocked : Stocked ws supply held t)
include hsite htidy hstocked

/-- **A relative path** that does not lead up names nothing to the tools, unless it is one of the
inputs by its path in the workspace. -/
theorem stat_of_relative {named name : String} {front : List String}
    (hrelative : Path.isAbsolute named = false) (hsplit : Text.split '/' named = front ++ [name])
    (hup : ".." ∉ front) (hname : Path.IsPlain name ∧ name ≠ "..")
    (hinputs : Path.names named ≠ [inputsDirectory])
    (hstored : ∀ role, Path.names named ≠ storedNames supply role) (n : Node) :
    t.stat ws named ≠ .ok n := by
  intro hstat
  obtain ⟨q, hq, hn⟩ := stat_eq_ok_iff.1 hstat
  obtain ⟨-, hwalk⟩ := resolve_eq_ok_iff.1 hq
  rw [hrelative, if_neg Bool.false_ne_true, hsplit] at hwalk
  have hnames : Path.names named =
      front.filter (fun name => name != "" && name != ".") ++ [name] := by
    have hkeep : (name != "" && name != ".") = true := by
      simp [hname.1.not_empty, hname.1.not_dot]
    rw [Path.names, hsplit, List.filter_append, List.filter_singleton, hkeep]
    rfl
  -- the tool walks along all names of the path, from the workspace on
  have hwalk : t.Walks true maxLinks ws (Path.names named) q :=
    hnames ▸ Walks.thin (thinner_filter front) hwalk
  have hplain (other : String) (hother : other ∈ Path.names named) :
      Path.IsPlain other ∧ other ≠ ".." := by
    refine ⟨Path.isPlain_of_mem_names hother, ?_⟩
    rw [hnames] at hother
    rintro rfl
    obtain hother | hother := List.mem_append.1 hother
    · exact hup (List.mem_of_mem_filter hother)
    · exact hname.2 (List.mem_singleton.1 hother).symm
  have hlink (r : Place) (target : String) (hbelow : ws <+: r) (hr : IsReal r) :
      t.get? r ≠ some (.link target) := by
    intro hat
    obtain hdir | ⟨_, _, _, hfile⟩ := htidy.plain r _ hr hbelow hat
    · cases hdir
    · cases hfile
  obtain rfl := hwalk.eq_append hplain hlink hsite.isReal
  have hne {names : List String} (h : Path.names named ≠ names) :
      ws ++ Path.names named ≠ ws ++ names :=
    fun heq => h (List.append_cancel_left heq)
  have hnone := hstocked.nothing _
    (hsite.isReal.append fun other hother => (hplain other hother).1.noSlash)
    (List.prefix_append _ _) (by simp [hnames]) (hne hinputs) fun role _ _ => hne (hstored role)
  rw [hnone] at hn
  cases hn

/-- **With a relative root** that does not lead up no tool finds any of the inputs under the path that
it is given. -/
theorem stat_stored_of_relative (hpath : Path.IsOpen path)
    (hrelative : Path.isAbsolute path = false) (hup : ".." ∉ Path.names path)
    (hne : Path.names path ≠ []) (role : Role) (n : Node) :
    t.stat ws ((supply role).input path role).path ≠ .ok n := by
  have hcontinues : Path.Continues path (storedNames supply role)
      ((supply role).input path role).path := continues_stored hpath role
  have hsplit := hcontinues.split
  rw [storedNames, List.append_cons] at hsplit
  have hlength : (Path.names ((supply role).input path role).path).length =
      (Path.names path).length + 2 := by
    have hname := (isPlain_fileName role (supply role).declared).1
    have hnames : Path.names ((supply role).input path role).path =
        Path.names path ++ [inputsDirectory] ++ [Intake.fileName role ((supply role).entryName role)] :=
      (Path.names_join hname _).trans
        (congrArg (· ++ _) (Path.names_join isPlain_inputsDirectory.1 path))
    rw [hnames, List.length_append, List.length_append]
    rfl
  have hpositive := List.length_pos_iff.2 hne
  refine stat_of_relative hsite htidy hstocked (hcontinues.isAbsolute.trans hrelative) hsplit ?_
    (isPlain_fileName role (supply role).declared) ?_ ?_ n
  · intro hmem
    obtain hmem | hmem := List.mem_append.1 hmem
    · exact hup (List.mem_filter.2 ⟨hmem, rfl⟩)
    · exact isPlain_inputsDirectory.2 (List.mem_singleton.1 hmem).symm
  · intro heq
    rw [heq, List.length_singleton] at hlength
    omega
  · intro other heq
    rw [heq, show (storedNames supply other).length = 2 from rfl] at hlength
    omega

end

/-- **With a relative root** that does not lead up a build fails if its first tool needs its input,
though all inputs are where the service means them to be. -/
theorem runAll_of_relative {p : Pipeline} {f : ToolFunction} {h h₀ h₁ : Host} {w : Workspace}
    {supply : Role → Supply} {order : List Role} {i : Intake} {inputs : Inputs}
    (hrelative : Path.isAbsolute p.root = false) (hup : ".." ∉ Path.names p.root)
    (hcalls : h.CallsOnly f) (hsound : h.files.IsSound) (hcwd : IsReal h.cwd)
    (hacquire : p.acquireWorkspace h = .ok w h₀) (horder : order.Perm Role.all)
    (htake : Intake.takeAll supply order ({ workspace := w.path }, h₀) = .ok () (i, h₁))
    (hfinish : i.finish = .ok inputs) (hroom : Path.HasRoom w.path 30)
    (hneeds : ∀ ws t, t.directoryAt h.cwd w.path = .ok ws →
      (∀ n, t.stat ws ((supply .grammar).input w.path .grammar).path ≠ .ok n) →
      ¬ Stage.Meets f h.cwd w.path p.tools.stageTimeout
        (commandFor p.tools w.path (.ofSupplies w.path supply) .grammar) t) :
    ∃ ws, h₁.files.directoryAt h.cwd w.path = .ok ws ∧
      (∀ role, h₁.files.Offers h.cwd ((supply role).input w.path role).path (supply role).data ∧
        ∀ n, h₁.files.stat ws ((supply role).input w.path role).path ≠ .ok n) ∧
      ∃ failure said h₂, Stage.runAll p.tools w.path inputs h₁ =
        .error (.stage .grammar failure said) h₂ := by
  rw [Intake.finish_of_takeAll horder htake] at hfinish
  cases hfinish
  obtain ⟨⟨hw, -⟩, -⟩ := acquireWorkspace_eq_ok hcalls hsound hcwd hacquire
  obtain ⟨hopen, ws, hsite, hstocks⟩ :=
    stocks_of_takeAll hcalls hsound hcwd hacquire horder htake
  have hcwd₁ : h₁.cwd = h.cwd := hstocks.works.cwd
  have htidy : Tidy ws h.files h₁.files := hstocks.prepared.tidy
  have hstocked : Stocked ws supply (fun role => some (supply role).data) h₁.files :=
    hstocks.stocked
  have hplace := isPlain_workspace (h.ids h.drawn)
  have hnames : Path.names w.path =
      Path.names p.root ++ [Workspace.namePrefix ++ (h.ids h.drawn).text] := by
    rw [hw, Pipeline.nextWorkspace, Workspace.pathOf, Path.names_join hplace]
  have hdirectory : h₁.files.directoryAt h.cwd w.path = .ok ws := by
    have hleads := resolve_follow (hsite.leads_of_off htidy.off) (by simp [hstocked.directory])
    simp only [directoryAt, hleads, bind, Except.bind, hstocked.directory]
    rfl
  have hhidden (role : Role) (n : Node) :
      h₁.files.stat ws ((supply role).input w.path role).path ≠ .ok n := by
    refine stat_stored_of_relative hsite htidy hstocked hopen ?_ ?_ ?_ role n
    · rw [hw, Pipeline.nextWorkspace, Workspace.pathOf,
        Path.isAbsolute_join (Path.isAbsolute_eq_false hplace.noSlash), hrelative]
    · rw [hnames, List.mem_append, List.mem_singleton, not_or]
      exact ⟨hup, fun heq => (leadsDown_workspace (h.ids h.drawn)).2 heq.symm⟩
    · rw [hnames]
      exact List.append_ne_nil_of_right_ne_nil _ (List.cons_ne_nil _ _)
  refine ⟨ws, hdirectory, fun role => ⟨hstocked.offers hsite htidy hroom rfl, hhidden role⟩, ?_⟩
  have hfails := hneeds ws h₁.files hdirectory (hhidden .grammar)
  rw [← hcwd₁] at hfails
  obtain ⟨h₂, -, ⟨hmeets, -⟩ | ⟨-, failure, hrun⟩⟩ := Stage.run_of_calls hstocks.works.calls
    (commandFor p.tools w.path (.ofSupplies w.path supply) .grammar) w.path p.tools.stageTimeout
  · exact absurd hmeets hfails
  · exact ⟨failure, _, h₂, by rw [Stage.runAll, Service.bind_of_error hrun]; rfl⟩

/-- Files with a directory for workspaces. -/
def relativeHost : Host :=
  ({ files := ({} : Tree).insert ["work"] (.directory directoryMode) 0 } : Host).withTools
    (careful ownOutputs)

theorem site_relativeHost : relativeHost.files.Site relativeHost.cwd
    "work/idiogen-00000000-0000-4000-8000-000000000000" ("work" :: firstPlace) := by
  refine ⟨isSound_empty.insert ?_ rfl ⟨[], "work", directoryMode, rfl, get?_root _⟩ (Nat.zero_le _)
    (fun _ hserial => nomatch hserial), isReal_nil, by decide +kernel, rfl, rfl⟩
  intro name hname
  rw [List.mem_singleton.1 hname]
  decide

/-- Tools that keep their contracts below an absolute root fail a valid build below a relative one,
where the grammar's path means another place to the tool than to the service. -/
theorem not_runAll_of_relativeHost : ∃ w h₀ i h₁ inputs ws,
    ((∀ base cwd ws path s, base.Site cwd path ws → Path.IsOpen path →
        Path.isAbsolute path = true → (careful ownOutputs).Honours ⟨"work", usualTools⟩ cwd ws base
          path twoPieces (fun _ data => data ≠ []) s) ∧
      relativeHost.CallsOnly (careful ownOutputs) ∧
      Pipeline.acquireWorkspace ⟨"work", usualTools⟩ relativeHost = .ok w h₀ ∧
      Intake.takeAll twoPieces Role.all ({ workspace := w.path }, h₀) = .ok () (i, h₁) ∧
      i.finish = .ok inputs ∧ h₁.files.directoryAt relativeHost.cwd w.path = .ok ws) ∧
    (∃ named ∈ Stage.paths usualTools w.path twoPieces .grammar,
      h₁.files.resolve ws named ≠ h₁.files.resolve relativeHost.cwd named) ∧
    ∃ failure said h₂, Stage.runAll usualTools w.path inputs h₁ =
      .error (.stage .grammar failure said) h₂ := by
  have hcalls : relativeHost.CallsOnly (careful ownOutputs) := Host.callsOnly_withTools _ _
  have hnext : Pipeline.nextWorkspace ⟨"work", usualTools⟩ relativeHost =
      "work/idiogen-00000000-0000-4000-8000-000000000000" := by decide +kernel
  obtain ⟨w, h₀, hacquire⟩ := acquireWorkspace_ok (p := ⟨"work", usualTools⟩)
    (h := relativeHost) (hnext ▸ site_relativeHost)
  have hw : w.path = "work/idiogen-00000000-0000-4000-8000-000000000000" :=
    (acquireWorkspace_eq_ok hcalls site_relativeHost.sound isReal_nil hacquire).1.1.trans hnext
  have hroom : Path.HasRoom w.path 30 :=
    hw ▸ ⟨⟨by decide +kernel, by decide +kernel⟩, by decide +kernel, by decide +kernel⟩
  obtain ⟨-, ws, hsite, hstart⟩ := stocks_of_acquireWorkspace twoPieces hcalls
    site_relativeHost.sound isReal_nil hacquire
  obtain ⟨⟨i, h₁⟩, htake⟩ := takeAll_ok hsite hroom (by rw [hw]; decide +kernel) Role.nodup_all
    hstart fun role _ => by simp
  have hfinish := Intake.finish_of_takeAll (List.Perm.refl Role.all) htake
  have hstem : (Naming.ofSupplies twoPieces).stem = "interpreter" := by decide +kernel
  have hneeds (ws : Place) (t : Tree) (hdir : t.directoryAt relativeHost.cwd w.path = .ok ws)
      (hhidden : ∀ n, t.stat ws ((twoPieces .grammar).input w.path .grammar).path ≠ .ok n) :
      ¬ Stage.Meets (careful ownOutputs) relativeHost.cwd w.path usualTools.stageTimeout
        (commandFor usualTools w.path (.ofSupplies w.path twoPieces) .grammar) t := by
    rintro ⟨d, hd, hstatus, -⟩
    have hunread : careful ownOutputs t relativeHost.cwd w.path
        (commandFor usualTools w.path (.ofSupplies w.path twoPieces) .grammar).program
        (commandFor usualTools w.path (.ofSupplies w.path twoPieces) .grammar).args =
        .ok { said := [], files := t, ending := some (0, .exited 3) } :=
      careful_of_unread hdir (.head _) hhidden
    rw [hunread] at hd
    cases hd
    simp [Deed.statusWithin] at hstatus
  obtain ⟨ws, hplace, hinputs, hfails⟩ := runAll_of_relative (p := ⟨"work", usualTools⟩)
    (h := relativeHost) (by decide) (by decide) hcalls site_relativeHost.sound isReal_nil hacquire
    (.refl _) htake hfinish hroom hneeds
  refine ⟨w, h₀, i, h₁, .ofSupplies w.path twoPieces, ws, ⟨fun base cwd ws path s hsite hopen habs =>
    honours_ownOutputs "work" hsite hopen habs hstem _ s, hcalls, hacquire, htake, hfinish, hplace⟩,
    ⟨_, input_mem_paths .grammar, fun hsame => ?_⟩, hfails⟩
  obtain ⟨serial, mode, hstat, -⟩ := (hinputs .grammar).1.of_same hsame
  exact (hinputs .grammar).2 _ hstat

end LangBundle
