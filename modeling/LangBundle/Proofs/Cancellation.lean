import Mathlib.Logic.Relation
import LangBundle.Proofs.BundleContents
import LangBundle.Proofs.Fencing

/-!
# Requests that are dropped

A compile request hands its operations on files over to be done beside it, and waits for them.  When
it is dropped while it waits, its workspace is removed, but what it has handed over is still done,
before or after the removal.

* `Request.Step`: **what may happen** to a request and its files, in any order.
* `buildUpload_runs`: all that a request does is a run of such steps.
* `Request.Keeps`: **the invariant**, `Request.Keeps.step` that each step keeps it.
* `left_of_runs`: **after the removal** nothing of the workspace comes back, unless the operation that
  makes the directory of the inputs is done then.
-/

namespace LangBundle

open Files Files.Tree
open Stage (leftBy commandFor)

/-! ## What is handed over -/

/-- An operation on files that a request hands over. -/
inductive FileJob where
  /-- Makes the directory of the inputs and those over it. -/
  | makeInputs
  /-- Makes the file of an input or of an archive. -/
  | create (path : String)
  /-- Writes into a file that is open. -/
  | write (sink : Sink) (offset : Nat) (data : Bytes)
  deriving DecidableEq

namespace FileJob

/-- What is done for a workspace; an operation that fails leaves what it has done. -/
def run (cwd : Place) (workspace : String) (t : Tree) : FileJob → Tree
  | makeInputs => (t.makeDirectories cwd (Path.join workspace inputsDirectory)).2
  | create path =>
    match t.openWrite cwd path with
    | .ok (_, t) => t
    | .error _ => t
  | write sink offset data =>
    match t.writeAt sink offset data with
    | .ok t => t
    | .error _ => t

/-- Files are made behind the path of the workspace, and the directory of the inputs only as long as
inputs are stored. -/
def IsOf (workspace : String) (storing : Bool) : FileJob → Prop
  | makeInputs => storing = true
  | create path => ∃ names, Path.Continues workspace names path
  | write .. => True

section
variable {base t : Tree} {cwd ws : Place} {path : String} (hsite : base.Site cwd path ws)
  {job : FileJob}
include hsite

theorem fenced (h : Fenced ws base t) (hjob : job.IsOf path false) :
    Fenced ws base (job.run cwd path t) := by
  cases job with
  | makeInputs => cases hjob
  | create below =>
    obtain ⟨names, hbelow⟩ := hjob
    dsimp only [run]
    split
    · next hopen => exact h.opened hsite hbelow hopen
    · exact h
  | write sink offset data =>
    dsimp only [run]
    split
    · next hwrite => exact h.writeAt hwrite
    · exact h

/-- **A workspace that is there** stays there. -/
theorem standing (h : Standing ws base t) {storing : Bool} (hjob : job.IsOf path storing) :
    Standing ws base (job.run cwd path t) := by
  cases job with
  | makeInputs =>
    exact h.makeDirectories hsite isPlain_inputsDirectory (by decide) rfl
  | create below =>
    obtain ⟨names, hbelow⟩ := hjob
    dsimp only [run]
    split
    · next hopen => exact h.opened hsite hbelow hopen
    · exact h
  | write sink offset data =>
    dsimp only [run]
    split
    · next hwrite => exact h.writeAt hwrite
    · exact h

/-- **A workspace that is gone** stays away, unless the directory of the inputs is made. -/
theorem gone (h : Gone ws base t) {storing : Bool} (hjob : job.IsOf path storing)
    (hne : job ≠ .makeInputs) : Gone ws base (job.run cwd path t) := by
  cases job with
  | makeInputs => exact absurd rfl hne
  | create below =>
    obtain ⟨names, hbelow⟩ := hjob
    obtain ⟨fault, hfails⟩ := h.openWrite_fails hsite hbelow
    simpa only [run, hfails] using h
  | write sink offset data =>
    dsimp only [run]
    split
    · next hwrite => exact h.writeAt hwrite
    · exact h

end

/-- **The directory of the inputs** brings a workspace back that is gone. -/
theorem back {base t : Tree} {cwd ws : Place} {root dir : String} (hdir : Path.IsPlain dir)
    (hsite : base.Site cwd (Path.join root dir) ws) (h : Gone ws base t)
    (hroom : Path.HasRoom (Path.join root dir) 30)
    (hnormal : Path.normal (Path.join root dir) = Path.join root dir) :
    Standing ws base (makeInputs.run cwd (Path.join root dir) t) :=
  h.makeDirectories hsite hdir isPlain_inputsDirectory (by decide) hnormal
    (hroom.takes isPlain_inputsDirectory (by decide) (by decide)).room

end FileJob

/-! ## A request and its files -/

/-- A request, what it has handed over, and the files. -/
structure Request where
  files : Tree
  /-- Whether its inputs are still being stored. -/
  storing : Bool := true
  /-- What has been handed over and is not done yet. -/
  pending : List FileJob := []
  /-- Whether it was dropped, and its workspace removed. -/
  dropped : Bool := false
  /-- What was done after that. -/
  late : List FileJob := []

namespace Request

variable (p : Pipeline) (f : ToolFunction) (cwd : Place) (path : String)

/-- What may happen to a request whose workspace has a path. -/
inductive Step : Request → Request → Prop
  /-- An operation is handed over. -/
  | submit (r : Request) (job : FileJob) (hlive : r.dropped = false)
      (hjob : job.IsOf path r.storing) : Step r { r with pending := r.pending ++ [job] }
  /-- One that was handed over is done, whether or not the request is still there. -/
  | perform (r : Request) (before : List FileJob) (job : FileJob) (after : List FileJob)
      (hpending : r.pending = before ++ job :: after) : Step r { r with
        files := job.run cwd path r.files
        pending := before ++ after
        late := if r.dropped then r.late ++ [job] else r.late }
  /-- A tool is called; the request does not wait for anything else then. -/
  | call (r : Request) (c : Stage.Command) (hlive : r.dropped = false) (hidle : r.pending = [])
      (hc : p.Calls path c) : Step r { r with
        files := leftBy f cwd path p.tools.stageTimeout c r.files
        storing := false }
  /-- The inputs are all there. -/
  | stored (r : Request) (hidle : r.pending = []) : Step r { r with storing := false }
  /-- The request is dropped. -/
  | drop (r : Request) (hlive : r.dropped = false) : Step r { r with
      files := (r.files.removeDirectoryTree cwd path).2
      dropped := true }

/-- What comes of a request in any number of steps. -/
abbrev Runs : Request → Request → Prop :=
  Relation.ReflTransGen (Step p f cwd path)

variable {p f cwd path}

/-- An operation that is handed over and waited for. -/
theorem Runs.job {start : Request} {t t' : Tree} {storing : Bool}
    (h : Runs p f cwd path start { files := t, storing }) (job : FileJob)
    (hjob : job.IsOf path storing) (hrun : job.run cwd path t = t') :
    Runs p f cwd path start { files := t', storing } := by
  subst hrun
  exact (h.tail (.submit _ job rfl hjob)).tail (.perform _ [] job [] rfl)

end Request

/-! ## What a request does -/

section
variable {p : Pipeline} {f : ToolFunction} {cwd : Place} {path : String} {start : Request}

variable (p f cwd path start) in
/-- The files of a host are those of a request that waits for nothing. -/
structure Host.Follows (storing : Bool) (h : Host) : Prop where
  calls : h.CallsOnly f
  runs : Request.Runs p f cwd path start { files := h.files, storing }
  cwd : h.cwd = cwd

variable (p f cwd path start) in
/-- The same for an intake. -/
structure Intake.Follows (s : Intake × Host) : Prop where
  workspace : s.1.workspace = path
  follows : s.2.Follows p f cwd path start true

theorem Host.Follows.job {storing : Bool} {h : Host} (hfollows : h.Follows p f cwd path start storing)
    (job : FileJob) (hjob : job.IsOf path storing) {t : Tree}
    (hrun : job.run cwd path h.files = t) :
    Host.Follows p f cwd path start storing { h with files := t } :=
  ⟨⟨hfollows.calls.launch, hfollows.calls.leftovers, hfollows.calls.members⟩,
    hfollows.runs.job job hjob hrun, hfollows.cwd⟩

theorem Host.Follows.note {storing : Bool} {h : Host}
    (hfollows : h.Follows p f cwd path start storing) (e : Event) :
    (h.note e).Follows p f cwd path start storing :=
  ⟨⟨hfollows.calls.launch, hfollows.calls.leftovers, hfollows.calls.members⟩,
    hfollows.runs, hfollows.cwd⟩

/-- **Beginning** an upload is making the directory of the inputs and then the file. -/
theorem ensures_begin_follows (hpath : Path.IsOpen path) (role : Role) (declared : Option String) :
    Ensures (Intake.Follows p f cwd path start) (Intake.begin role declared)
      (fun _ => Intake.Follows p f cwd path start) (Intake.Follows p f cwd path start) := by
  refine ⟨fun (i, h) ⟨hworkspace, hfollows⟩ => ?_⟩
  obtain rfl : i.workspace = path := hworkspace
  by_cases hclaimed : i.claimed.contains role = true
  · simp only [Intake.begin, if_pos hclaimed]
    exact ⟨rfl, hfollows⟩
  simp only [Intake.begin, if_neg hclaimed]
  have hnoted := hfollows.note (.storing (Path.join (Path.join i.workspace inputsDirectory)
    (Intake.fileName role (Intake.entryName role declared))))
  generalize h.note _ = h' at hnoted ⊢
  rcases hmake : h'.files.makeDirectories h'.cwd (Path.join i.workspace inputsDirectory) with ⟨r, t⟩
  have hmade : Host.Follows p f cwd i.workspace start true { h' with files := t } :=
    hnoted.job .makeInputs rfl (by rw [FileJob.run, ← hnoted.cwd, hmake])
  rcases r with fault | u
  · exact ⟨rfl, hmade⟩
  cases u
  dsimp only
  rcases hopen : t.openWrite h'.cwd (Path.join (Path.join i.workspace inputsDirectory)
    (Intake.fileName role (Intake.entryName role declared))) with fault | ⟨sink, t'⟩
  · exact ⟨rfl, hmade⟩
  · have hbelow := (Path.continues_join hpath isPlain_inputsDirectory).join
      (Path.isOpen_join isPlain_inputsDirectory.1 i.workspace) (isPlain_fileName role declared)
    rw [hnoted.cwd] at hopen
    exact ⟨rfl, hmade.job (.create _) ⟨_, hbelow⟩ (by simp only [FileJob.run, hopen])⟩

/-- **Writing** a piece. -/
theorem ensures_write_follows (u : Upload) (data : Bytes) :
    Ensures (Intake.Follows p f cwd path start) (Intake.write u data)
      (fun _ => Intake.Follows p f cwd path start) (Intake.Follows p f cwd path start) := by
  refine ⟨fun (i, h) ⟨hworkspace, hfollows⟩ => ?_⟩
  have hnoted := hfollows.note (.storing u.path)
  simp only [Intake.write]
  rcases hwrite : (h.note (.storing u.path)).files.writeAt u.sink u.written data with fault | t
  · exact ⟨hworkspace, hnoted⟩
  · exact ⟨hworkspace, hnoted.job (.write u.sink u.written data) trivial
      (by simp only [FileJob.run, hwrite])⟩

/-- **Storing** the parts of a body. -/
theorem store_follows (hpath : Path.IsOpen path) {w : Workspace} (hw : w.path = path) {h h' : Host}
    (hfollows : h.Follows p f cwd path start true) {boundary : String} {body : Bytes}
    {r : Except Http.Error Intake} (hstore : Http.Upload.store boundary body w h = (r, h')) :
    h'.Follows p f cwd path start true := by
  have hpart (part : Http.Part) : Ensures (Intake.Follows p f cwd path start)
      (Http.Upload.storePart part) (fun _ => Intake.Follows p f cwd path start)
      (Intake.Follows p f cwd path start) := by
    unfold Http.Upload.storePart
    split
    · exact .pure fun _ h => h
    · exact (ensures_begin_follows hpath _ _).bind fun _ => (ensures_write_follows _ _).bind
        fun _ => ⟨fun _ h => ⟨h.workspace, h.follows⟩⟩
  have hparts (parts : List Http.Part) : Ensures (Intake.Follows p f cwd path start)
      (Http.Upload.storeParts parts) (fun _ => Intake.Follows p f cwd path start)
      (Intake.Follows p f cwd path start) := by
    induction parts with
    | nil => exact .pure fun _ h => h
    | cons part rest ih => exact (hpart part).bind fun _ => ih
  have hbroken (fault : Http.Multipart.Fault) : Ensures (Intake.Follows p f cwd path start)
      (Http.Upload.beginBroken fault) (fun _ => Intake.Follows p f cwd path start)
      (Intake.Follows p f cwd path start) := by
    unfold Http.Upload.beginBroken
    split
    · split
      · exact .pure fun _ h => h
      · exact (ensures_begin_follows hpath _ _).bind fun _ => .pure fun _ h => h
    · exact .pure fun _ h => h
  rcases hread : Http.Multipart.read boundary body with ⟨parts, fault⟩
  have hstep : Ensures (Intake.Follows p f cwd path start)
      (do
        Http.Upload.storeParts parts
        fault.forM Http.Upload.beginBroken)
      (fun _ => Intake.Follows p f cwd path start) (Intake.Follows p f cwd path start) := by
    refine (hparts parts).bind fun _ => ?_
    cases fault with
    | none => exact .pure fun _ h => h
    | some fault => exact hbroken fault
  have hstart : Intake.Follows p f cwd path start ({ workspace := w.path }, h) := ⟨hw, hfollows⟩
  simp only [Http.Upload.store, hread] at hstore
  split at hstore
  · next hx =>
    cases hstore
    exact (hstep.of_error hstart hx).follows
  · next hx =>
    cases hstore
    exact (hstep.of_ok hstart hx).follows
  · next hx =>
    cases hstore
    exact (hstep.of_ok hstart hx).follows

/-- **A stage** is a call of its tool. -/
theorem ensures_run_follows {c : Stage.Command} (hc : p.Calls path c) :
    Ensures (Host.Follows p f cwd path start false) (c.run path p.tools.stageTimeout)
      (fun _ => Host.Follows p f cwd path start false) (Host.Follows p f cwd path start false) := by
  refine ⟨fun h hfollows => ?_⟩
  obtain ⟨h', hran, hend⟩ := Stage.run_of_calls hfollows.calls c path p.tools.stageTimeout
  have hruns := hfollows.runs.tail (.call _ c rfl rfl hc)
  have hfiles := hran.files
  rw [hfollows.cwd] at hfiles
  rw [← hfiles] at hruns
  have hfollows' : h'.Follows p f cwd path start false :=
    ⟨hran.calls, hruns, hran.cwd.trans hfollows.cwd⟩
  obtain ⟨-, o, hrun⟩ | ⟨-, failure, hrun⟩ := hend
  · rw [hrun]
    exact hfollows'
  · rw [hrun]
    exact hfollows'

/-- **An archive** is made and then written. -/
theorem ensures_writeArchive_follows (hpath : Path.IsOpen path) {name : String}
    (hname : name ∈ archiveNames) (artifacts : List Artifact) :
    Ensures (Host.Follows p f cwd path start false)
      (Bundle.writeArchive (Path.join path name) artifacts)
      (fun _ => Host.Follows p f cwd path start false) (Host.Follows p f cwd path start false) := by
  have hbelow := Path.continues_join hpath (isPlain_archive hname)
  refine Ensures.bind (Q := fun _ => Host.Follows p f cwd path start false)
    (.onFiles (fun _ h => h) fun h sink t hfollows hopen => ?_) fun sink => ?_
  · rw [hfollows.cwd] at hopen
    exact hfollows.job (.create _) ⟨_, hbelow⟩ (by simp only [FileJob.run, hopen])
  refine (ensures_entriesOf _).bind fun entries => ?_
  refine .onFiles (fun _ h => h) fun h _ t hfollows hwrite => ?_
  obtain ⟨t', hwrite, heq⟩ := Tree.bind_eq_ok hwrite
  cases heq
  exact hfollows.job (.write sink 0 (Archive.write entries)) trivial
    (by simp only [FileJob.run, hwrite])

/-- **A build.** -/
theorem ensures_build_follows (hpath : Path.IsOpen path) (inputs : Inputs) :
    Ensures (Host.Follows p f cwd path start false) (p.build path inputs)
      (fun _ => Host.Follows p f cwd path start false) (Host.Follows p f cwd path start false) := by
  have hstage (s : Stage) : Ensures (Host.Follows p f cwd path start false)
      ((commandFor p.tools path inputs s).run path p.tools.stageTimeout)
      (fun _ => Host.Follows p f cwd path start false) (Host.Follows p f cwd path start false) :=
    ensures_run_follows (.inl ⟨inputs, s, rfl⟩)
  refine Ensures.bind (Q := fun _ => Host.Follows p f cwd path start false)
    ((hstage .grammar).bind fun _ => (hstage .lexer).bind fun _ => (hstage .link).bind fun _ =>
      .pure fun _ h => h) fun artifacts => ?_
  exact (ensures_writeArchive_follows hpath (by simp [archiveNames]) _).bind fun _ =>
    (ensures_writeArchive_follows hpath (by simp [archiveNames]) _).bind fun _ => .pure fun _ h => h

end

/-- **All that a request does** with its files until it is dropped is a run of such steps. -/
theorem buildUpload_runs {s : Http.Server} {r : Http.Request} {boundary : String} {w : Workspace}
    {f : ToolFunction} {h h' : Host} {result : Except Http.Error String} (hcalls : h.CallsOnly f)
    (hpath : Path.IsOpen w.path) (hbuild : s.buildUpload r boundary w h = (result, h')) :
    ∃ storing, Request.Runs s.pipeline f h.cwd w.path { files := h.files }
      { files := h'.files, storing } := by
  have hstart : h.Follows s.pipeline f h.cwd w.path { files := h.files } true := ⟨hcalls, .refl, rfl⟩
  unfold Http.Server.buildUpload at hbuild
  split at hbuild
  · cases hbuild
    exact ⟨true, .refl⟩
  split at hbuild
  · cases hbuild
    exact ⟨true, .refl⟩
  split at hbuild
  · next hstore =>
    cases hbuild
    exact ⟨true, (store_follows hpath rfl hstart hstore).runs⟩
  · next hstore =>
    have hstored := store_follows hpath rfl hstart hstore
    split at hbuild
    · cases hbuild
      exact ⟨true, hstored.runs⟩
    · next inputs _ =>
      have hready : Host.Follows s.pipeline f h.cwd w.path { files := h.files } false _ :=
        ⟨hstored.calls, hstored.runs.tail (.stored _ rfl), hstored.cwd⟩
      have hends : Ensures (Host.Follows s.pipeline f h.cwd w.path { files := h.files } false)
          (s.pipeline.build w.path inputs)
          (fun _ => Host.Follows s.pipeline f h.cwd w.path { files := h.files } false)
          (Host.Follows s.pipeline f h.cwd w.path { files := h.files } false) :=
        ensures_build_follows hpath inputs
      split at hbuild
      · next hok =>
        cases hbuild
        exact ⟨false, (hends.of_ok hready hok).runs⟩
      · next hfail =>
        cases hbuild
        exact ⟨false, (hends.of_error hready hfail).runs⟩

/-! ## The invariant -/

/-- The tools leave the workspace such that it can be removed, and outside it they change no
directories and no links. -/
def ToolFunction.KeepsFence (f : ToolFunction) (p : Pipeline) (cwd : Place) (path : String)
    (ws : Place) (base : Tree) : Prop :=
  ∀ t c, p.Calls path c → Fenced ws base t →
    Fenced ws base (leftBy f cwd path p.tools.stageTimeout c t)

/-- What each step keeps. -/
structure Request.Keeps (base : Tree) (ws : Place) (path : String) (r : Request) : Prop where
  jobs : ∀ job ∈ r.pending, job.IsOf path true
  /-- The workspace is there while inputs are stored. -/
  standing : r.dropped = false → r.storing = true → Standing ws base r.files
  /-- After that nobody makes the directory of the inputs. -/
  fenced : r.dropped = false →
    Fenced ws base r.files ∧ (r.storing = false → .makeInputs ∉ r.pending) ∧ r.late = []
  /-- After the removal it is gone until the directory of the inputs is made. -/
  gone : r.dropped = true → .makeInputs ∉ r.late → Gone ws base r.files
  back : Path.HasRoom path 30 → Path.normal path = path → r.dropped = true →
    .makeInputs ∈ r.late → Standing ws base r.files

theorem FileJob.isOf_of_ne {path : String} {storing : Bool} {job : FileJob}
    (h : job.IsOf path storing) (hne : job ≠ .makeInputs) (other : Bool) : job.IsOf path other := by
  cases job with
  | makeInputs => exact absurd rfl hne
  | create _ => exact h
  | write _ _ _ => trivial

section
variable {p : Pipeline} {f : ToolFunction} {base : Tree} {cwd ws : Place} {root dir : String}
  (hdir : Path.IsPlain dir) (hsite : base.Site cwd (Path.join root dir) ws)
  (hkeeps : f.KeepsFence p cwd (Path.join root dir) ws base)
include hdir hsite

/-- **An operation** that is done keeps the invariant. -/
theorem Request.Keeps.perform {r : Request} (h : r.Keeps base ws (Path.join root dir))
    {before after : List FileJob} {job : FileJob} (hpending : r.pending = before ++ job :: after) :
    Request.Keeps base ws (Path.join root dir) { r with
      files := job.run cwd (Path.join root dir) r.files
      pending := before ++ after
      late := if r.dropped then r.late ++ [job] else r.late } := by
  have hmem : job ∈ r.pending := by simp [hpending]
  have hjob := h.jobs job hmem
  have hsub {other : FileJob} (hother : other ∈ before ++ after) : other ∈ r.pending := by
    rw [hpending]
    simp only [List.mem_append, List.mem_cons] at hother ⊢
    tauto
  refine ⟨fun other hother => h.jobs other (hsub hother), fun hlive hstoring => ?_, fun hlive => ?_,
    fun hdropped hlate => ?_, fun hroom hnormal hdropped hlate => ?_⟩
  · exact FileJob.standing hsite (h.standing hlive hstoring) hjob
  · obtain ⟨hfenced, hnot, hlate⟩ := h.fenced hlive
    refine ⟨?_, fun hstoring hmake => hnot hstoring (hsub hmake), ?_⟩
    · by_cases hstoring : r.storing = true
      · exact (FileJob.standing hsite (h.standing hlive hstoring) hjob).toFenced
      · have hne : job ≠ .makeInputs := fun heq =>
          hnot (Bool.eq_false_iff.2 hstoring) (heq ▸ hmem)
        exact FileJob.fenced hsite hfenced (FileJob.isOf_of_ne hjob hne false)
    · dsimp only at hlive ⊢
      rw [hlive, if_neg Bool.false_ne_true, hlate]
  · dsimp only at hdropped hlate ⊢
    rw [hdropped, if_pos rfl, List.mem_append, List.mem_singleton, not_or] at hlate
    exact FileJob.gone hsite (h.gone hdropped hlate.1) hjob fun heq => hlate.2 heq.symm
  · dsimp only at hdropped hlate ⊢
    rw [hdropped, if_pos rfl, List.mem_append, List.mem_singleton] at hlate
    by_cases hearlier : .makeInputs ∈ r.late
    · exact FileJob.standing hsite (h.back hroom hnormal hdropped hearlier) hjob
    · obtain rfl := hlate.resolve_left hearlier
      exact FileJob.back hdir hsite (h.gone hdropped hearlier) hroom hnormal

include hkeeps

/-- **Each step** keeps the invariant. -/
theorem Request.Keeps.step {r r' : Request} (h : r.Keeps base ws (Path.join root dir))
    (hstep : Step p f cwd (Path.join root dir) r r') : r'.Keeps base ws (Path.join root dir) := by
  cases hstep with
  | submit job hlive hjob =>
    refine ⟨fun other hother => ?_, h.standing, fun _ => ?_, h.gone, h.back⟩
    · obtain hother | hother := List.mem_append.1 hother
      · exact h.jobs other hother
      · obtain rfl := List.mem_singleton.1 hother
        cases other with
        | makeInputs => rfl
        | create _ => exact hjob
        | write _ _ _ => trivial
    · obtain ⟨hfenced, hnot, hlate⟩ := h.fenced hlive
      refine ⟨hfenced, fun hstoring hmake => ?_, hlate⟩
      obtain hmake | hmake := List.mem_append.1 hmake
      · exact hnot hstoring hmake
      · obtain rfl := List.mem_singleton.1 hmake
        dsimp only at hstoring
        rw [hstoring] at hjob
        cases hjob
  | perform before job after hpending => exact h.perform hdir hsite hpending
  | call c hlive hidle hc =>
    refine ⟨h.jobs, fun _ hstoring => ?_, fun _ => ?_, fun hdropped _ => ?_,
      fun _ _ hdropped _ => ?_⟩
    · cases hstoring
    · obtain ⟨hfenced, -, hlate⟩ := h.fenced hlive
      exact ⟨hkeeps _ c hc hfenced, fun _ => by simp [hidle], hlate⟩
    · cases hlive.symm.trans hdropped
    · cases hlive.symm.trans hdropped
  | stored hidle =>
    refine ⟨h.jobs, fun _ hstoring => ?_, fun hlive => ?_, h.gone, h.back⟩
    · cases hstoring
    · obtain ⟨hfenced, -, hlate⟩ := h.fenced hlive
      exact ⟨hfenced, fun _ => by simp [hidle], hlate⟩
  | drop hlive =>
    obtain ⟨hfenced, -, hlate⟩ := h.fenced hlive
    refine ⟨h.jobs, fun hdropped => ?_, fun hdropped => ?_, fun _ _ => hfenced.removed hsite,
      fun _ _ _ hmake => ?_⟩
    · cases hdropped
    · cases hdropped
    · dsimp only at hmake
      rw [hlate] at hmake
      cases hmake

/-- **A run** keeps the invariant. -/
theorem Request.Keeps.runs {r r' : Request} (h : r.Keeps base ws (Path.join root dir))
    (hruns : Runs p f cwd (Path.join root dir) r r') : r'.Keeps base ws (Path.join root dir) := by
  induction hruns with
  | refl => exact h
  | tail _ hstep ih => exact ih.step hdir hsite hkeeps hstep

end

/-! ## What is left -/

/-- Whatever comes of a request keeps the invariant. -/
theorem keeps_of_runs {p : Pipeline} {f : ToolFunction} {h h₀ : Host} {w : Workspace} {r : Request}
    (hcalls : h.CallsOnly f) (hsound : h.files.IsSound) (hcwd : IsReal h.cwd)
    (hacquire : p.acquireWorkspace h = .ok w h₀)
    (hkeeps : ∀ ws, h.files.Site h.cwd w.path ws → f.KeepsFence p h.cwd w.path ws h.files)
    (hruns : Request.Runs p f h.cwd w.path { files := h₀.files } r) :
    ∃ ws, h.files.Site h.cwd w.path ws ∧ r.Keeps h.files ws w.path := by
  obtain ⟨⟨hw, -⟩, hopen, ws, hsite, hworks, hprepared⟩ :=
    acquireWorkspace_eq_ok hcalls hsound hcwd hacquire
  obtain ⟨-, -, -, ws', hsite', hfiles⟩ := site_of_acquireWorkspace hsound hcwd hacquire
  obtain rfl := Except.ok.inj (hsite.leads.symm.trans hsite'.leads)
  have hkept := hkeeps ws hsite
  have hstanding : Standing ws h.files h₀.files := by
    refine ⟨hprepared.toConfined.fenced, Workspace.mode, ?_, by decide, by decide⟩
    rw [hfiles, get?_put_self _ _ hsite.ne_nil]
  have hstart : Request.Keeps h.files ws w.path { files := h₀.files } :=
    ⟨fun _ hjob => (nomatch hjob), fun _ _ => hstanding,
      fun _ => ⟨hstanding.toFenced, fun _ hjob => (nomatch hjob), rfl⟩,
      fun hdropped => (nomatch hdropped), fun _ _ hdropped => (nomatch hdropped)⟩
  have hpath : w.path = Path.join p.root (Workspace.namePrefix ++ (h.ids h.drawn).text) := hw
  refine ⟨ws, hsite, ?_⟩
  rw [hpath] at hsite hstart hkept hruns ⊢
  exact hstart.runs (isPlain_workspace (h.ids h.drawn)) hsite hkept hruns

/-- **Once a request is dropped** nothing of its workspace is there, whenever it was dropped and in
whatever order the operations on files are done that it had handed over, unless the one that makes the
directory of the inputs is done after the removal: then the workspace is there again. -/
theorem left_of_runs {p : Pipeline} {f : ToolFunction} {h h₀ : Host} {w : Workspace} {r : Request}
    (hcalls : h.CallsOnly f) (hsound : h.files.IsSound) (hcwd : IsReal h.cwd)
    (hacquire : p.acquireWorkspace h = .ok w h₀)
    (hkeeps : ∀ ws, h.files.Site h.cwd w.path ws → f.KeepsFence p h.cwd w.path ws h.files)
    (hruns : Request.Runs p f h.cwd w.path { files := h₀.files } r) (hdropped : r.dropped = true) :
    ∃ ws, h.files.Site h.cwd w.path ws ∧
      (.makeInputs ∉ r.late → ∀ q, IsReal q → ws <+: q → r.files.get? q = none) ∧
      (Path.HasRoom w.path 30 → Path.normal w.path = w.path → .makeInputs ∈ r.late →
        ∃ mode, r.files.get? ws = some (.directory mode)) := by
  obtain ⟨ws, hsite, hend⟩ := keeps_of_runs hcalls hsound hcwd hacquire hkeeps hruns
  refine ⟨ws, hsite, fun hlate q hq hbelow => ?_, fun hroom hnormal hlate => ?_⟩
  · exact (hend.gone hdropped hlate).nothing hq hbelow
  · obtain ⟨mode, hmode, -⟩ := (hend.back hroom hnormal hdropped hlate).directory
    exact ⟨mode, hmode⟩

/-- A tool that writes files keeps the fence. -/
theorem keepsFence_writer {p : Pipeline} {base : Tree} {cwd ws : Place} {path : String}
    {files : String → List (String × Bytes)} (hsite : base.Site cwd path ws)
    (hpath : Path.IsOpen path)
    (hplain : ∀ program, ∀ file ∈ files program, Path.IsPlain file.1 ∧ file.1 ≠ "..") :
    (writer files).KeepsFence p cwd path ws base := by
  have hwritten (written : List (String × Bytes))
      (hplain : ∀ file ∈ written, Path.IsPlain file.1 ∧ file.1 ≠ "..") (t : Tree)
      (h : Fenced ws base t) : Fenced ws base (written.foldl
        (fun t file => t.writeIfPossible cwd (Path.join path file.1) file.2) t) := by
    induction written generalizing t with
    | nil => exact h
    | cons file rest ih =>
      refine ih (fun other hother => hplain other (List.mem_cons_of_mem file hother)) _ ?_
      dsimp only [writeIfPossible]
      split
      · next hwrite =>
        obtain ⟨⟨sink, opened⟩, hopen, hat⟩ := bind_eq_ok hwrite
        have hbelow := Path.continues_join hpath (hplain file List.mem_cons_self)
        exact (h.opened hsite hbelow hopen).writeAt hat
      · exact h
  intro t c _ h
  unfold leftBy
  dsimp only [writer, Deed.filesAfter]
  split
  · exact h
  · exact hwritten _ (hplain c.program) t h

theorem keepsFence_staleTool {w : Workspace} (hw : w.path = firstPath) (ws : Place)
    (hsite : staleHost.files.Site staleHost.cwd w.path ws) :
    staleTool.KeepsFence ⟨"/", usualTools⟩ staleHost.cwd w.path ws staleHost.files :=
  keepsFence_writer hsite (hw ▸ hasRoom_firstPath.toIsOpen) fun _ file hfile =>
    (suitsBuild_staleFiles.takes file hfile).1.plain

/-- The file of an input that is made after the removal does not bring the workspace back. -/
theorem left_of_lateFile : ∃ w h₀ r below,
    (staleHost.CallsOnly staleTool ∧ staleHost.files.IsSound ∧ IsReal staleHost.cwd ∧
      Pipeline.acquireWorkspace ⟨"/", usualTools⟩ staleHost = .ok w h₀ ∧
      (∀ ws, staleHost.files.Site staleHost.cwd w.path ws →
        staleTool.KeepsFence ⟨"/", usualTools⟩ staleHost.cwd w.path ws staleHost.files) ∧
      Request.Runs ⟨"/", usualTools⟩ staleTool staleHost.cwd w.path { files := h₀.files } r ∧
      r.dropped = true) ∧
    r.pending = [] ∧ r.late = [.create below] ∧
    ∃ ws, staleHost.files.Site staleHost.cwd w.path ws ∧
      ∀ q, IsReal q → ws <+: q → r.files.get? q = none := by
  obtain ⟨w, h₀, hacquire, hw⟩ := acquire_staleHost
  have hcalls : staleHost.CallsOnly staleTool := Host.callsOnly_withTools _ _
  have hkeeps := keepsFence_staleTool hw
  have hopen : Path.IsOpen w.path := hw ▸ hasRoom_firstPath.toIsOpen
  have hbelow : Path.Continues w.path (storedNames twoPieces .grammar)
      ((twoPieces .grammar).input w.path .grammar).path := continues_stored hopen .grammar
  -- the directory is made, the request is dropped while it waits for the file, and that is made then
  have hstart : Request.Runs ⟨"/", usualTools⟩ staleTool staleHost.cwd w.path { files := h₀.files }
      { files := FileJob.makeInputs.run staleHost.cwd w.path h₀.files } :=
    Request.Runs.job .refl .makeInputs rfl rfl
  have hruns := ((hstart.tail (.submit _ (.create _) rfl ⟨_, hbelow⟩)).tail (.drop _ rfl)).tail
    (.perform _ [] _ [] rfl)
  obtain ⟨ws, hsite, hgone, -⟩ :=
    left_of_runs hcalls isSound_precious isReal_nil hacquire hkeeps hruns rfl
  exact ⟨w, h₀, _, _, ⟨hcalls, isSound_precious, isReal_nil, hacquire, hkeeps, hruns, rfl⟩, rfl, rfl,
    ws, hsite, hgone (by simp)⟩

/-- A request that is dropped while it waits for the directory of the inputs can leave its workspace
behind, though nothing is pending any more. -/
theorem not_left_of_lateInputs : ∃ w h₀ r,
    Pipeline.acquireWorkspace ⟨"/", usualTools⟩ staleHost = .ok w h₀ ∧
    Request.Runs ⟨"/", usualTools⟩ staleTool staleHost.cwd w.path { files := h₀.files } r ∧
    r.dropped = true ∧ r.pending = [] ∧
    ∃ ws mode, staleHost.files.Site staleHost.cwd w.path ws ∧
      r.files.get? ws = some (.directory mode) := by
  obtain ⟨w, h₀, hacquire, hw⟩ := acquire_staleHost
  have hcalls : staleHost.CallsOnly staleTool := Host.callsOnly_withTools _ _
  have hstart : Request.Runs ⟨"/", usualTools⟩ staleTool staleHost.cwd w.path { files := h₀.files }
      { files := h₀.files } := .refl
  have hruns := ((hstart.tail (.submit _ .makeInputs rfl rfl)).tail (.drop _ rfl)).tail
    (.perform _ [] _ [] rfl)
  obtain ⟨ws, hsite, hend⟩ := keeps_of_runs hcalls isSound_precious isReal_nil hacquire
    (keepsFence_staleTool hw) hruns
  obtain ⟨mode, hmode, -⟩ := (hend.back (hw ▸ hasRoom_firstPath) (by rw [hw]; decide +kernel) rfl
    (by simp)).directory
  exact ⟨w, h₀, _, hacquire, hruns, rfl, rfl, ws, mode, hsite, hmode⟩

end LangBundle
