import LangBundle.Proofs.WorkspaceUse

/-!
# The life of a workspace

Whatever the program is asked for, it makes at most one workspace, makes it before it stores
anything, and has removed it at the end.

* `ensures_acquireWorkspace`: **making** a workspace, or nothing.
* `drop_eq`: **removing** it.
* `Errand`: what the program is asked for.
* `Errand.leaves_nothing`: **whatever is asked for** leaves nothing behind.
-/

namespace LangBundle

open Files Files.Tree

/-! ## The making and the removal -/

/-- The name of a workspace leads straight down. -/
theorem leadsDown_workspace (id : Uuid) : Path.IsPlain (Workspace.namePrefix ++ id.text) ∧
    Workspace.namePrefix ++ id.text ≠ ".." := by
  have hdigit (d : Fin 16) : Uuid.hexDigit d ≠ '/' := by
    revert d
    decide
  have hhead : (Workspace.namePrefix ++ id.text).toList =
      'i' :: ("diogen-".toList ++ id.text.toList) := by
    rw [String.toList_append]
    rfl
  have hdigits : '/' ∉ id.digits.toList.map Uuid.hexDigit := by
    intro h
    obtain ⟨d, -, hd⟩ := List.mem_map.1 h
    exact hdigit d hd
  have htake (n : Nat) : '/' ∉ (id.digits.toList.map Uuid.hexDigit).take n :=
    fun h => hdigits (List.mem_of_mem_take h)
  have hdrop (n : Nat) : '/' ∉ (id.digits.toList.map Uuid.hexDigit).drop n :=
    fun h => hdigits (List.mem_of_mem_drop h)
  have hmiddle (n m : Nat) : '/' ∉ ((id.digits.toList.map Uuid.hexDigit).drop n).take m :=
    fun h => hdrop n (List.mem_of_mem_take h)
  refine Path.isPlain_of_head hhead (by decide) ?_
  rw [String.toList_append, List.mem_append, Uuid.text, String.toList_ofList]
  rintro (h | h)
  · exact absurd h (by decide)
  · simp only [List.mem_append, List.mem_cons, htake, hmiddle, hdrop] at h
    revert h
    decide

theorem isPlain_workspace (id : Uuid) : Path.IsPlain (Workspace.namePrefix ++ id.text) :=
  (leadsDown_workspace id).1

theorem isOpen_nextWorkspace (p : Pipeline) (h : Host) : Path.IsOpen (p.nextWorkspace h) :=
  Path.isOpen_join (isPlain_workspace _) _

/-- **Making** a workspace: nothing has happened if it fails. -/
theorem ensures_acquireWorkspace {p : Pipeline} {f : ToolFunction} {h : Host}
    (hcalls : h.CallsOnly f) (hsound : h.files.IsSound) (hcwd : IsReal h.cwd) :
    Ensures (· = h) p.acquireWorkspace
      (fun w h' => (w.path = p.nextWorkspace h ∧ w.released = false) ∧
        ∃ ws, h.files.Site h.cwd w.path ws ∧
          h'.Works f h.cwd (h.journal ++ [Event.acquired w.path]) ∧ Prepared ws h.files h'.files)
      (fun h' => h'.files = h.files ∧ h'.journal = h.journal) := by
  unfold Pipeline.acquireWorkspace Workspace.acquire
  refine Ensures.bind (Q := fun id h' => id = h.ids h.drawn ∧ h' = { h with drawn := h.drawn + 1 })
    ⟨?_⟩ fun id => ?_
  · rintro _ rfl
    exact ⟨rfl, rfl⟩
  refine Ensures.bind (Q := fun _ h' => id = h.ids h.drawn ∧ ∃ ws,
    h.files.Site h.cwd (Workspace.pathOf p.root id) ws ∧
      h'.Works f h.cwd h.journal ∧ h'.journal = h.journal ∧ Prepared ws h.files h'.files)
    (.onFiles ?_ ?_) fun _ => ?_
  · rintro _ ⟨-, rfl⟩
    exact ⟨rfl, rfl⟩
  · rintro _ _ t ⟨hid, rfl⟩ hmake
    obtain ⟨t', hmake, heq⟩ := Tree.bind_eq_ok hmake
    cases heq
    obtain ⟨ws, hws, hnone, habove, rfl⟩ := makeDirectory_eq_ok hmake
    have hopen : Path.IsOpen (Workspace.pathOf p.root id) :=
      Path.isOpen_join (isPlain_workspace id) _
    rw [withoutSlashes_of_isOpen hopen] at hws
    have hsite : h.files.Site h.cwd (Workspace.pathOf p.root id) ws :=
      ⟨hsound, hcwd, hws, hnone, habove⟩
    refine ⟨hid, ws, hsite, ⟨⟨hcalls.launch, hcalls.leftovers, hcalls.members⟩, rfl, [], ?_, ?_⟩,
      rfl, hsite.prepared (by decide) ⟨by decide, by decide⟩⟩
    · simp
    · simp
  · refine Ensures.bind (Q := fun _ h' => id = h.ids h.drawn ∧ ∃ ws,
      h.files.Site h.cwd (Workspace.pathOf p.root id) ws ∧
        h'.Works f h.cwd (h.journal ++ [Event.acquired (Workspace.pathOf p.root id)]) ∧
          Prepared ws h.files h'.files) ⟨?_⟩ fun _ => .pure ?_
    · rintro h' ⟨hid, ws, hsite, hworks, hjournal, hprepared⟩
      refine ⟨hid, ws, hsite, ⟨⟨hworks.calls.launch, hworks.calls.leftovers, hworks.calls.members⟩,
        hworks.cwd, [], ?_, ?_⟩, hprepared⟩
      · simp [Host.note, hjournal]
      · simp
    · rintro h' ⟨rfl, hrest⟩
      dsimp only
      exact ⟨⟨rfl, rfl⟩, hrest⟩

/-- **Removing** a workspace. -/
theorem drop_eq {w : Workspace} {h : Host} {ws : Place} (hw : w.released = false) (hroot : ws ≠ [])
    (hremovable : h.files.Removable h.cwd w.path ws) :
    (w.drop h).journal = h.journal ++ [Event.released w.path] ∧
      ∀ q, IsReal q → (w.drop h).files.get? q = if ws <+: q then none else h.files.get? q := by
  obtain ⟨r, t, hremove, hr, hget⟩ := hremovable.get?_removed hroot
  obtain rfl | rfl := hr
  · simp only [Workspace.drop, Workspace.release, hw, hremove]
    exact ⟨rfl, hget⟩
  · simp only [Workspace.drop, Workspace.release, hw, hremove]
    exact ⟨rfl, hget⟩

/-! ## What is asked for -/

/-- Reads pieces of some sizes from a download. -/
def Http.Download.readPieces (h : Host) (d : Http.Download) : (sizes : List Nat) → Http.Download
  | [] => d
  | size :: rest =>
    match d.next size h with
    | .ok (_, d) => readPieces h d rest
    | .error _ => d

/-- Reads pieces of some sizes from a body. -/
def Http.Body.readPieces (h : Host) (b : Http.Body) (sizes : List Nat) : Http.Body :=
  match b with
  | .bytes data => .bytes data
  | .download d => .download (d.readPieces h sizes)

/-- What the program is asked for. -/
inductive Errand where
  /-- A request, of whose response pieces of some sizes are read. -/
  | request (s : Http.Server) (r : Http.Request) (sizes : List Nat)
  | build (p : Pipeline) (source : Role → String) (output : String)
  | doctor (p : Pipeline)

namespace Errand

/-- The pipeline that does it. -/
def pipeline : Errand → Pipeline
  | .request s _ _ => s.pipeline
  | .build p _ _ | .doctor p => p

/-- The host when it is done; a response has been dropped then. -/
def run (h : Host) : Errand → Host
  | .request s r sizes =>
    let (response, h) := s.handle r h
    (response.body.readPieces h sizes).drop h
  | .build p source output => (CommandLine.build p source output h).2
  | .doctor p => (CommandLine.doctor p h).2

/-- A place that is a name of the file to which a build copies its bundle.  The path of that file is
walked on a tree that differs from the host's below the workspace only. -/
def Writes (h : Host) (ws q : Place) : Errand → Prop
  | .build _ _ output => ∃ (t : Tree) (p : Place),
      (∀ r, IsReal r → ¬ ws <+: r → t.get? r = h.files.get? r) ∧
      t.resolve h.cwd output = .ok p ∧ t.Aliases p q
  | .request .. | .doctor _ => False

/-- Nothing is left of what was done: no workspace was made, or one that is gone. -/
def LeavesNothing (e : Errand) (h h' : Host) : Prop :=
  h'.files = h.files ∧ h'.journal = h.journal ∨
  ∃ ws work, h.files.resolve h.cwd (e.pipeline.nextWorkspace h) false = .ok ws ∧
    h'.journal = h.journal ++ Event.acquired (e.pipeline.nextWorkspace h) :: (work ++
      [Event.released (e.pipeline.nextWorkspace h)]) ∧
    (∀ event ∈ work, event.IsWork) ∧
    ∀ q, IsReal q → if ws <+: q then h.files.get? q = none ∧ h'.files.get? q = none
      else h'.files.get? q = h.files.get? q ∨ e.Writes h ws q

/-- The same for the result of a request once its response is dropped. -/
def LeavesNothingOnceDropped (e : Errand) (h : Host) : Except Http.Error Http.Response × Host → Prop
  | (.error _, h') => e.LeavesNothing h h'
  | (.ok response, h') => e.LeavesNothing h (response.body.drop h')

end Errand

section
variable {e : Errand} {f : ToolFunction} {h h' : Host} {ws : Place} {w : Workspace}

variable (e h) in
/-- Nothing was done. -/
theorem leavesNothing_self : e.LeavesNothing h h :=
  .inl ⟨rfl, rfl⟩

/-- **The removal** of the workspace ends what was done. -/
theorem leavesNothing_drop (hsite : h.files.Site h.cwd (e.pipeline.nextWorkspace h) ws)
    (hw : w.path = e.pipeline.nextWorkspace h ∧ w.released = false)
    (hworks : h'.Works f h.cwd (h.journal ++ [Event.acquired (e.pipeline.nextWorkspace h)]))
    (hremovable : h'.files.Removable h.cwd (e.pipeline.nextWorkspace h) ws)
    (hoff : ∀ q, IsReal q → ¬ ws <+: q → h'.files.get? q = h.files.get? q ∨ e.Writes h ws q) :
    e.LeavesNothing h (w.drop h') := by
  obtain ⟨hpath, hreleased⟩ := hw
  rw [← hpath, ← hworks.cwd] at hremovable
  obtain ⟨hjournal, hget⟩ := drop_eq hreleased hsite.ne_nil hremovable
  obtain ⟨work, hwork, hall⟩ := hworks.journal
  refine .inr ⟨ws, work, hsite.leads, ?_, hall, fun q hq => ?_⟩
  · rw [hjournal, hwork, hpath]
    simp
  · rw [hget q hq]
    split
    · next hbelow => exact ⟨hsite.nothing hq hbelow, rfl⟩
    · next hnot => exact hoff q hq hnot

theorem leavesNothing_drop_of_confined (hsite : h.files.Site h.cwd (e.pipeline.nextWorkspace h) ws)
    (hw : w.path = e.pipeline.nextWorkspace h ∧ w.released = false)
    (hworks : h'.Works f h.cwd (h.journal ++ [Event.acquired (e.pipeline.nextWorkspace h)]))
    (hconfined : Confined ws h.files h'.files) : e.LeavesNothing h (w.drop h') :=
  leavesNothing_drop hsite hw hworks (hconfined.removable hsite) fun q hq hnot =>
    .inl (hconfined.off q hq hnot)

omit e f ws w in
theorem resolve_of_read {t : Tree} {cwd : Place} {path : String} {data : Bytes}
    (hread : t.read cwd path = .ok data) : ∃ p, t.resolve cwd path = .ok p := by
  obtain ⟨source, hopen, -⟩ := Tree.bind_eq_ok hread
  obtain ⟨n, hstat, -⟩ := Tree.bind_eq_ok hopen
  obtain ⟨p, hp, -⟩ := Tree.bind_eq_ok hstat
  exact ⟨p, hp⟩

omit e f ws w in
theorem Http.Download.workspace_next {d d' : Http.Download} {size : Nat} {piece : Option Bytes}
    (hnext : d.next size h = .ok (piece, d')) : d'.workspace = d.workspace := by
  obtain ⟨data, -, hnext⟩ := Tree.bind_eq_ok hnext
  dsimp only at hnext
  split at hnext
  · cases hnext
    rfl
  · cases hnext
    rfl

/-- Reading does not change whose workspace it is. -/
theorem Http.Body.drop_readPieces (b : Http.Body) (h : Host) (sizes : List Nat) :
    (b.readPieces h sizes).drop h = b.drop h := by
  cases b with
  | bytes data => rfl
  | download d =>
    have hkept : (d.readPieces h sizes).workspace = d.workspace := by
      induction sizes generalizing d with
      | nil => rfl
      | cons size rest ih =>
        rw [Http.Download.readPieces]
        split
        · next hnext => rw [ih, Http.Download.workspace_next hnext]
        · rfl
    simp only [Http.Body.readPieces, Http.Body.drop, Http.Download.drop, hkept]

end

/-! ## Each of the three -/

section
variable {f : ToolFunction} {h : Host} (hcalls : h.CallsOnly f) (hsound : h.files.IsSound)
  (hcwd : IsReal h.cwd)
include hcalls hsound hcwd

/-- **A workspace that is made**, and what is known of it until it is removed. -/
theorem acquireWorkspace_eq_ok {p : Pipeline} {w : Workspace} {h' : Host}
    (hacquire : p.acquireWorkspace h = .ok w h') :
    (w.path = p.nextWorkspace h ∧ w.released = false) ∧ Path.IsOpen w.path ∧
      ∃ ws, h.files.Site h.cwd w.path ws ∧
        h'.Works f h.cwd (h.journal ++ [Event.acquired w.path]) ∧ Prepared ws h.files h'.files := by
  obtain ⟨hw, hrest⟩ := (ensures_acquireWorkspace (p := p) hcalls hsound hcwd).of_ok rfl hacquire
  exact ⟨hw, hw.1 ▸ isOpen_nextWorkspace p h, hrest⟩

/-- **A look at the tools.** -/
theorem doctor_leavesNothing {p : Pipeline} (hkeeps : f.KeepsToNext p h) :
    (Errand.doctor p).LeavesNothing h (CommandLine.doctor p h).2 := by
  unfold CommandLine.doctor
  dsimp only
  split
  · exact .inl ⟨rfl, rfl⟩
  split
  · next hacquire =>
    exact .inl ((ensures_acquireWorkspace hcalls hsound hcwd).of_error rfl hacquire)
  · next w h₁ hacquire =>
    obtain ⟨hw, hopen, ws, hsite, hworks, hprepared⟩ :=
      acquireWorkspace_eq_ok hcalls hsound hcwd hacquire
    have hkeeps' := hkeeps ws (hw.1 ▸ hsite)
    rw [← hw.1] at hkeeps'
    rcases hprobe : CommandLine.probe p w h₁ with ⟨r, h₂⟩
    obtain ⟨hworks', hconfined⟩ := probe_confined hsite hopen hkeeps' rfl hworks hprepared hprobe
    have hend : (Errand.doctor p).LeavesNothing h (w.drop h₂) := by
      rw [hw.1] at hsite hworks'
      exact leavesNothing_drop_of_confined hsite hw hworks' hconfined
    cases r with
    | error _ => exact hend
    | ok _ => exact hend

/-- **A build.** -/
theorem build_leavesNothing {p : Pipeline} (source : Role → String) (output : String)
    (hkeeps : f.KeepsToNext p h) (harchives : f.LeavesNextArchives p h) :
    (Errand.build p source output).LeavesNothing h (CommandLine.build p source output h).2 := by
  unfold CommandLine.build
  split
  · next hacquire =>
    exact .inl ((ensures_acquireWorkspace hcalls hsound hcwd).of_error rfl hacquire)
  · next w h₁ hacquire =>
    obtain ⟨hw, hopen, ws, hsite, hworks, hprepared⟩ :=
      acquireWorkspace_eq_ok hcalls hsound hcwd hacquire
    have hkeeps' := hkeeps ws (hw.1 ▸ hsite)
    have harchives' := harchives ws (hw.1 ▸ hsite)
    rw [← hw.1] at hkeeps' harchives'
    rcases hbuild : CommandLine.buildFiles p source w h₁ with ⟨r, h₂⟩
    obtain ⟨⟨hworks', hconfined⟩, hbundle⟩ :=
      buildFiles_confined hsite hopen hkeeps' harchives' rfl hworks hprepared hbuild
    have hend : (Errand.build p source output).LeavesNothing h (w.drop h₂) := by
      rw [hw.1] at hsite hworks'
      exact leavesNothing_drop_of_confined hsite hw hworks' hconfined
    cases r with
    | error _ => exact hend
    | ok bundle =>
      dsimp only
      split
      · exact hend
      · next h₃ hcopy =>
        -- the copy may change its own file, which may even be in the workspace
        obtain ⟨data, hread, hcopy⟩ := Tree.bind_eq_ok hcopy
        obtain ⟨t, hwrite, heq⟩ := Tree.bind_eq_ok hcopy
        cases heq
        obtain ⟨q, hq⟩ := resolve_of_read hread
        rw [hbundle bundle rfl, hworks'.cwd] at hq
        have hresult : Bundle.resultArchive ∈ archiveNames := by simp [archiveNames]
        have hplain := isPlain_archive hresult
        have hsome := hconfined.ne_none (hsite.leads_of_off hconfined.off)
          (List.cons_ne_nil Bundle.resultArchive [])
          (Path.split_join hopen hplain.1.noSlash)
          (Path.isAbsolute_join (Path.isAbsolute_eq_false hplain.1.noSlash) w.path) hq
        rw [hworks'.cwd] at hwrite
        obtain ⟨hremovable, place, hplace, hkept⟩ :=
          (hconfined.removable hsite).write hsite.real hsite.ne_nil hsome hwrite
        have hworks₃ := hworks'.files t
        rw [hw.1] at hsite hworks₃ hremovable
        refine leavesNothing_drop hsite hw hworks₃ hremovable fun q hq hnot => ?_
        by_cases halias : h₂.files.Aliases place q
        · exact .inr ⟨h₂.files, place, hconfined.off, hplace, halias⟩
        · exact .inl ((hkept q hq halias).trans (hconfined.off q hq hnot))

/-- **A request to compile.** -/
theorem compileUpload_leavesNothing {s : Http.Server} {r : Http.Request} {sizes : List Nat}
    (hkeeps : f.KeepsToNext s.pipeline h) (harchives : f.LeavesNextArchives s.pipeline h)
    {boundary : String} {result : Except Http.Error Http.Response × Host}
    (hresult : s.compileUpload r boundary h = result) :
    (Errand.request s r sizes).LeavesNothingOnceDropped h result := by
  have hgo (hresult : Http.Server.compileUpload.go s r boundary h = result) :
      (Errand.request s r sizes).LeavesNothingOnceDropped h result := by
    subst hresult
    unfold Http.Server.compileUpload.go
    split
    · next hacquire =>
      exact .inl ((ensures_acquireWorkspace hcalls hsound hcwd).of_error rfl hacquire)
    · next w h₁ hacquire =>
      obtain ⟨hw, hopen, ws, hsite, hworks, hprepared⟩ :=
        acquireWorkspace_eq_ok hcalls hsound hcwd hacquire
      have hkeeps' := hkeeps ws (hw.1 ▸ hsite)
      have harchives' := harchives ws (hw.1 ▸ hsite)
      rw [← hw.1] at hkeeps' harchives'
      rcases hbuild : s.buildUpload r boundary w h₁ with ⟨built, h₂⟩
      obtain ⟨hworks', hconfined⟩ :=
        buildUpload_confined hsite hopen hkeeps' harchives' rfl hworks hprepared hbuild
      have hend : (Errand.request s r sizes).LeavesNothing h (w.drop h₂) := by
        rw [hw.1] at hsite hworks'
        exact leavesNothing_drop_of_confined hsite hw hworks' hconfined
      cases built with
      | error _ => exact hend
      | ok bundle =>
        dsimp only
        unfold Http.Server.deliver
        split
        · exact hend
        · exact hend
  unfold Http.Server.compileUpload at hresult
  split at hresult
  · split at hresult
    · subst hresult
      exact leavesNothing_self (.request s r sizes) h
    · exact hgo hresult
  · exact hgo hresult

/-- **A request.** -/
theorem handle_leavesNothing {s : Http.Server} {r : Http.Request} {sizes : List Nat}
    (hkeeps : f.KeepsToNext s.pipeline h) (harchives : f.LeavesNextArchives s.pipeline h) :
    (Errand.request s r sizes).LeavesNothing h ((s.handle r h).1.body.drop (s.handle r h).2) := by
  have hsized (response : Http.Response) : response.sized.body = response.body := by
    unfold Http.Response.sized
    split <;> rfl
  have hcompile : (Errand.request s r sizes).LeavesNothing h
      ((s.compile r h).1.body.drop (s.compile r h).2) := by
    unfold Http.Server.compile
    split
    · exact leavesNothing_self (.request s r sizes) h
    · split
      · next hresult =>
        exact compileUpload_leavesNothing hcalls hsound hcwd hkeeps harchives hresult
      · next hresult =>
        exact compileUpload_leavesNothing hcalls hsound hcwd hkeeps harchives hresult
  have hroute (route : Http.Server.Route) : (Errand.request s r sizes).LeavesNothing h
      ((s.answerRoute route r h).1.body.drop (s.answerRoute route r h).2) := by
    unfold Http.Server.answerRoute
    split
    · exact leavesNothing_self (.request s r sizes) h
    · exact leavesNothing_self (.request s r sizes) h
    · exact leavesNothing_self (.request s r sizes) h
    · exact leavesNothing_self (.request s r sizes) h
    · dsimp only
      rw [hsized]
      exact hcompile
    · exact leavesNothing_self (.request s r sizes) h
  unfold Http.Server.handle
  dsimp only
  split
  · have hbody (path : String) : (Http.Server.preflight path).body = .bytes [] := by
      unfold Http.Server.preflight Http.Server.notFound
      dsimp only
      split
      · rfl
      · split <;> rfl
    dsimp only
    rw [hbody]
    exact leavesNothing_self (.request s r sizes) h
  · dsimp only
    split
    · exact hroute _
    · have hbody (path : String) : (Http.Server.notFound path).body = .bytes [] := by
        unfold Http.Server.notFound
        dsimp only
        split <;> rfl
      dsimp only
      rw [hbody]
      exact leavesNothing_self (.request s r sizes) h

end

/-- **Whatever is asked for**, at most one workspace is made, before anything is stored; it is gone
in the end, and all else is as it was, but for the file to which a build copies its bundle. -/
theorem Errand.leaves_nothing (e : Errand) {h : Host} {f : ToolFunction} (hcalls : h.CallsOnly f)
    (hsound : h.files.IsSound) (hcwd : IsReal h.cwd) (hkeeps : f.KeepsToNext e.pipeline h)
    (harchives : f.LeavesNextArchives e.pipeline h) : e.LeavesNothing h (e.run h) := by
  cases e with
  | request s r sizes =>
    simp only [run, Http.Body.drop_readPieces]
    exact handle_leavesNothing hcalls hsound hcwd hkeeps harchives
  | build p source output =>
    exact build_leavesNothing hcalls hsound hcwd source output hkeeps harchives
  | doctor p => exact doctor_leavesNothing hcalls hsound hcwd hkeeps

/-! ## A tool that writes files, and one that makes a link -/

/-- Files with something that is not in a workspace. -/
def precious : Tree :=
  ({} : Tree).insert ["precious"] (.file 0 fileMode [7]) 1

theorem isSound_empty : ({} : Tree).IsSound := by
  refine ⟨List.nodup_nil, fun e he => ?_, fun p name _ h => ?_, fun e he => ?_, fun e he => ?_⟩
  · cases he
  · exact absurd (by simp [get?]) h
  · cases he
  · cases he

theorem isSound_precious : precious.IsSound := by
  refine isSound_empty.insert ?_ rfl ⟨[], "precious", directoryMode, rfl, get?_root _⟩ (Nat.zero_le _)
    fun serial hserial => ?_
  · intro name hname
    rw [List.mem_singleton.1 hname]
    decide
  · cases hserial
    decide

/-- A build of files of that kind. -/
def preciousBuild (output : String) : Errand :=
  .build ⟨"/", usualTools⟩ (fun _ => "/precious") output

/-- A tool that writes what it has to. -/
def writingTool : ToolFunction :=
  writer fun _ => usualOutputs "precious"

def writingHost : Host :=
  ({ files := precious } : Host).withTools writingTool

/-- A build with tools that write what they have to. -/
theorem leavesNothing_of_writer :
    (writingHost.CallsOnly writingTool ∧ writingHost.files.IsSound ∧ IsReal writingHost.cwd ∧
      writingTool.KeepsToNext (preciousBuild "/bundle").pipeline writingHost ∧
      writingTool.LeavesNextArchives (preciousBuild "/bundle").pipeline writingHost) ∧
    (preciousBuild "/bundle").LeavesNothing writingHost
      ((preciousBuild "/bundle").run writingHost) := by
  have hplain (program : String) (file : String × Bytes) (hfile : file ∈ usualOutputs "precious") :
      Path.IsPlain file.1 ∧ file.1 ≠ ".." := by
    simp only [usualOutputs, List.map_cons, List.map_nil, List.mem_cons, List.not_mem_nil,
      or_false] at hfile
    obtain rfl | rfl | rfl | rfl | rfl := hfile <;>
      exact Path.isPlain_of_head rfl (by decide) (by decide)
  have hcalls : writingHost.CallsOnly writingTool := Host.callsOnly_withTools _ _
  have hopen := isOpen_nextWorkspace (preciousBuild "/bundle").pipeline writingHost
  have hkeeps : writingTool.KeepsToNext (preciousBuild "/bundle").pipeline writingHost :=
    fun _ hsite => keepsTo_writer hplain hsite hopen
  have harchives : writingTool.LeavesNextArchives (preciousBuild "/bundle").pipeline writingHost :=
    fun _ hsite => leavesArchives_writer hplain hsite hopen
  exact ⟨⟨hcalls, isSound_precious, isReal_nil, hkeeps, harchives⟩,
    Errand.leaves_nothing _ hcalls isSound_precious isReal_nil hkeeps harchives⟩

/-- Makes new nodes in a directory. -/
def Files.Tree.plant (ws : Place) (t : Tree) (nodes : List (String × (Nat → Node))) : Tree :=
  nodes.foldl (fun t e => t.insert (ws ++ [e.1]) (e.2 t.nextSerial) (t.nextSerial + 1)) t

theorem Files.Tree.Confined.plant {base t : Tree} {ws : Place} {mode : Nat} (h : Confined ws base t)
    (hws : ws ≠ []) (hreal : IsReal ws) (hdir : t.get? ws = some (.directory mode))
    (hadmits : AdmitsNames (.directory mode)) {nodes : List (String × (Nat → Node))}
    (hnodup : (nodes.map Prod.fst).Nodup)
    (hnodes : ∀ e ∈ nodes, '/' ∉ e.1.toList ∧ t.get? (ws ++ [e.1]) = none ∧
      ∀ serial, (e.2 serial).isDirectory = false ∧ ((e.2 serial).serial? = none ∨
        (e.2 serial).serial? = some serial)) :
    Confined ws base (plant ws t nodes) := by
  induction nodes generalizing t with
  | nil => exact h
  | cons e rest ih =>
    obtain ⟨hname, hnone, hnode⟩ := hnodes e List.mem_cons_self
    obtain ⟨hfirst, hrest⟩ := List.nodup_cons.1 hnodup
    refine ih (h.insert hws hreal hname hdir hadmits hnone (hnode _).1 (Nat.le_succ _) ?_) ?_ hrest
      fun other hother => ?_
    · intro serial hserial
      obtain hs | hs := (hnode t.nextSerial).2
      · rw [hs] at hserial
        cases hserial
      · rw [hs] at hserial
        cases hserial
        exact ⟨Nat.le_refl _, Nat.lt_succ_self _⟩
    · rw [get?_insert_of_ne (by simp), hdir]
    · obtain ⟨hname', hnone', hnode'⟩ := hnodes other (List.mem_cons_of_mem e hother)
      refine ⟨hname', ?_, hnode'⟩
      have hne : ws ++ [other.1] ≠ ws ++ [e.1] := by
        intro heq
        have heq := List.singleton_inj.1 (List.append_cancel_left heq)
        exact hfirst (heq ▸ List.mem_map_of_mem hother)
      rw [get?_insert_of_ne hne, hnone']

/-- A tool that replaces the files by others. -/
def replacer (t : Tree) : ToolFunction :=
  fun _ _ _ _ _ => .ok { said := [], files := t, ending := some (0, .exited 0) }

theorem comes_replacer {p : Pipeline} {cwd : Place} {path : String} {left t t' : Tree}
    (h : p.Comes (replacer left) cwd path t t') : t' = t ∨ t' = left := by
  induction h with
  | start => exact .inl rfl
  | call _ _ ih =>
    dsimp only [Stage.leftBy, replacer, Deed.filesAfter]
    split
    · exact ih
    · exact .inr rfl

/-- The place of the first workspace. -/
def firstPlace : Place :=
  ["idiogen-00000000-0000-4000-8000-000000000000"]

/-- What a build has to leave, and in the place of an archive a link to what is precious. -/
def leftWithLink : List (String × (Nat → Node)) :=
  (Bundle.sourcesArchive, fun _ => .link "../precious") ::
    (usualOutputs "precious").map fun file => (file.1, fun serial => .file serial fileMode file.2)

/-- The tool that leaves the link. -/
def linker : ToolFunction :=
  replacer (plant firstPlace (precious.put firstPlace (.directory Workspace.mode)) leftWithLink)

def linkingHost : Host :=
  ({ files := precious } : Host).withTools linker

theorem keepsToNext_linker :
    linker.KeepsToNext (preciousBuild "").pipeline linkingHost := by
  intro ws hsite
  have hplace : (linkingHost.files.resolve linkingHost.cwd
      ((preciousBuild "").pipeline.nextWorkspace linkingHost) false).toOption =
      some firstPlace := by decide +kernel
  rw [hsite.leads] at hplace
  cases hplace
  intro t t' hprepared hcomes
  obtain rfl | rfl := comes_replacer hcomes
  · exact hprepared.toConfined
  have hmade : Prepared firstPlace precious (precious.put firstPlace (.directory Workspace.mode)) :=
    hsite.prepared (by decide) ⟨by decide, by decide⟩
  refine hmade.toConfined.plant hsite.ne_nil hsite.isReal
    (get?_put_self _ _ hsite.ne_nil) ⟨by decide, by decide⟩ (by decide) fun e he => ?_
  have hname : '/' ∉ e.1.toList := by
    revert e
    decide
  refine ⟨hname, ?_, fun serial => ?_⟩
  · rw [get?_put_of_ne _ _ (by simp)]
    exact hsite.nothing (hsite.isReal.snoc hname) (List.prefix_append _ _)
  · simp only [leftWithLink, usualOutputs, List.map_cons, List.map_nil, List.mem_cons,
      List.not_mem_nil, or_false] at he
    obtain rfl | rfl | rfl | rfl | rfl | rfl := he
    · exact ⟨rfl, .inl rfl⟩
    all_goals exact ⟨rfl, .inr rfl⟩

/-- **A link** in the place of an archive leads the build out of the workspace. -/
theorem not_leavesNothing_of_linker : ∃ (e : Errand) (h : Host) (f : ToolFunction),
    h.CallsOnly f ∧ h.files.IsSound ∧ IsReal h.cwd ∧ f.KeepsToNext e.pipeline h ∧
      ¬ e.LeavesNothing h (e.run h) := by
  refine ⟨preciousBuild "", linkingHost, linker, Host.callsOnly_withTools _ _, isSound_precious,
    isReal_nil, keepsToNext_linker, ?_⟩
  have hlost : ((preciousBuild "").run linkingHost).files.get? ["precious"] =
      some (.file 0 fileMode []) := by decide +kernel
  have hhad : precious.get? ["precious"] = some (.file 0 fileMode [7]) := rfl
  have hreal : IsReal ["precious"] := by
    intro name hname
    rw [List.mem_singleton.1 hname]
    decide
  generalize (preciousBuild "").run _ = h' at hlost
  rintro (⟨hfiles, -⟩ | ⟨ws, work, -, -, -, hget⟩)
  · rw [hfiles] at hlost
    exact absurd (hhad.symm.trans hlost) (by simp)
  · have hplace := hget ["precious"] hreal
    split at hplace
    · exact absurd (hhad.symm.trans hplace.1) (by simp)
    · obtain hsame | ⟨t, p, -, hp, -⟩ := hplace
      · rw [hlost] at hsame
        exact absurd (hhad.symm.trans hsame.symm) (by simp)
      · -- the empty path leads nowhere
        cases hp

end LangBundle
