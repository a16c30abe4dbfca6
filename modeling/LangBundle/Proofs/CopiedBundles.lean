import LangBundle.Proofs.FrontEnds

/-!
# What a build of the command line changes

A build takes five files in, calls the tools in its workspace and copies the bundle out.  It changes
nothing but the file to which it copies the bundle, and that one only if all went well.

* `CommandLine.TakesReadable`, `FirstUnreadable`: what the workspace takes in, and **the first
  file** that cannot be read.
* `CommandLine.storeFiles_of_unreadable`: **that file** is reported.
* `CommandLine.ending_of_build`: **the end of a build** is that of its work in the workspace.
* `CommandLine.LeavesBundleOnly`: what a build changes;
  `CommandLine.leavesBundleOnly_of_keeps`: **every build** changes only that if its tools keep to
  the workspace.
* `CommandLine.not_leavesBundleOnly_of_linker`: a **link** in the place of an archive leads out.
-/

namespace LangBundle

open Files Files.Tree

/-! ## Files that are taken in, or cannot be read -/

namespace Intake

/-- Nothing is recorded if the reader fails. -/
theorem store_of_failure (role : Role) (declared : Option String) (data : Bytes) (detail : String)
    (s : Intake × Host) : ∃ e s', store role declared data (some detail) s = .error e s' := by
  rcases hbegin : begin role declared s with ⟨u, s₁⟩ | ⟨e, s₁⟩
  · rcases hwrite : write u data s₁ with ⟨v, s₂⟩ | ⟨e, s₂⟩
    · exact ⟨_, _, (Service.bind_of_ok hbegin).trans ((Service.bind_of_ok hwrite).trans rfl)⟩
    · exact ⟨_, _, (Service.bind_of_ok hbegin).trans (Service.bind_of_error hwrite)⟩
  · exact ⟨_, _, Service.bind_of_error hbegin⟩

/-- **A file that cannot be read** is not stored. -/
theorem storeFile_of_unreadable (role : Role) {source : String} {s : Intake × Host}
    (hfail : ∀ data, s.2.files.read s.2.cwd source ≠ .ok data) :
    ∃ e s', storeFile role source s = .error e s' := by
  obtain ⟨i, h⟩ := s
  unfold storeFile
  dsimp only
  rcases hopen : h.files.openRead h.cwd source with fault | opened
  · exact ⟨_, _, rfl⟩
  dsimp only
  rcases hall : h.files.readAll opened with fault | data
  · exact store_of_failure role _ _ _ (i, h)
  · refine absurd ?_ (hfail data)
    rw [Tree.read, hopen]
    exact hall

/-- **Storing files** calls no tool. -/
theorem idle_storeFile (role : Role) (source : String) :
    Idle (fun s => s.2.calls) BuildError.IsOfIntake (storeFile role source) := by
  have hstore (declared : Option String) (data : Bytes) (failure : Option Fault) :
      Idle (fun s => s.2.calls) BuildError.IsOfIntake
        (store role declared data (failure.map Fault.message)) := by
    refine (idle_begin role declared).bind fun u => (idle_write u data).bind fun u => ?_
    cases failure with
    | none => exact Idle.bind ⟨fun _ => rfl⟩ fun _ => .pure
    | some fault => exact .throw (.file (.fault u.path fault))
  refine ⟨fun (i, h) => ?_⟩
  rcases hopen : h.files.openRead h.cwd source with fault | opened
  · simp only [storeFile, hopen]
    exact ⟨.file (.fault source fault), trivial⟩
  rcases hall : h.files.readAll opened with fault | data
  · simp only [storeFile, hopen, hall]
    exact (hstore _ [] (some fault)).ends (i, h)
  · simp only [storeFile, hopen, hall]
    exact (hstore _ data none).ends (i, h)

theorem idle_storeSources (source : Role → String) (roles : List Role) :
    Idle (fun s => s.2.calls) BuildError.IsOfIntake (storeSources source roles) := by
  induction roles with
  | nil => exact .pure
  | cons role rest ih => exact (idle_storeFile role (source role)).bind fun _ => ih

end Intake

namespace CommandLine

/-- As long as the files can be read, the workspace takes them in. -/
def TakesReadable (source : Role → String) : List Role → Intake × Host → Prop
  | [], _ => True
  | role :: rest, s => ∀ data, s.2.files.read s.2.cwd (source role) = .ok data →
    ∃ n s', Intake.storeFile role (source role) s = .ok n s' ∧ TakesReadable source rest s'

/-- The first role whose file cannot be read when its turn comes. -/
inductive FirstUnreadable (source : Role → String) : List Role → Intake × Host → Role → Prop
  | here {role : Role} {rest : List Role} {s : Intake × Host}
      (hfail : ∀ data, s.2.files.read s.2.cwd (source role) ≠ .ok data) :
      FirstUnreadable source (role :: rest) s role
  | later {other role : Role} {rest : List Role} {s : Intake × Host} {data : Bytes}
      (hread : s.2.files.read s.2.cwd (source other) = .ok data)
      (hrest : ∀ n s', Intake.storeFile other (source other) s = .ok n s' →
        FirstUnreadable source rest s' role) :
      FirstUnreadable source (other :: rest) s role

/-- **The first file that cannot be read** is reported. -/
theorem storeFiles_of_unreadable {source : Role → String} {roles : List Role} {s : Intake × Host}
    {role : Role} (hfirst : FirstUnreadable source roles s role)
    (htakes : TakesReadable source roles s) :
    ∃ e s', storeFiles source roles s = .error (.behind (unreadable role) e) s' := by
  induction hfirst with
  | @here role rest s hfail =>
    obtain ⟨e, s', hstore⟩ := Intake.storeFile_of_unreadable role hfail
    exact ⟨e, s', Service.bind_of_error (by simp only [EStateM.adaptExcept, hstore])⟩
  | @later other role rest s data hread _ ih =>
    obtain ⟨n, s', hstore, hrest⟩ := htakes data hread
    obtain ⟨e, s'', hfailed⟩ := ih n s' hstore hrest
    have hsame : (Intake.storeFile other (source other)).adaptExcept
        (Failure.behind (unreadable other)) s = .ok n s' := by
      simp only [EStateM.adaptExcept, hstore]
    exact ⟨e, s'', (Service.bind_of_ok hsame).trans hfailed⟩

/-- **Where paths do not get too long** the workspace takes in what can be read. -/
theorem takesReadable_of_kept {base : Tree} {cwd ws : Place} {path : String}
    (hsite : base.Site cwd path ws) (hroom : Path.HasRoom path 30)
    (hnormal : Path.normal path = path) (source : Role → String) {roles : List Role}
    (hnodup : roles.Nodup) {s : Intake.Session} (hkept : s.Kept base cwd ws path)
    (hfresh : ∀ role ∈ roles, role ∉ s.intake.claimed) :
    TakesReadable source roles (s.intake, s.host) := by
  induction roles generalizing s with
  | nil => trivial
  | cons role rest ih =>
    intro data hread
    obtain ⟨hrole, hrest⟩ := List.nodup_cons.1 hnodup
    have hnew := hfresh role List.mem_cons_self
    obtain ⟨i, h', htake⟩ :=
      hkept.take_ok hsite hroom hnormal hnew ⟨Path.fileName? (source role), [data]⟩
    obtain ⟨s', -, hruns, rfl, rfl, -⟩ := Intake.Session.runs_take htake
    have hclaimed : s'.intake.claimed = role :: s.intake.claimed := by
      obtain ⟨hold, -⟩ | ⟨-, ⟨_, _, hok, hclaimed⟩ | ⟨_, _, _, hfailed⟩⟩ :=
        Intake.take_cases role ⟨Path.fileName? (source role), [data]⟩ s.intake s.host
      · exact absurd hold hnew
      · cases hok.symm.trans htake
        exact hclaimed
      · cases hfailed.symm.trans htake
    refine ⟨data.length, (s'.intake, s'.host), ?_, ih hrest
      (hkept.runs hsite hroom.toIsOpen hruns) fun other hother => ?_⟩
    · exact (Intake.storeFile_eq hread).trans (Service.bind_of_ok htake)
    · rw [hclaimed, List.mem_cons, not_or]
      exact ⟨fun heq => hrole (heq ▸ hother), hfresh other (List.mem_cons_of_mem role hother)⟩

/-- **The first file** that cannot be read, whatever is in the workspace, behind files that could be
read before the workspace was made. -/
theorem firstUnreadable_of_kept {base : Tree} {cwd ws : Place} {path : String} (hcwd : IsReal cwd)
    (hsite : base.Site cwd path ws) (hpath : Path.IsOpen path) {source : Role → String}
    {before after : List Role} {role : Role}
    (hread : ∀ other ∈ before, ∃ data, base.read cwd (source other) = .ok data)
    (hfail : ∀ t : Tree, (∀ q, IsReal q → ¬ ws <+: q → t.get? q = base.get? q) →
      ∀ data, t.read cwd (source role) ≠ .ok data)
    {s : Intake.Session} (hkept : s.Kept base cwd ws path) :
    FirstUnreadable source (before ++ role :: after) (s.intake, s.host) role := by
  induction before generalizing s with
  | nil =>
    refine .here fun data => ?_
    dsimp only
    rw [hkept.cwd_eq]
    exact hfail _ hkept.prepared.off data
  | cons other rest ih =>
    obtain ⟨data, hdata⟩ := hread other List.mem_cons_self
    have hdata' : s.host.files.read s.host.cwd (source other) = .ok data := by
      rw [hkept.cwd_eq]
      exact read_retained (hsite.retains hkept.prepared.off) hcwd hsite.sound
        hkept.prepared.sound hdata
    refine .later hdata' fun n s' hstore => ?_
    rw [Intake.storeFile_eq hdata'] at hstore
    obtain ⟨⟨⟩, ⟨i, h'⟩, htake, hend⟩ := Service.bind_eq_ok hstore
    obtain ⟨s₁, -, hruns, rfl, rfl, -⟩ := Intake.Session.runs_take htake
    cases hend
    exact ih (fun r hr => hread r (List.mem_cons_of_mem other hr)) (hkept.runs hsite hpath hruns)

/-! ## The end of a build -/

/-- What a build has done in its workspace, and what came of it, when it is about to copy. -/
structure WorksIn (p : Pipeline) (source : Role → String) (h : Host) (w : Workspace) (ws : Place)
    (r : Except Failure String) (h₂ : Host) : Prop where
  acquired : ∃ h₀, p.acquireWorkspace h = .ok w h₀ ∧ buildFiles p source w h₀ = (r, h₂)
  released : w.released = false
  isOpen : Path.IsOpen w.path
  site : h.files.Site h.cwd w.path ws
  cwd : h₂.cwd = h.cwd
  confined : Confined ws h.files h₂.files
  bundle : ∀ bundle, r = .ok bundle → bundle = Path.join w.path Bundle.resultArchive

section
variable {p : Pipeline} {source : Role → String} {output : String} {h : Host} {w : Workspace}
  {ws : Place}

/-- **The removal** of the workspace leaves all as it was before the build. -/
theorem WorksIn.get?_drop {r : Except Failure String} {h₂ : Host}
    (hworks : WorksIn p source h w ws r h₂) {q : Place} (hq : IsReal q) :
    (w.drop h₂).files.get? q = h.files.get? q := by
  have hremovable : h₂.files.Removable h₂.cwd w.path ws :=
    hworks.cwd ▸ hworks.confined.removable hworks.site
  rw [(drop_eq hworks.released hworks.site.ne_nil hremovable).2 q hq]
  split
  · next hbelow => exact (hworks.site.nothing hq hbelow).symm
  · next hnot => exact hworks.confined.off q hq hnot

/-- **The copy** changes the names of one file only, if that one is not in the workspace. -/
theorem WorksIn.get?_copied {bundle : String} {data : Bytes} {h₂ h₃ : Host}
    (hworks : WorksIn p source h w ws (.ok bundle) h₂)
    (hread : h₂.files.read h₂.cwd bundle = .ok data)
    (hcopy : copyFile bundle output h₂ = .ok h₃) {place : Place}
    (hplace : h₂.files.resolve h.cwd output = .ok place) (hout : ¬ ws <+: place) {q : Place}
    (hq : IsReal q) (hnot : ¬ h.files.Aliases place q) :
    (w.drop h₃).files.get? q = h.files.get? q := by
  obtain ⟨_, -, hcopy⟩ := Tree.bind_eq_ok hcopy
  obtain ⟨t, hwrite, heq⟩ := Tree.bind_eq_ok hcopy
  cases heq
  -- the directory of the workspace is there, as the bundle is in it
  have hsome : h₂.files.get? ws ≠ none := by
    obtain ⟨r, hr⟩ := resolve_of_read hread
    rw [hworks.bundle bundle rfl, hworks.cwd] at hr
    have hresult : Bundle.resultArchive ∈ archiveNames := by simp [archiveNames]
    have hplain := isPlain_archive hresult
    exact hworks.confined.ne_none (hworks.site.leads_of_off hworks.confined.off)
      (List.cons_ne_nil Bundle.resultArchive []) (Path.split_join hworks.isOpen hplain.1.noSlash)
      (Path.isAbsolute_join (Path.isAbsolute_eq_false hplain.1.noSlash) w.path) hr
  rw [hworks.cwd] at hwrite
  obtain ⟨hremovable, place', hplace', hkept⟩ := (hworks.confined.removable hworks.site).write
    hworks.site.real hworks.site.ne_nil hsome hwrite
  obtain rfl : place = place' := Except.ok.inj (hplace.symm.trans hplace')
  have hdrop := drop_eq (h := { h₂ with files := t }) hworks.released hworks.site.ne_nil
    (by rw [hworks.cwd]; exact hremovable)
  rw [hdrop.2 q hq]
  split
  · next hbelow => exact (hworks.site.nothing hq hbelow).symm
  · next hoff =>
    have hreal : IsReal place := isReal_of_resolve hworks.site.real hplace
    have hserial {r : Place} (hr : IsReal r) (hroff : ¬ ws <+: r) :
        h₂.files.serialAt? r = h.files.serialAt? r := by
      rw [serialAt?, serialAt?, hworks.confined.off r hr hroff]
    have hother : ¬ h₂.files.Aliases place q := by
      simpa only [Aliases, hserial hreal hout, hserial hq hoff] using hnot
    exact (hkept q hq hother).trans (hworks.confined.off q hq hoff)

end

section
variable {f : ToolFunction} {p : Pipeline} {h : Host} (source : Role → String) (output : String)
  (hcalls : h.CallsOnly f) (hsound : h.files.IsSound) (hcwd : IsReal h.cwd)
include hcalls hsound hcwd

/-- **A build** ends before it has a workspace, or as its work in the workspace does. -/
theorem ending_of_build (hkeeps : f.KeepsToNext p h) (harchives : f.LeavesNextArchives p h) :
    (∃ e h', build p source output h = (.error e, h') ∧ h'.files = h.files) ∨
      ∃ w ws r h₂, WorksIn p source h w ws r h₂ ∧ build p source output h =
        match r with
        | .error e => (.error e, w.drop h₂)
        | .ok bundle =>
          match copyFile bundle output h₂ with
          | .error fault => (.error ⟨unwritable output, fault.message⟩, w.drop h₂)
          | .ok h₃ => (.ok (), w.drop h₃) := by
  unfold build
  split
  · next hacquire =>
    exact .inl ⟨_, _, rfl, ((ensures_acquireWorkspace hcalls hsound hcwd).of_error rfl hacquire).1⟩
  · next w h₀ hacquire =>
    obtain ⟨hw, hopen, ws, hsite, hworks, hprepared⟩ :=
      acquireWorkspace_eq_ok hcalls hsound hcwd hacquire
    have hkeeps' := hkeeps ws (hw.1 ▸ hsite)
    have harchives' := harchives ws (hw.1 ▸ hsite)
    rw [← hw.1] at hkeeps' harchives'
    rcases hbuild : buildFiles p source w h₀ with ⟨r, h₂⟩
    obtain ⟨⟨hworks', hconfined⟩, hbundle⟩ :=
      buildFiles_confined hsite hopen hkeeps' harchives' rfl hworks hprepared hbuild
    refine .inr ⟨w, ws, r, h₂, ⟨⟨h₀, hacquire, hbuild⟩, hw.2, hopen, hsite, hworks'.cwd, hconfined,
      hbundle⟩, ?_⟩
    cases r <;> rfl

end

/-- **A file that cannot be read** ends the build before any tool is called. -/
theorem build_of_unreadable {p : Pipeline} {source : Role → String} {h h₀ : Host} {w : Workspace}
    {role : Role} (output : String) (hacquire : p.acquireWorkspace h = .ok w h₀)
    (htakes : TakesReadable source Role.all ({ workspace := w.path }, h₀))
    (hfirst : FirstUnreadable source Role.all ({ workspace := w.path }, h₀) role) :
    ∃ e h', build p source output h = (.error (.behind (unreadable role) e), h') ∧
      h'.calls = h.calls := by
  obtain ⟨e, ⟨i, h₁⟩, hstore⟩ := storeFiles_of_unreadable hfirst htakes
  have hcalls : h₁.calls = h₀.calls := by
    obtain ⟨_, -, hok⟩ | ⟨_, _, _, hfailed, hsame⟩ :=
      storeFiles_cases source Role.all ({ workspace := w.path }, h₀)
    · cases hok.symm.trans hstore
    · obtain ⟨-, rfl⟩ := EStateM.Result.error.inj (hsame.symm.trans hstore)
      exact ((Intake.idle_storeSources source Role.all).of_error hfailed).2
  have hfiles : buildFiles p source w h₀ = (.error (.behind (unreadable role) e), h₁) := by
    unfold buildFiles
    rw [hstore]
  have hbuild : build p source output h = (.error (.behind (unreadable role) e), w.drop h₁) := by
    unfold build
    rw [hacquire]
    dsimp only
    rw [hfiles]
  exact ⟨e, _, hbuild, by rw [calls_drop, hcalls, (idle_acquireWorkspace p).of_ok hacquire]⟩

/-! ## What a build changes -/

/-- What a build changes: the file to which it copies the bundle, and only if all went well. -/
structure LeavesBundleOnly (p : Pipeline) (source : Role → String) (output : String) (h : Host) :
    Prop where
  /-- Nothing is changed by a build that fails. -/
  failed : ∀ e h', build p source output h = (.error e, h') →
    ∀ q, IsReal q → h'.files.get? q = h.files.get? q
  /-- The first file that cannot be read is reported, and no tool is called then. -/
  unreadable : ∀ w h₀ role, p.acquireWorkspace h = .ok w h₀ →
    TakesReadable source Role.all ({ workspace := w.path }, h₀) →
    FirstUnreadable source Role.all ({ workspace := w.path }, h₀) role →
    ∃ e h', build p source output h = (.error (.behind (CommandLine.unreadable role) e), h') ∧
      h'.calls = h.calls
  /-- The bundle that was assembled is at `output` in the end.  All else is as it was, unless
  `output` led into the workspace. -/
  succeeded : ∀ h', build p source output h = (.ok (), h') → ∃ w h₀ h₂ data,
    p.acquireWorkspace h = .ok w h₀ ∧
    buildFiles p source w h₀ = (.ok (Path.join w.path Bundle.resultArchive), h₂) ∧
    h₂.files.read h₂.cwd (Path.join w.path Bundle.resultArchive) = .ok data ∧
    Job.Copied w output data h₂ h' ∧
    ∀ ws place, h.files.resolve h.cwd w.path false = .ok ws →
      h₂.files.resolve h.cwd output = .ok place → ¬ ws <+: place →
      ∀ q, IsReal q → ¬ h.files.Aliases place q → h'.files.get? q = h.files.get? q

/-- **Every build** whose tools keep to the workspace changes only that. -/
theorem leavesBundleOnly_of_keeps {f : ToolFunction} {p : Pipeline} {h : Host}
    (source : Role → String) (output : String) (hcalls : h.CallsOnly f) (hsound : h.files.IsSound)
    (hcwd : IsReal h.cwd) (hkeeps : f.KeepsToNext p h) (harchives : f.LeavesNextArchives p h) :
    LeavesBundleOnly p source output h := by
  have hending := ending_of_build source output hcalls hsound hcwd hkeeps harchives
  refine ⟨fun e h' hbuild q hq => ?_, fun w h₀ role hacquire htakes hfirst =>
    build_of_unreadable output hacquire htakes hfirst, fun h' hbuild => ?_⟩
  · obtain ⟨_, _, heq, hsame⟩ | ⟨w, ws, r, h₂, hworks, heq⟩ := hending
    · cases heq.symm.trans hbuild
      rw [hsame]
    · rw [hbuild] at heq
      cases r with
      | error _ =>
        cases heq
        exact hworks.get?_drop hq
      | ok bundle =>
        dsimp only at heq
        split at heq
        · cases heq
          exact hworks.get?_drop hq
        · cases heq
  · obtain ⟨_, _, heq, -⟩ | ⟨w, ws, r, h₂, hworks, heq⟩ := hending
    · cases heq.symm.trans hbuild
    · rw [hbuild] at heq
      cases r with
      | error _ => cases heq
      | ok bundle =>
        dsimp only at heq
        split at heq
        · cases heq
        · next h₃ hcopy =>
          cases heq
          obtain rfl := hworks.bundle bundle rfl
          obtain ⟨data, hread, -⟩ := Tree.bind_eq_ok hcopy
          obtain ⟨h₀, hacquire, hfiles⟩ := hworks.acquired
          refine ⟨w, h₀, h₂, data, hacquire, hfiles, hread,
            Job.copied_of_copyFile (hworks.cwd ▸ hcwd) hread hcopy,
            fun ws' place hws hplace hout q hq hnot => ?_⟩
          obtain rfl : ws' = ws := Except.ok.inj (hws.symm.trans hworks.site.leads)
          exact hworks.get?_copied hread hcopy hplace hout hq hnot

/-- A file for each role, but for the third one, where there is a directory. -/
def directoryAmong (role : Role) : String :=
  if role = .interpreter then "/" else "/precious"

/-- A build whose tools write files, and one that ends at a directory. -/
theorem leavesBundleOnly_of_staleTool :
    let p : Pipeline := ⟨"/", usualTools⟩
    (staleHost.CallsOnly staleTool ∧ staleHost.files.IsSound ∧ IsReal staleHost.cwd ∧
      staleTool.KeepsToNext p staleHost ∧ staleTool.LeavesNextArchives p staleHost) ∧
    LeavesBundleOnly p (fun _ => "/precious") "/copy" staleHost ∧
    LeavesBundleOnly p directoryAmong "/copy" staleHost ∧
    ∃ e h', build p directoryAmong "/copy" staleHost =
      (.error (.behind (unreadable .interpreter) e), h') ∧ h'.calls = staleHost.calls := by
  intro p
  have hcalls : staleHost.CallsOnly staleTool := Host.callsOnly_withTools _ _
  have hplain (program : String) (file : String × Bytes) (hfile : file ∈ staleFiles) :=
    (suitsBuild_staleFiles.takes file hfile).1.plain
  have hopen := isOpen_nextWorkspace p staleHost
  have hkeeps : staleTool.KeepsToNext p staleHost :=
    fun _ hsite => keepsTo_writer hplain hsite hopen
  have harchives : staleTool.LeavesNextArchives p staleHost :=
    fun _ hsite => leavesArchives_writer hplain hsite hopen
  have hall (source : Role → String) : LeavesBundleOnly p source "/copy" staleHost :=
    leavesBundleOnly_of_keeps source "/copy" hcalls isSound_precious isReal_nil hkeeps harchives
  obtain ⟨w, h₀, hacquire, hw⟩ := acquire_staleHost
  obtain ⟨hpath, ws, hsite, hkept⟩ :=
    Intake.Session.kept_of_acquireWorkspace isSound_precious isReal_nil hacquire
  have hnormal : Path.normal w.path = w.path := by
    rw [hw]
    decide +kernel
  have hroom : Path.HasRoom w.path 30 := hw ▸ hasRoom_firstPath
  have htakes := takesReadable_of_kept hsite hroom hnormal directoryAmong Role.nodup_all hkept
    fun _ _ => List.not_mem_nil
  have hreads (other : Role) (hother : other ∈ [Role.grammar, .lexer]) :
      ∃ data, staleHost.files.read staleHost.cwd (directoryAmong other) = .ok data := by
    have hread : precious.read [] "/precious" = .ok [7] := by decide +kernel
    simp only [List.mem_cons, List.not_mem_nil, or_false] at hother
    obtain rfl | rfl := hother <;> exact ⟨[7], hread⟩
  have hfails (t : Tree) (data : Bytes) :
      t.read staleHost.cwd (directoryAmong .interpreter) ≠ .ok data := by
    -- the root is a directory on every tree
    have hroot : t.read [] "/" = .error .isDirectory := rfl
    exact fun hread => nomatch hroot.symm.trans hread
  have hfirst : FirstUnreadable directoryAmong
      ([.grammar, .lexer] ++ .interpreter :: [.documentation, .example])
      ({ workspace := w.path }, h₀) .interpreter :=
    firstUnreadable_of_kept isReal_nil hsite hpath hreads (fun t _ => hfails t) hkept
  exact ⟨⟨hcalls, isSound_precious, isReal_nil, hkeeps, harchives⟩, hall _, hall _,
    (hall directoryAmong).unreadable w h₀ .interpreter hacquire htakes hfirst⟩

/-- **A link** in the place of an archive leads the build out of the workspace: it fails, and the
file to which the bundle was to be copied is empty. -/
theorem not_leavesBundleOnly_of_linker : ∃ (p : Pipeline) (source : Role → String)
    (output : String) (h : Host) (f : ToolFunction), h.CallsOnly f ∧ h.files.IsSound ∧
      IsReal h.cwd ∧ f.KeepsToNext p h ∧ ¬ LeavesBundleOnly p source output h := by
  refine ⟨⟨"/", usualTools⟩, fun _ => "/precious", "/precious", linkingHost, linker,
    Host.callsOnly_withTools _ _, isSound_precious, isReal_nil, keepsToNext_linker,
    fun hleaves => ?_⟩
  have hrun : (match build ⟨"/", usualTools⟩ (fun _ => "/precious") "/precious" linkingHost with
      | (.error _, h') => decide (h'.files.get? ["precious"] = some (.file 0 fileMode []))
      | (.ok (), _) => false) = true := by decide +kernel
  have hreal : IsReal ["precious"] := by
    intro name hname
    rw [List.mem_singleton.1 hname]
    decide
  have hfailed := hleaves.failed
  generalize build _ _ _ linkingHost = result at hrun hfailed
  obtain ⟨e | _, h'⟩ := result
  · have hkept := hfailed e h' rfl ["precious"] hreal
    rw [of_decide_eq_true hrun] at hkept
    exact absurd hkept (by decide +kernel)
  · cases hrun

end CommandLine

end LangBundle
