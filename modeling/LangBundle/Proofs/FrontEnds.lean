import LangBundle.Proofs.Answers
import LangBundle.Proofs.SameInputs

/-!
# Two ways to ask for a build

A build may be asked for with five files or with an upload, in any order of its parts.  If both carry
the same inputs, and the tools do the same wherever the workspace is, both come to the same.

* `get?_of_write`, `eq_of_write`: **what a copy leaves**.
* `Intake.Session.storeSources_eq`: **files** that can be read are taken in as fields are.
* `Job.stored_of_quiet`: **the inputs** of a job are stored if no file operation fails.
* `Job.ends_of_error`, `Job.ends_of_ok`: what a job comes to is what its caller is told, or gets.
* `Job.sameEnd_of_sound`: **two jobs** with the same files come to the same.
-/

namespace LangBundle

open Files Files.Tree

/-! ## What a copy leaves -/

namespace Files.Tree

/-- **What is written** is in the file then, unless there is something that is no file. -/
theorem get?_of_write {t t' : Tree} {cwd : Place} {path : String} {data : Bytes}
    (hwrite : t.write cwd path data = .ok t') :
    ∃ p, t.resolve cwd path = .ok p ∧ t'.resolve cwd path = .ok p ∧
      ((∃ serial mode, t'.get? p = some (.file serial mode data)) ∨
        t' = t ∧ ∃ n, t.get? p = some n ∧ ∀ serial mode data, n ≠ .file serial mode data) := by
  obtain ⟨⟨sink, u⟩, hopen, hat⟩ := Tree.bind_eq_ok hwrite
  obtain ⟨p, hp, hopened⟩ := openWrite_eq_ok hopen
  refine ⟨p, hp, resolve_of_sameShape (writeAt_sameShape hat)
    (resolve_of_sameShape hopened.sameShape hp), ?_⟩
  have hwritten {serial : Nat} {mode : Nat} (hsink : sink = .file serial)
      (hu : u.get? p = some (.file serial mode [])) :
      t'.get? p = some (.file serial mode data) := by
    subst hsink
    cases hat
    rw [get?_modifyFile, hu, Option.map_some, Node.modified, if_pos rfl, overwrite_start]
  cases hopened with
  | made hnone =>
    exact .inl ⟨_, _, hwritten rfl
      (get?_newFile_self t (ne_nil_of_get?_eq_none hnone) fileMode)⟩
  | @emptied serial mode _ hthere =>
    refine .inl ⟨serial, mode, hwritten rfl ?_⟩
    rw [get?_modifyFile, hthere, Option.map_some, Node.modified, if_pos rfl]
  | same hnode _ hfile hsink =>
    obtain ⟨serial, heq, -⟩ | ⟨-, rfl⟩ := writeAt_eq_ok hat
    · exact absurd heq (hsink serial)
    · exact .inr ⟨rfl, _, hnode, hfile⟩

/-- **What is to be seen** of a written file is what was written, also after something has been
taken away. -/
theorem eq_of_write {t t' u : Tree} {cwd : Place} {path : String} {data bytes : Bytes}
    (hcwd : IsReal cwd) (hwrite : t.write cwd path data = .ok t') (hretains : u.Retains t')
    (hshows : u.Shows cwd path bytes) : bytes = data := by
  obtain ⟨p, -, hp, hfile⟩ := get?_of_write hwrite
  obtain ⟨serial, mode, hstat⟩ := hshows
  obtain ⟨q, hq, hat⟩ := stat_eq_ok_iff.1 hstat
  have hq' := resolve_retained hretains hcwd hq (by simp [hat])
  obtain rfl : q = p := Except.ok.inj (hq'.symm.trans hp)
  have hat' := hretains q _ (isReal_of_resolve hcwd hq) hat
  rcases hfile with ⟨serial', mode', hfile⟩ | ⟨rfl, n, hn, hnot⟩
  · rw [hfile] at hat'
    cases hat'
    rfl
  · rw [hn] at hat'
    exact absurd (Option.some.inj hat') (hnot serial mode bytes)

end Files.Tree

/-- What was there before a directory was made is there while only that directory changes. -/
theorem Files.Tree.Site.retains {base t : Tree} {cwd ws : Place} {path : String}
    (hsite : base.Site cwd path ws) (hoff : ∀ q, IsReal q → ¬ ws <+: q → t.get? q = base.get? q) :
    base.Retains t := by
  intro q n hq hn
  rw [hoff q hq fun hbelow => ?_]
  · exact hn
  · rw [hsite.nothing hq hbelow] at hn
    cases hn

/-! ## Files that are taken in -/

namespace Intake

/-- Takes in the files of roles in their order. -/
def storeSources (source : Role → String) : List Role → Step Unit
  | [] => pure ()
  | role :: rest => do
    let _ ← storeFile role (source role)
    storeSources source rest

/-- **A file** that can be read is taken in as an upload in one piece. -/
theorem storeFile_eq {role : Role} {source : String} {data : Bytes} {i : Intake} {h : Host}
    (hread : h.files.read h.cwd source = .ok data) :
    storeFile role source (i, h) =
      (do take role ⟨Path.fileName? source, [data]⟩; return data.length : Step Nat) (i, h) := by
  obtain ⟨opened, hopen, hall⟩ := Tree.bind_eq_ok hread
  simp only [storeFile, hopen, hall]
  simp only [store, take, writeAll, bind_assoc, pure_bind]

namespace Session

/-- **Files** that can be read are taken in as fields are. -/
theorem storeSources_eq {base : Tree} {cwd ws : Place} {path : String}
    (hbase : base.IsSound) (hcwd : IsReal cwd) (hsite : base.Site cwd path ws)
    (hpath : Path.IsOpen path) {source : Role → String} {content : Role → Bytes}
    (hread : ∀ role, base.read cwd (source role) = .ok (content role)) (roles : List Role)
    {s : Session} (hkept : Kept base cwd ws path s) :
    storeSources source roles (s.intake, s.host) =
      Http.Upload.storeFields (roles.map fun role =>
        ⟨⟨some role.partName, Path.fileName? (source role)⟩, [content role]⟩)
        (s.intake, s.host) := by
  induction roles generalizing s with
  | nil => rfl
  | cons role rest ih =>
    have hretains := hsite.retains hkept.prepared.off
    have hreads := read_retained hretains hcwd hbase hkept.prepared.sound (hread role)
    rw [← hkept.cwd_eq] at hreads
    rw [storeSources, List.map_cons, Http.Upload.storeFields]
    have hfield : Http.Upload.storeField ⟨⟨some role.partName, Path.fileName? (source role)⟩,
        [content role]⟩ = take role ⟨Path.fileName? (source role), [content role]⟩ := by
      simp [Http.Upload.storeField, Http.Field.role?, Http.Upload.roleOf?, Role.ofPartName?_partName,
        Http.Field.supply]
    rw [hfield]
    rcases htake : take role ⟨Path.fileName? (source role), [content role]⟩ (s.intake, s.host) with
      ⟨u, i, h⟩ | ⟨e, t⟩
    · obtain ⟨s', _, hruns, rfl, rfl, -⟩ := runs_take htake
      rw [Service.bind_of_ok htake, ← ih (hkept.runs hsite hpath hruns)]
      refine Service.bind_of_ok (a := (content role).length) ?_
      rw [storeFile_eq hreads, Service.bind_of_ok htake]
      rfl
    · rw [Service.bind_of_error htake]
      refine Service.bind_of_error ?_
      rw [storeFile_eq hreads, Service.bind_of_error htake]

end Session

end Intake

/-- **The command line** takes files in like this, and says of which one it fails. -/
theorem CommandLine.storeFiles_cases (source : Role → String) (roles : List Role)
    (s : Intake × Host) :
    (∃ s', Intake.storeSources source roles s = .ok () s' ∧
      storeFiles source roles s = .ok () s') ∨
    ∃ role e s', Intake.storeSources source roles s = .error e s' ∧
      storeFiles source roles s = .error (.behind (unreadable role) e) s' := by
  induction roles generalizing s with
  | nil => exact .inl ⟨s, rfl, rfl⟩
  | cons role rest ih =>
    rcases hfile : Intake.storeFile role (source role) s with ⟨n, t⟩ | ⟨e, t⟩
    · have hsame : (Intake.storeFile role (source role)).adaptExcept
          (Failure.behind (unreadable role)) s = .ok n t := by
        simp only [EStateM.adaptExcept, hfile]
      rw [Intake.storeSources, storeFiles, Service.bind_of_ok hfile, Service.bind_of_ok hsame]
      exact ih t
    · have hsame : (Intake.storeFile role (source role)).adaptExcept
          (Failure.behind (unreadable role)) s = .error (.behind (unreadable role) e) t := by
        simp only [EStateM.adaptExcept, hfile]
      exact .inr ⟨role, e, t, Service.bind_of_error hfile, Service.bind_of_error hsame⟩

/-! ## Fields that carry files -/

/-- A file that is an input. -/
structure NamedFile where
  name : String
  content : Bytes

/-- What is sent for a role if its file is sent in one piece. -/
def NamedFile.supply (file : NamedFile) : Supply :=
  ⟨some file.name, [file.content]⟩

namespace Http.Upload

/-- Some fields carry one file for each role, in any order and in any pieces, and others may be among
them. -/
structure Carry (file : Role → NamedFile) (fields : List Field) : Prop where
  roles : (roles fields).Perm Role.all
  file : ∀ f ∈ fields, ∀ role, f.role? = some role →
    f.head.fileName = some (file role).name ∧ f.chunks.flatten = (file role).content

/-- The fields that files on the command line stand for. -/
theorem carry_sources {file : Role → NamedFile} {source : Role → String}
    (hname : ∀ role, Path.fileName? (source role) = some (file role).name) :
    Carry file (Role.all.map fun role =>
      ⟨⟨some role.partName, Path.fileName? (source role)⟩, [(file role).content]⟩) := by
  refine ⟨?_, fun f hf role hrole => ?_⟩
  · simp [Upload.roles, Field.role?, roleOf?, Role.ofPartName?_partName, Role.all]
  · obtain ⟨other, -, rfl⟩ := List.mem_map.1 hf
    simp only [Field.role?, roleOf?, Option.bind_some, Role.ofPartName?_partName,
      Option.some.injEq] at hrole
    subst hrole
    exact ⟨hname other, by simp⟩

section
variable {f : ToolFunction} {base : Tree} {cwd ws : Place} {path : String} {before : List Event}
  (hsite : base.Site cwd path ws) (hpath : Path.IsOpen path)
include hsite hpath

omit hsite hpath in
theorem ensures_writeAll (u : LangBundle.Upload) (pieces : List Bytes) :
    Ensures (fun s => TakesIn f base cwd ws path before s ∧ StaysInside ws s.2.files u.sink)
      (Intake.writeAll u pieces)
      (fun u s => TakesIn f base cwd ws path before s ∧ StaysInside ws s.2.files u.sink)
      (TakesIn f base cwd ws path before) := by
  induction pieces generalizing u with
  | nil => exact .pure fun _ h => h
  | cons piece rest ih => exact (ensures_write u piece).bind fun u => ih u

/-- **Storing fields** writes into the workspace. -/
theorem ensures_storeFields (fields : List Field) :
    Ensures (TakesIn f base cwd ws path before) (storeFields fields)
      (fun _ => TakesIn f base cwd ws path before) (TakesIn f base cwd ws path before) := by
  induction fields with
  | nil => exact .pure fun _ h => h
  | cons field rest ih =>
    refine .bind (Q := fun _ => TakesIn f base cwd ws path before) ?_ fun _ => ih
    unfold storeField
    split
    · exact .pure fun _ h => h
    · refine (ensures_begin hsite hpath _ _).bind fun u => ?_
      refine (ensures_writeAll u _).bind fun u => ?_
      exact (ensures_commit u).imp (fun _ h => h.1) (fun _ _ h => h) fun _ h => h

end

end Http.Upload

/-! ## Jobs -/

open Http (Field Response)

/-- How a build is asked for. -/
inductive Order where
  /-- With five files, on the command line. -/
  | files (source : Role → String) (output : String)
  /-- With a request, at a server with a limit on bodies. -/
  | request (maxBody : Nat) (r : Http.Request)
  /-- With an upload whose parts arrive in pieces. -/
  | arriving (fields : List Field)

namespace Order

/-- Takes in the inputs. -/
def take : Order → Intake.Step Unit
  | .files source _ => Intake.storeSources source Role.all
  | .request _ r => match Http.Server.boundary? r with
    | none => pure ()
    | some boundary => Http.Upload.storeParts (Http.Multipart.read boundary r.body).1
  | .arriving fields => Http.Upload.storeFields fields

theorem take_files (source : Role → String) (output : String) :
    (files source output).take = Intake.storeSources source Role.all :=
  rfl

theorem take_arriving (fields : List Field) :
    (arriving fields).take = Http.Upload.storeFields fields :=
  rfl

/-- An order carries one file for each role.  The body of a request is within the limit, and it ends
well. -/
def Carries (file : Role → NamedFile) (h : Host) : Order → Prop
  | .files source _ => ∀ role, Path.fileName? (source role) = some (file role).name ∧
      h.files.read h.cwd (source role) = .ok (file role).content
  | .request maxBody r => r.body.length ≤ maxBody ∧ r.broken = false ∧
      (∀ size, Http.Server.declaredSize? r = some size → size ≤ maxBody) ∧
      ∃ boundary parts, Http.Server.boundary? r = some boundary ∧
        Http.Multipart.read boundary r.body = (parts, none) ∧
        Http.Upload.Carry file (parts.map .whole)
  | .arriving fields => Http.Upload.Carry file fields

/-- **What is taken in** is what some fields carry. -/
theorem Carries.exists_fields {o : Order} {file : Role → NamedFile} {h : Host}
    (hcarries : o.Carries file h) (hsound : h.files.IsSound) (hcwd : IsReal h.cwd)
    {p : Pipeline} {w : Workspace} {h₀ : Host} (hacquire : p.acquireWorkspace h = .ok w h₀) :
    ∃ fields, Http.Upload.Carry file fields ∧
      o.take ({ workspace := w.path }, h₀) =
        Http.Upload.storeFields fields ({ workspace := w.path }, h₀) := by
  cases o with
  | files source output =>
    obtain ⟨hpath, ws, hsite, hkept⟩ :=
      Intake.Session.kept_of_acquireWorkspace hsound hcwd hacquire
    have hstore := Intake.Session.storeSources_eq hsound hcwd hsite hpath
      (fun role => (hcarries role).2) Role.all hkept
    exact ⟨_, Http.Upload.carry_sources fun role => (hcarries role).1, hstore⟩
  | request maxBody r =>
    obtain ⟨-, -, -, boundary, parts, hboundary, hread, hcarry⟩ := hcarries
    refine ⟨_, hcarry, ?_⟩
    simp only [take, hboundary, hread, Http.Upload.storeParts_eq]
  | arriving fields =>
    refine ⟨fields, hcarries, ?_⟩
    rw [take_arriving]

end Order

/-- Takes inputs into a workspace and builds them; gives the path of the bundle. -/
def Pipeline.produce (p : Pipeline) (take : Intake.Step Unit) (w : Workspace) : Service String :=
  fun h => match take ({ workspace := w.path }, h) with
    | .error e (_, h) => .error e h
    | .ok () (i, h) => match i.finish with
      | .error e => .error e h
      | .ok inputs => p.build w.path inputs h

/-- What a server does with an upload whose parts arrive in pieces. -/
def Http.Server.compileFields (p : Pipeline) (fields : List Field) (h : Host) :
    Except Http.Error Response × Host :=
  match p.acquireWorkspace h with
  | .error e h => (.error (.build e), h)
  | .ok w h =>
    match p.produce (Http.Upload.storeFields fields) w h with
    | .error e h => (.error (.build e), w.drop h)
    | .ok bundle h => Http.Server.deliver bundle w h

/-- An order that is given to a pipeline on a host. -/
structure Job where
  pipeline : Pipeline
  host : Host
  order : Order

namespace Job

/-- The path of the workspace in which a job is done. -/
def path (j : Job) : String :=
  j.pipeline.nextWorkspace j.host

/-- The bundle of an order is handed over without a fault. -/
def HandsOver (bundle : String) (h : Host) : Order → Prop
  | .files _ output => ∀ fault, CommandLine.copyFile bundle output h ≠ .error fault
  | .request .. | .arriving _ => ∀ fault, h.files.read h.cwd bundle ≠ .error fault

/-- No file operation of its own fails while a job is done. -/
structure Quiet (j : Job) : Prop where
  acquires : ∀ e h', j.pipeline.acquireWorkspace j.host ≠ .error e h'
  produces : ∀ w h₀ place detail h₂, j.pipeline.acquireWorkspace j.host = .ok w h₀ →
    j.pipeline.produce j.order.take w h₀ ≠ .error (.io place detail) h₂
  handsOver : ∀ w h₀ bundle h₂, j.pipeline.acquireWorkspace j.host = .ok w h₀ →
    j.pipeline.produce j.order.take w h₀ = .ok bundle h₂ → HandsOver bundle h₂ j.order

/-- A copy of some bytes is at `output` once the workspace has been removed. -/
structure Copied (w : Workspace) (output : String) (data : Bytes) (h h' : Host) : Prop where
  written : ∃ t, h.files.write h.cwd output data = .ok t ∧ h' = w.drop { h with files := t }
  /-- It stays unless it was written into the workspace, or to something that is no file. -/
  stays : ∀ p, h.files.resolve h.cwd output = .ok p →
    (∀ n, h.files.get? p = some n → ∃ serial mode bytes, n = .file serial mode bytes) →
    (∀ ws, h.files.resolve h.cwd w.path false = .ok ws → ¬ ws <+: p) →
    ∃ serial mode, h'.files.get? p = some (.file serial mode data)
  /-- Nothing else is to be seen there. -/
  shows : ∀ bytes, h'.files.Shows h'.cwd output bytes → bytes = data

/-- What the pipeline comes to: an error, or a bundle that holds some bytes. -/
def Comes (p : Pipeline) (w : Workspace) (h : Host) (take : Intake.Step Unit) :
    Except BuildError Bytes → Prop
  | .error e => ∃ h', p.produce take w h = .error e h'
  | .ok data => ∃ bundle h', p.produce take w h = .ok bundle h' ∧
      h'.files.read h'.cwd bundle = .ok data

/-- What the caller is told, or gets. -/
def Tells (p : Pipeline) (h : Host) : Order → Except BuildError Bytes → Prop
  | .files source output, .error e => ∃ h',
      CommandLine.build p source output h = (.error (.ofBuild e), h')
  | .files source output, .ok data => ∃ w h₁ h', Copied w output data h₁ h' ∧
      CommandLine.build p source output h = (.ok (), h')
  | .request maxBody r, .error e => ∃ h',
      Http.Server.compile ⟨p, maxBody⟩ r h = ((Http.Error.build e).toResponse, h')
  | .request maxBody r, .ok data => ∃ response h',
      Http.Server.compile ⟨p, maxBody⟩ r h = (response, h') ∧
        response.status = 200 ∧ response.body.readAll h' = .ok data
  | .arriving fields, .error e => ∃ h',
      Http.Server.compileFields p fields h = (.error (.build e), h')
  | .arriving fields, .ok data => ∃ response h',
      Http.Server.compileFields p fields h = (.ok response, h') ∧
        response.status = 200 ∧ response.body.readAll h' = .ok data

/-- How a job ends. -/
structure Ends (j : Job) (result : Except BuildError Bytes) : Prop where
  comes : ∃ w h₀, j.pipeline.acquireWorkspace j.host = .ok w h₀ ∧
    Comes j.pipeline w h₀ j.order.take result
  tells : Tells j.pipeline j.host j.order result

/-- Two jobs come to the same: to the same bundle, or to the same error but for the path of the
workspace. -/
def SameEnd (path path' : String) : Except BuildError Bytes → Except BuildError Bytes → Prop
  | .ok data, .ok data' => data' = data
  | .error e, .error e' => e.SameBut path path' e'
  | _, _ => False

/-- **A copy** of what was read. -/
theorem copied_of_copyFile {w : Workspace} {bundle output : String} {data : Bytes} {h h' : Host}
    (hcwd : IsReal h.cwd) (hread : h.files.read h.cwd bundle = .ok data)
    (hcopy : CommandLine.copyFile bundle output h = .ok h') :
    Copied w output data h (w.drop h') := by
  obtain ⟨bytes, hread', hrest⟩ := Tree.bind_eq_ok hcopy
  obtain rfl := Except.ok.inj (hread'.symm.trans hread)
  obtain ⟨t, hwrite, heq⟩ := Tree.bind_eq_ok hrest
  cases heq
  have hdrop : (w.drop { h with files := t }).cwd = h.cwd ∧
      ((w.drop { h with files := t }).files = t ∨
        (w.drop { h with files := t }).files = (t.removeDirectoryTree h.cwd w.path).2) := by
    rcases hreleased : w.released
    · obtain ⟨-, hfiles, hcwd', -⟩ := Estate.release_of_live (h := { h with files := t }) hreleased
      exact ⟨hcwd', .inr hfiles⟩
    · rw [Workspace.drop, Estate.release_of_released hreleased]
      exact ⟨rfl, .inl rfl⟩
  obtain ⟨hcwd', hfiles⟩ := hdrop
  refine ⟨⟨t, hwrite, rfl⟩, fun p hp hfile hout => ?_, fun bytes hshows => ?_⟩
  · obtain ⟨q, hq, -, hat⟩ := get?_of_write hwrite
    obtain rfl : q = p := Except.ok.inj (hq.symm.trans hp)
    rcases hat with ⟨serial, mode, hat⟩ | ⟨-, n, hn, hnot⟩
    · refine ⟨serial, mode, ?_⟩
      rcases hfiles with hfiles | hfiles
      · rw [hfiles, hat]
      · rw [hfiles]
        rcases hleads : t.resolve h.cwd w.path false with fault | ws
        · rw [removeDirectoryTree, hleads, hat]
        · have hws := hout ws (resolve_of_sameShape (sameShape_of_write hwrite).symm hleads)
          have hroot : ws ≠ [] := by
            rintro rfl
            exact hws List.nil_prefix
          rw [removeDirectoryTree_off hleads hroot hws, hat]
    · obtain ⟨serial, mode, bytes, rfl⟩ := hfile n hn
      exact absurd rfl (hnot serial mode bytes)
  · rw [hcwd'] at hshows
    refine eq_of_write hcwd hwrite ?_ hshows
    rcases hfiles with hfiles | hfiles
    · rw [hfiles]
      exact .refl t
    · rw [hfiles]
      exact retains_removeDirectoryTree t h.cwd w.path

/-- **A bundle that is delivered** is what the body of the response holds. -/
theorem deliver_of_read {w : Workspace} {bundle : String} {data : Bytes} {h : Host}
    (hread : h.files.read h.cwd bundle = .ok data) :
    ∃ response, Http.Server.deliver bundle w h = (.ok response, h) ∧ response.status = 200 ∧
      response.body.readAll h = .ok data := by
  obtain ⟨source, hopen, hall⟩ := Tree.bind_eq_ok hread
  rw [Http.Server.deliver, hopen]
  refine ⟨_, rfl, rfl, ?_⟩
  simp only [Http.Body.readAll, hall, Except.map, List.drop_zero]

section
variable {j : Job} {file : Role → NamedFile} {w : Workspace} {h₀ h₁ h₂ : Host} {i : Intake}
  {inputs : Inputs} (htake : j.order.take ({ workspace := w.path }, h₀) = .ok () (i, h₁))
  (hfinish : i.finish = .ok inputs)
include htake hfinish

theorem produce_eq : j.pipeline.produce j.order.take w h₀ = j.pipeline.build w.path inputs h₁ := by
  simp only [Pipeline.produce, htake, hfinish]


/-- **On the command line** the inputs are built. -/
theorem buildFiles_of_take {source : Role → String} {output : String}
    (horder : j.order = .files source output) :
    CommandLine.buildFiles j.pipeline source w h₀ =
      match j.pipeline.build w.path inputs h₁ with
      | .error e h => (.error (.ofBuild e), h)
      | .ok bundle h => (.ok bundle, h) := by
  rw [horder, Order.take_files] at htake
  obtain ⟨s, hstore, hfiles⟩ | ⟨role, e, s, hstore, -⟩ :=
    CommandLine.storeFiles_cases source Role.all ({ workspace := w.path }, h₀)
  · rw [htake] at hstore
    cases hstore
    rcases hbuild : j.pipeline.build w.path inputs h₁ with ⟨bundle, h⟩ | ⟨e, h⟩
    · simp only [CommandLine.buildFiles, hfiles, hfinish, hbuild]
    · simp only [CommandLine.buildFiles, hfiles, hfinish, hbuild]
  · rw [htake] at hstore
    cases hstore

variable (hacquire : j.pipeline.acquireWorkspace j.host = .ok w h₀)
include hacquire

/-- **At a server** they are built, too. -/
theorem compile_of_take {maxBody : Nat} {r : Http.Request} (horder : j.order = .request maxBody r)
    (hcarries : j.order.Carries file j.host) :
    ∃ boundary, Http.Server.boundary? r = some boundary ∧
      Http.Server.compileUpload ⟨j.pipeline, maxBody⟩ r boundary j.host =
        match j.pipeline.build w.path inputs h₁ with
        | .ok bundle h => Http.Server.deliver bundle w h
        | .error e h => (.error (.build e), w.drop h) := by
  rw [horder] at htake hcarries
  obtain ⟨hsize, hbroken, hdeclared, boundary, parts, hboundary, hread, hcarry⟩ := hcarries
  simp only [Order.take, hboundary, hread] at htake
  have hready : Http.Server.Ready ⟨j.pipeline, maxBody⟩ r boundary j.host w inputs h₁ :=
    ⟨hdeclared, h₀, parts, i, hacquire, hsize, hbroken, hread, hcarry.roles, htake, hfinish⟩
  refine ⟨boundary, hboundary, (Http.Server.compileUpload_of_ready hready).trans ?_⟩
  rcases j.pipeline.build w.path inputs h₁ with ⟨bundle, h⟩ | ⟨e, h⟩
  · rfl
  · rfl

/-- And so are those of an upload whose parts arrive in pieces. -/
theorem compileFields_of_take {fields : List Field} (horder : j.order = .arriving fields) :
    Http.Server.compileFields j.pipeline fields j.host =
      match j.pipeline.build w.path inputs h₁ with
      | .ok bundle h => Http.Server.deliver bundle w h
      | .error e h => (.error (.build e), w.drop h) := by
  have hproduce := produce_eq htake hfinish
  rw [horder, Order.take_arriving] at hproduce
  unfold Http.Server.compileFields
  rw [hacquire]
  dsimp only
  rw [hproduce]
  rcases j.pipeline.build w.path inputs h₁ with ⟨bundle, h⟩ | ⟨e, h⟩
  · rfl
  · rfl

variable (hcarries : j.order.Carries file j.host)
include hcarries

/-- **A job whose build fails** ends with the error. -/
theorem ends_of_error {e : BuildError} (hbuild : j.pipeline.build w.path inputs h₁ = .error e h₂) :
    j.Ends (.error e) := by
  have hcomes : Comes j.pipeline w h₀ j.order.take (.error e) :=
    ⟨h₂, (produce_eq htake hfinish).trans hbuild⟩
  refine ⟨⟨w, h₀, hacquire, hcomes⟩, ?_⟩
  rcases horder : j.order with ⟨source, output⟩ | ⟨maxBody, r⟩ | fields
  · have hfiles := buildFiles_of_take htake hfinish horder
    rw [hbuild] at hfiles
    refine ⟨w.drop h₂, ?_⟩
    unfold CommandLine.build
    rw [hacquire]
    dsimp only
    rw [hfiles]
  · obtain ⟨boundary, hboundary, hcompile⟩ :=
      compile_of_take htake hfinish hacquire horder hcarries
    rw [hbuild] at hcompile
    refine ⟨w.drop h₂, ?_⟩
    unfold Http.Server.compile
    rw [hboundary]
    dsimp only
    rw [hcompile]
  · refine ⟨w.drop h₂, ?_⟩
    rw [compileFields_of_take htake hfinish hacquire horder, hbuild]

/-- **A job whose bundle is made** and handed over ends with it. -/
theorem ends_of_ok {bundle : String} {data : Bytes}
    (hbuild : j.pipeline.build w.path inputs h₁ = .ok bundle h₂) (hcwd : IsReal h₂.cwd)
    (hread : h₂.files.read h₂.cwd bundle = .ok data) (hhands : HandsOver bundle h₂ j.order) :
    j.Ends (.ok data) := by
  have hcomes : Comes j.pipeline w h₀ j.order.take (.ok data) :=
    ⟨bundle, h₂, (produce_eq htake hfinish).trans hbuild, hread⟩
  refine ⟨⟨w, h₀, hacquire, hcomes⟩, ?_⟩
  obtain ⟨response, hdeliver, hstatus, hbody⟩ := deliver_of_read (w := w) hread
  rcases horder : j.order with ⟨source, output⟩ | ⟨maxBody, r⟩ | fields
  · rw [horder] at hhands
    rcases hcopy : CommandLine.copyFile bundle output h₂ with fault | h₃
    · exact absurd hcopy (hhands fault)
    · have hfiles := buildFiles_of_take htake hfinish horder
      rw [hbuild] at hfiles
      refine ⟨w, h₂, w.drop h₃, copied_of_copyFile hcwd hread hcopy, ?_⟩
      unfold CommandLine.build
      rw [hacquire]
      dsimp only
      rw [hfiles]
      dsimp only
      rw [hcopy]
  · obtain ⟨boundary, hboundary, hcompile⟩ :=
      compile_of_take htake hfinish hacquire horder hcarries
    rw [hbuild] at hcompile
    refine ⟨response, h₂, ?_, hstatus, hbody⟩
    unfold Http.Server.compile
    rw [hboundary]
    dsimp only
    rw [hcompile]
    dsimp only
    rw [hdeliver]
  · refine ⟨response, h₂, ?_, hstatus, hbody⟩
    rw [compileFields_of_take htake hfinish hacquire horder, hbuild]
    exact hdeliver

end

/-- A job that carries some files, with a function as its tools, on a host that is in order; none of
its own file operations fails. -/
structure Sound (f : ToolFunction) (file : Role → NamedFile) (j : Job) : Prop where
  carries : j.order.Carries file j.host
  calls : j.host.CallsOnly f
  files : j.host.files.IsSound
  cwd : IsReal j.host.cwd
  quiet : j.Quiet

/-- A berth where a job has its workspace. -/
structure Uses (j : Job) (b : Berth) : Prop where
  cwd : b.cwd = j.host.cwd
  path : b.path = j.path
  site : j.host.files.Site b.cwd b.path b.ws

/-- The inputs of a job have been stored. -/
structure Stored (file : Role → NamedFile) (j : Job) (b : Berth) (t : Tree) : Prop where
  prepared : Prepared b.ws j.host.files t
  stocked : Stocked b.ws (fun role => (file role).supply)
    (fun role => some (file role).supply.data) t

/-- **The inputs** of a job are stored if no file operation fails. -/
theorem stored_of_quiet {f : ToolFunction} {file : Role → NamedFile} {j : Job}
    (hcarries : j.order.Carries file j.host) (hcalls : j.host.CallsOnly f)
    (hsound : j.host.files.IsSound) (hcwd : IsReal j.host.cwd) {w : Workspace} {h₀ : Host}
    (hacquire : j.pipeline.acquireWorkspace j.host = .ok w h₀)
    (hquiet : ∀ place detail s,
      j.order.take ({ workspace := w.path }, h₀) ≠ .error (.io place detail) s) :
    ∃ i h₁ ws, j.order.take ({ workspace := w.path }, h₀) = .ok () (i, h₁) ∧
      i.finish = .ok (.ofSupplies w.path fun role => (file role).supply) ∧
      w.path = j.path ∧ Path.IsOpen w.path ∧ h₁.CallsOnly f ∧ h₁.cwd = j.host.cwd ∧
      j.Uses ⟨j.host.cwd, w.path, ws⟩ ∧ j.Stored file ⟨j.host.cwd, w.path, ws⟩ h₁.files := by
  obtain ⟨hpath, ws, hsite, hstart⟩ :=
    Intake.Session.kept_of_acquireWorkspace hsound hcwd hacquire
  obtain ⟨⟨hw, -⟩, -, ws', hsite', hworks, hprepared⟩ :=
    acquireWorkspace_eq_ok hcalls hsound hcwd hacquire
  obtain rfl : ws' = ws := Except.ok.inj (hsite'.leads.symm.trans hsite.leads)
  obtain ⟨fields, hcarry, htake⟩ := hcarries.exists_fields hsound hcwd hacquire
  have hnodup : (Http.Upload.roles fields).Nodup := hcarry.roles.nodup_iff.2 Role.nodup_all
  rw [htake] at hquiet ⊢
  obtain ⟨i, h₁, hok, -⟩ := Http.Upload.storeFields_ok hquiet hnodup
  obtain ⟨s, hruns, rfl, rfl, hall, -⟩ := Http.Upload.runs_storeFields
    (s := { intake := { workspace := w.path }, host := h₀ }) (fun _ _ => rfl) hnodup hok
  have hkept := hstart.runs hsite hpath hruns
  have hsent (role : Role) : (s.supply role).declared = (file role).supply.declared ∧
      (s.supply role).data = (file role).supply.data ∧ .recorded role ∈ s.log := by
    have hmem : role ∈ Http.Upload.roles fields := hcarry.roles.mem_iff.2 role.mem_all
    obtain ⟨field, hfield, hrole⟩ := List.mem_filterMap.1 hmem
    obtain ⟨hsupply, hrecorded⟩ := hall field hfield role hrole
    obtain ⟨hname, hcontent⟩ := hcarry.file field hfield role hrole
    rw [hsupply]
    exact ⟨hname, by simpa [Supply.data, Field.supply, NamedFile.supply] using hcontent, hrecorded⟩
  have hinput (role : Role) :
      (s.supply role).input w.path role = (file role).supply.input w.path role := by
    simp only [Supply.input, Supply.entryName, hsent role]
  have htakes := (Http.Upload.ensures_storeFields (f := f) hsite hpath fields).of_ok
    ⟨rfl, hworks, hprepared⟩ hok
  refine ⟨s.intake, s.host, ws', hok, Intake.finish_of_stored fun role => ?_,
    hw, hpath, htakes.works.calls, hkept.cwd_eq, ⟨rfl, hw, hsite⟩, hkept.prepared, ?_⟩
  · rcases hstored : s.intake.stored? role with _ | input
    · exact absurd (hsent role).2.2 ((hkept.stored_iff role).1 hstored)
    · obtain ⟨rfl, -⟩ := hkept.offers hsite hpath hstored
      rw [hinput role]
  · have hstocked := hkept.stocked_all hsite.isReal fun role => (hsent role).2.2
    have hdata : (fun role => some (s.supply role).data) =
        fun role => some (file role).supply.data := by
      funext role
      rw [(hsent role).2.1]
    rw [hdata] at hstocked
    refine hstocked.congr fun role _ => ?_
    simp only [storedNames, Supply.entryName, (hsent role).1]

theorem Sound.stored {f : ToolFunction} {file : Role → NamedFile} {j : Job}
    (hj : j.Sound f file) : ∃ w h₀ i h₁ ws,
      j.pipeline.acquireWorkspace j.host = .ok w h₀ ∧
      j.order.take ({ workspace := w.path }, h₀) = .ok () (i, h₁) ∧
      i.finish = .ok (.ofSupplies w.path fun role => (file role).supply) ∧
      w.path = j.path ∧ Path.IsOpen w.path ∧ h₁.CallsOnly f ∧ h₁.cwd = j.host.cwd ∧
      j.Uses ⟨j.host.cwd, w.path, ws⟩ ∧ j.Stored file ⟨j.host.cwd, w.path, ws⟩ h₁.files := by
  rcases hacquire : j.pipeline.acquireWorkspace j.host with ⟨w, h₀⟩ | ⟨e, h'⟩
  · obtain ⟨i, h₁, ws, hrest⟩ := stored_of_quiet hj.carries hj.calls hj.files hj.cwd hacquire (by
      rintro place detail ⟨i, h'⟩ hfailed
      refine hj.quiet.produces w h₀ place detail h' hacquire ?_
      rw [Pipeline.produce, hfailed])
    exact ⟨w, h₀, i, h₁, ws, rfl, hrest⟩
  · exact absurd hacquire (hj.quiet.acquires e h')

/-- The tools do the same for two jobs, wherever their workspaces are: some relation of trees holds
once the inputs have been stored, the tools keep it, and as long as it holds the workspaces hold the
same, and the tools end alike. -/
def IgnorePlaces (f : ToolFunction) (file : Role → NamedFile) (j j' : Job) : Prop :=
  ∀ b b', j.Uses b → j'.Uses b' → ∃ R,
    KeepsBeside f True j.pipeline.tools (fun role => (file role).supply) b b' R ∧
      ∀ t t', j.Stored file b t → j'.Stored file b' t' → R t t'

/-- A bundle that is handed over can be read. -/
theorem HandsOver.read {bundle : String} {h : Host} {o : Order} (hhands : HandsOver bundle h o) :
    ∃ data, h.files.read h.cwd bundle = .ok data := by
  rcases hread : h.files.read h.cwd bundle with fault | data
  · cases o with
    | files source output =>
      refine absurd ?_ (hhands fault)
      rw [CommandLine.copyFile, hread]
      rfl
    | request maxBody r => exact absurd hread (hhands fault)
    | arriving fields => exact absurd hread (hhands fault)
  · exact ⟨data, rfl⟩

/-- **Bundles** in workspaces that hold the same hold the same. -/
theorem read_alike {slack : Prop} {b b' : Berth} {names : List (List String)} {t t' : Tree}
    (hbeside : Beside slack b b' names t t') (hpath : Path.IsOpen b.path)
    (hpath' : Path.IsOpen b'.path) (hnames : ∀ n ∈ names, Path.LeadDown n) {n : List String}
    (hn : n ∈ names) {data data' : Bytes}
    (hread : t.read b.cwd (Path.below b.path n) = .ok data)
    (hread' : t'.read b'.cwd (Path.below b'.path n) = .ok data') : data' = data := by
  obtain ⟨source, hopen, hall⟩ := Tree.bind_eq_ok hread
  obtain ⟨source', hopen', hall'⟩ := Tree.bind_eq_ok hread'
  have halike := hbeside.twins.openRead (hbeside.resolve hpath hpath' hnames hn)
  rw [hopen, hopen'] at halike
  obtain ⟨_, _, hsource, hsource', hsources⟩ | ⟨fault, hfault, -⟩ |
    ⟨-, ⟨fault, hfault, -⟩ | ⟨fault, hfault, -⟩⟩ := halike
  · cases hsource
    cases hsource'
    rw [hsources.readAll hbeside.sound hbeside.sound', hall'] at hall
    exact Except.ok.inj hall
  · cases hfault
  · cases hfault
  · cases hfault

/-- **Two sound jobs with the same files**, each in any of the three ways, come to the same if the
tools do the same wherever the workspaces are. -/
theorem sameEnd_of_sound {f : ToolFunction} {file : Role → NamedFile} {j j' : Job}
    (hj : j.Sound f file) (hj' : j'.Sound f file)
    (htools : j'.pipeline.tools = j.pipeline.tools) (hignore : IgnorePlaces f file j j') :
    ∃ result result', j.Ends result ∧ j'.Ends result' ∧ SameEnd j.path j'.path result result' := by
  obtain ⟨w, h₀, i, h₁, ws, hacquire, htake, hfinish, hw, hpath, hcalls, hcwd, huses, hstored⟩ :=
    hj.stored
  obtain ⟨w', h₀', i', h₁', ws', hacquire', htake', hfinish', hw', hpath', hcalls', hcwd', huses',
    hstored'⟩ := hj'.stored
  obtain ⟨R, hkeeps, hstart⟩ := hignore _ _ huses huses'
  have hpaired : Paired f ⟨j.host.cwd, w.path, ws⟩ ⟨j'.host.cwd, w'.path, ws'⟩ R h₁ h₁' :=
    ⟨hcalls, hcalls', hcwd, hcwd', hstart _ _ hstored hstored'⟩
  obtain ⟨bundle, bundle', h₂, h₂', hbuild, hbuild', hbeside, rfl, rfl⟩ |
    ⟨e, e', h₂, h₂', hbuild, hbuild', hsame⟩ |
    ⟨-, ⟨place, detail, h₂, hbuild⟩ | ⟨place, detail, h₂', hbuild'⟩⟩ :=
    (couples_build hpath hpath' hj.cwd hj'.cwd htools hkeeps).ends h₁ h₁' hpaired
  · have hhands := hj.quiet.handsOver w h₀ _ h₂ hacquire
      ((produce_eq htake hfinish).trans hbuild)
    have hhands' := hj'.quiet.handsOver w' h₀' _ h₂' hacquire'
      ((produce_eq htake' hfinish').trans hbuild')
    obtain ⟨data, hread⟩ := hhands.read
    obtain ⟨data', hread'⟩ := hhands'.read
    refine ⟨.ok data, .ok data',
      ends_of_ok htake hfinish hacquire hj.carries hbuild (hbeside.cwd ▸ hj.cwd) hread hhands,
      ends_of_ok htake' hfinish' hacquire' hj'.carries hbuild' (hbeside.cwd' ▸ hj'.cwd) hread'
        hhands', ?_⟩
    rw [hbeside.cwd] at hread
    rw [hbeside.cwd'] at hread'
    exact read_alike hbeside.files hpath hpath' (fun _ => leadDown_of_mem_lookedAt)
      (archive_mem_lookedAt (by simp [archiveNames])) hread hread'
  · refine ⟨.error e, .error e', ends_of_error htake hfinish hacquire hj.carries hbuild,
      ends_of_error htake' hfinish' hacquire' hj'.carries hbuild', ?_⟩
    rw [← hw, ← hw']
    exact hsame
  · exact absurd ((produce_eq htake hfinish).trans hbuild)
      (hj.quiet.produces w h₀ place detail h₂ hacquire)
  · exact absurd ((produce_eq htake' hfinish').trans hbuild')
      (hj'.quiet.produces w' h₀' place detail h₂' hacquire')

/-! ## Tools that write files -/

/-- A job for tools that write some files: nothing is in the way of any file. -/
structure SuitsWriter (files : List (String × Bytes)) (file : Role → NamedFile) (j : Job) : Prop where
  carries : j.order.Carries file j.host
  calls : j.host.CallsOnly (writer fun _ => files)
  sound : j.host.files.IsSound
  cwd : IsReal j.host.cwd
  site : ∃ ws, j.host.files.Site j.host.cwd j.path ws
  room : Path.HasRoom j.path 30
  normal : Path.normal j.path = j.path
  suits : SuitsBuild j.path (fun role => (file role).supply) files
  limit : Deed.turnaround 0 < j.pipeline.tools.stageTimeout * 1000
  /-- The copy can be written as long as nothing changes outside the workspace. -/
  output : ∀ source output, j.order = .files source output → ∀ ws t data,
    j.host.files.Site j.host.cwd j.path ws → Tidy ws j.host.files t →
      ∃ t', t.write j.host.cwd output data = .ok t'

section
variable {files : List (String × Bytes)} {file : Role → NamedFile} {j j' : Job}

/-- **Such a job** is sound. -/
theorem SuitsWriter.isSound (hj : j.SuitsWriter files file) :
    j.Sound (writer fun _ => files) file := by
  refine ⟨hj.carries, hj.calls, hj.sound, hj.cwd, ?_⟩
  obtain ⟨ws, hsite⟩ := hj.site
  obtain ⟨w, h₀, hacquire⟩ := acquireWorkspace_ok hsite
  have hw : w.path = j.path :=
    (acquireWorkspace_eq_ok hj.calls hj.sound hj.cwd hacquire).1.1
  have hroom : Path.HasRoom w.path 30 := hw ▸ hj.room
  obtain ⟨fields, -, htake⟩ := hj.carries.exists_fields hj.sound hj.cwd hacquire
  obtain ⟨i, h₁, ws, htaken, hfinish, -, hpath, hcalls, hcwd, huses, hstored⟩ :=
    stored_of_quiet hj.carries hj.calls hj.sound hj.cwd hacquire (by
      rw [htake]
      exact Http.Upload.quiet_of_hasRoom hj.sound hj.cwd hacquire hroom (hw ▸ hj.normal) fields)
  have hsuits : SuitsBuild w.path (fun role => (file role).supply) files := hw ▸ hj.suits
  have hsite : j.host.files.Site j.host.cwd w.path ws := huses.site
  have hready := hstored.stocked.readyFor hsite hpath hsuits hstored.prepared.tidy hroom
  obtain ⟨h₂, data, hbuild, hcwd₂, htidy, hoffers⟩ :=
    hready.build_ok hsite hpath hsuits hcalls hcwd hj.limit
  have hproduce := (produce_eq htaken hfinish).trans hbuild
  obtain ⟨source, hopen, hall⟩ := hoffers.read_ok htidy.sound
  have hread : h₂.files.read h₂.cwd (Path.join w.path Bundle.resultArchive) = .ok data := by
    rw [hcwd₂, Tree.read, hopen]
    exact hall
  refine ⟨fun e h' hfailed => ?_, fun v g place detail h' hacquire' hfailed => ?_,
    fun v g bundle h' hacquire' hproduce' => ?_⟩
  · rw [hacquire] at hfailed
    cases hfailed
  · rw [hacquire] at hacquire'
    cases hacquire'
    rw [hproduce] at hfailed
    cases hfailed
  · rw [hacquire] at hacquire'
    cases hacquire'
    rw [hproduce] at hproduce'
    cases hproduce'
    rcases horder : j.order with ⟨source, output⟩ | ⟨maxBody, r⟩ | fields
    · intro fault hfailed
      obtain ⟨t, hwrite⟩ := hj.output source output horder ws h₂.files data
        (hw ▸ hsite) htidy
      rw [← hcwd₂] at hwrite
      rw [CommandLine.copyFile, hread] at hfailed
      simp only [bind, Except.bind, hwrite] at hfailed
      cases hfailed
    · intro fault hfailed
      rw [hread] at hfailed
      cases hfailed
    · intro fault hfailed
      rw [hread] at hfailed
      cases hfailed

/-- **Such tools** do the same wherever the workspaces are. -/
theorem SuitsWriter.ignorePlaces (hj : j.SuitsWriter files file) (hj' : j'.SuitsWriter files file)
    (hfiles : ∀ written ∈ files, [written.1] ∈ lookedAt fun role => (file role).supply) :
    IgnorePlaces (writer fun _ => files) file j j' := by
  intro b b' huses huses'
  have hsuits : SuitsBuild b.path (fun role => (file role).supply) files := huses.path ▸ hj.suits
  have hsuits' : SuitsBuild b'.path (fun role => (file role).supply) files :=
    huses'.path ▸ hj'.suits
  have hroom : Path.HasRoom b.path 30 := huses.path ▸ hj.room
  have hroom' : Path.HasRoom b'.path 30 := huses'.path ▸ hj'.room
  refine ⟨_, keepsBeside_writer huses.site huses'.site hroom.toIsOpen hroom'.toIsOpen hsuits hsuits'
    hfiles hj.limit, fun t t' hstored hstored' => ⟨?_, ?_, ?_⟩⟩
  · exact beside_of_stocked huses.site huses'.site hstored.prepared hstored'.prepared
      hstored.stocked hstored'.stocked fun _ => leadDown_of_mem_lookedAt
  · exact hstored.stocked.readyFor huses.site hroom.toIsOpen hsuits hstored.prepared.tidy hroom
  · exact hstored'.stocked.readyFor huses'.site hroom'.toIsOpen hsuits' hstored'.prepared.tidy
      hroom'

end

/-! ## A build from files and one from an upload -/

/-- Five files that are alike. -/
def preciousFile (_ : Role) : NamedFile :=
  ⟨"precious", [7]⟩

/-- A part of an upload with such a file. -/
def sentPart (name : String) : Bytes :=
  Utf8.ofString ("--x\r\nContent-Disposition: form-data; name=\"" ++ name ++
    "\"; filename=\"precious\"\r\n\r\n\x07\r\n")

/-- The names of the parts: the roles in another order and under older names, and one that nobody
knows. -/
def sentNames : List String :=
  ["README", "parser", "comment", "example", "lexer", "interpreter"]

/-- An upload of five such files; each part arrives for itself. -/
def sentRequest : Http.Request :=
  { headers := [("Content-Type", Utf8.ofString "multipart/form-data; boundary=x")]
    pieces := sentNames.map sentPart ++ [Utf8.ofString "--x--\r\n"] }

/-- A build from five such files. -/
def copyingJob : Job :=
  ⟨⟨"/", usualTools⟩, writingHost, .files (fun _ => "/precious") "/copy"⟩

/-- A build from the upload, which just meets the limit, in another workspace. -/
def sendingJob : Job :=
  ⟨⟨"/", usualTools⟩, { writingHost with drawn := 1 },
    .request sentRequest.body.length sentRequest⟩

theorem carries_sentRequest : sendingJob.order.Carries preciousFile sendingJob.host := by
  have hread : Http.Multipart.read "x" sentRequest.body =
      (sentNames.map fun name => ⟨⟨some name, some "precious"⟩, [7]⟩, none) := by
    decide +kernel
  have hboundary : Http.Server.boundary? sentRequest = some "x" := by decide +kernel
  refine ⟨Nat.le_refl _, rfl, ?_, "x", _, hboundary, hread, ?_, fun f hf role _ => ?_⟩
  · intro size hsize
    rw [show Http.Server.declaredSize? sentRequest = none by decide +kernel] at hsize
    cases hsize
  · decide
  · obtain ⟨part, hpart, rfl⟩ := List.mem_map.1 hf
    obtain ⟨name, -, rfl⟩ := List.mem_map.1 hpart
    exact ⟨rfl, rfl⟩

/-- The copy can be made in the root. -/
theorem canMake_copy {t : Tree} (hnone : t.get? ["copy"] = none) : t.CanMake [] "/copy" := by
  have hroot := get?_root t
  have hadmits : AdmitsNames (.directory directoryMode) := ⟨by decide, by decide⟩
  refine ⟨⟨by decide, by decide⟩, ["copy"], ?_, .inl ⟨hnone, requireAbove_ok hroot hadmits "copy"⟩⟩
  refine resolve_eq_ok_iff.2 ⟨by decide +kernel, ?_⟩
  have hsplit : Text.split '/' "/copy" = ["", "copy"] := by decide +kernel
  rw [ite_self, hsplit]
  refine .stay hroot (.inl rfl) (.down ⟨⟨_, hroot, by decide⟩, by decide, by decide, by decide,
    by decide⟩ (fun target hlink => ?_) .here)
  rw [List.nil_append, hnone] at hlink
  cases hlink

/-- Both are jobs for tools that write files. -/
theorem suitsWriter_of_root {j : Job} (ws : Place) (htools : j.pipeline.tools = usualTools)
    (hcarries : j.order.Carries preciousFile j.host) (hcalls : j.host.CallsOnly writingTool)
    (hfiles : j.host.files = precious) (hcwd : j.host.cwd = [])
    (hleads : precious.resolve [] j.path false = .ok ws)
    (hempty : precious.get? ws = none ∧ precious.requireAbove ws = .ok ())
    (hroom : Path.HasRoom j.path 30) (hnormal : Path.normal j.path = j.path)
    (hfit : (writtenContents (usualOutputs "precious") fun role => (preciousFile role).supply).Fit
      (Stage.artifacts j.path (.ofSupplies j.path fun role => (preciousFile role).supply)) j.path)
    (houtput : ¬ ws <+: ["copy"])
    (horder : ∀ source output, j.order = .files source output → output = "/copy") :
    j.SuitsWriter (usualOutputs "precious") preciousFile where
  carries := hcarries
  calls := hcalls
  sound := hfiles ▸ isSound_precious
  cwd := hcwd ▸ isReal_nil
  site := by
    rw [hfiles, hcwd]
    exact ⟨ws, isSound_precious, isReal_nil, hleads, hempty.1, hempty.2⟩
  room := hroom
  normal := hnormal
  suits := by
    refine ⟨by decide +kernel, fun file hfile => ?_, fun name hname => ?_, fun name hname => ?_, hfit⟩
    · simp only [usualOutputs, List.map_cons, List.map_nil, List.mem_cons, List.not_mem_nil,
        or_false] at hfile
      obtain rfl | rfl | rfl | rfl | rfl := hfile <;>
        exact ⟨hroom.takes (Path.isPlain_of_head rfl (by decide) (by decide)) (by decide)
          (by decide), by decide⟩
    · simp only [archiveNames, List.mem_cons, List.not_mem_nil, or_false] at hname
      obtain rfl | rfl := hname <;>
        exact hroom.takes (Path.isPlain_of_head rfl (by decide) (by decide)) (by decide) (by decide)
    · have hstem : (Naming.ofSupplies fun role => (preciousFile role).supply).stem = "precious" := by
        decide +kernel
      rw [hstem] at hname
      exact ⟨[7], List.mem_map_of_mem hname, by simp⟩
  limit := by
    rw [htools]
    decide
  output source output hwritten ws' t data hsite htidy := by
    obtain rfl := horder source output hwritten
    rw [hfiles, hcwd] at hsite
    obtain rfl : ws' = ws := Except.ok.inj (hsite.leads.symm.trans hleads)
    have hnone : t.get? ["copy"] = none := by
      rw [htidy.off _ (by decide) houtput, hfiles]
      rfl
    rw [hcwd]
    exact (canMake_copy hnone).write_ok data

theorem suitsWriter_copyingJob : copyingJob.SuitsWriter (usualOutputs "precious") preciousFile := by
  have hpath : copyingJob.path = firstPath := by decide +kernel
  have hname : Path.fileName? "/precious" = some "precious" := by decide +kernel
  have hread : precious.read [] "/precious" = .ok [7] := by decide +kernel
  refine suitsWriter_of_root firstPlace rfl (fun _ => ⟨hname, hread⟩)
    (Host.callsOnly_withTools _ _) rfl rfl ?_ ⟨rfl, rfl⟩ (hpath ▸ hasRoom_firstPath) ?_
    ⟨by decide +kernel, by decide +kernel⟩ (by decide +kernel) ?_
  · rw [hpath]
    exact site_staleHost.leads
  · decide +kernel
  · rintro source output horder
    cases horder
    rfl

/-- The place of the second workspace. -/
def secondPlace : Place :=
  ["idiogen-00000000-0000-4000-8000-000000000001"]

theorem suitsWriter_sendingJob : sendingJob.SuitsWriter (usualOutputs "precious") preciousFile := by
  refine suitsWriter_of_root secondPlace rfl carries_sentRequest
    ⟨rfl, rfl, rfl⟩ rfl rfl (by decide +kernel) ⟨rfl, rfl⟩ ?_ (by decide +kernel)
    ⟨by decide +kernel, by decide +kernel⟩ (by decide +kernel) ?_
  · exact ⟨⟨by decide +kernel, by decide +kernel⟩, by decide +kernel, by decide +kernel⟩
  · rintro source output horder
    cases horder

/-- Both come to the same. -/
theorem sameEnd_of_copyingJob :
    (copyingJob.Sound writingTool preciousFile ∧ sendingJob.Sound writingTool preciousFile ∧
      sendingJob.pipeline.tools = copyingJob.pipeline.tools ∧
      IgnorePlaces writingTool preciousFile copyingJob sendingJob) ∧
    ∃ result result', copyingJob.Ends result ∧ sendingJob.Ends result' ∧
      SameEnd copyingJob.path sendingJob.path result result' := by
  have hcopying := suitsWriter_copyingJob
  have hsending := suitsWriter_sendingJob
  have hignore := hcopying.ignorePlaces hsending (by decide +kernel)
  exact ⟨⟨hcopying.isSound, hsending.isSound, rfl, hignore⟩,
    sameEnd_of_sound hcopying.isSound hsending.isSound rfl hignore⟩

end Job

end LangBundle
