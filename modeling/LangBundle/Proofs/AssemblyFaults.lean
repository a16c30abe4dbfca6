import LangBundle.Proofs.Assembling
import LangBundle.Proofs.NameLimits
import LangBundle.Proofs.Touching

/-!
# What assembling fails at

Assembling makes the archive of the sources, reads the three sources, makes the result, and reads the
archive of the sources and the four deliverables.  Each of these paths may be at fault from the
beginning, any number of them at once.

* `Bundle.FaultSite`: a path with what is to be done there; `Bundle.firstFault?`: the first one that is
  at fault.
* `Bundle.reports_entriesOf`, `Bundle.reports_writeArchive`: **one archive** fails at the first fault.
* `Bundle.assemble_faults`: **both archives**, told from the files that were there at the beginning.
-/

namespace LangBundle

open Files Files.Tree

namespace Bundle

/-! ## Sites -/

/-- A path with what is to be done there. -/
inductive FaultSite where
  /-- A file is made there, or emptied. -/
  | make (path : String)
  /-- What is there is read. -/
  | read (path : String)
  /-- What is there is read after a file was made there. -/
  | reread (path : String)

namespace FaultSite

def path : FaultSite → String
  | .make path | .read path | .reread path => path

/-- Whether it cannot be done: no file can be made or written there; nothing is there that can be read;
or something is there that cannot be read. -/
def isFaulty (t : Tree) (cwd : Place) : FaultSite → Bool
  | .make path => !(t.openWrite cwd path).isOk
  | .read path => match t.stat cwd path with
    | .ok n => !n.isReadable
    | .error _ => true
  | .reread path => match t.stat cwd path with
    | .ok n => !n.isReadable
    | .error _ => false

end FaultSite

/-- The first path at which something cannot be done. -/
def firstFault? (t : Tree) (cwd : Place) (sites : List FaultSite) : Option String :=
  (sites.find? (·.isFaulty t cwd)).map FaultSite.path

/-- The sites of one archive. -/
def archiveSites (path : String) (artifacts : List Artifact) : List FaultSite :=
  .make path :: artifacts.map fun b => .read b.path

/-- The sites of the archive of the sources. -/
def sourceSites (a : ArtifactSet) (directory : String) : List FaultSite :=
  archiveSites (Path.join directory sourcesArchive) a.sources

/-- The sites of the result.  The archive of the sources is made before, if it is not there. -/
def resultSites (a : ArtifactSet) (directory : String) : List FaultSite :=
  .make (Path.join directory resultArchive) :: .reread (Path.join directory sourcesArchive) ::
    a.deliverables.map fun b => .read b.path

section
variable {t t' : Tree} {cwd : Place} {sites sites' : List FaultSite}

theorem firstFault?_cons (t : Tree) (cwd : Place) (s : FaultSite) (sites : List FaultSite) :
    firstFault? t cwd (s :: sites) =
      if s.isFaulty t cwd then some s.path else firstFault? t cwd sites := by
  rw [firstFault?, List.find?_cons]
  cases s.isFaulty t cwd <;> rfl

/-- Only the paths count, and which of them are at fault. -/
theorem firstFault?_congr (h : List.Forall₂ (fun s s' : FaultSite => s.path = s'.path ∧
    s.isFaulty t cwd = s'.isFaulty t' cwd) sites sites') :
    firstFault? t cwd sites = firstFault? t' cwd sites' := by
  induction h with
  | nil => rfl
  | cons hfirst _ ih => rw [firstFault?_cons, firstFault?_cons, hfirst.1, hfirst.2, ih]

theorem isFaulty_read (t : Tree) (cwd : Place) (path : String) :
    (FaultSite.read path).isFaulty t cwd = !(t.read cwd path).isOk := by
  rw [FaultSite.isFaulty]
  rcases hstat : t.stat cwd path with fault | n
  · rw [Tree.read, openRead, hstat]
    rfl
  · dsimp only
    rw [Bool.not_inj_iff, Bool.eq_iff_iff, read_isOk_iff, hstat]
    simp

end

/-! ## One archive -/

/-- What is said if an archive has no room: for so much data, or on its device. -/
def IsLimit (detail : String) : Prop :=
  detail = Archive.EntryFault.dataTooLong.message ∨ detail = Fault.noSpace.message

/-- What comes of a computation that fails at a path if there is one to fail at, and succeeds otherwise,
unless it meets a limit. -/
inductive Reports {α : Type} (fault? : Option String) (Failed Done : Host → Prop) :
    EStateM.Result BuildError Host α → Prop
  | done {a : α} {h : Host} (hnone : fault? = none) (hdone : Done h) :
      Reports fault? Failed Done (.ok a h)
  | failed {path detail : String} {h : Host} (hpath : fault? = some path) (hfailed : Failed h) :
      Reports fault? Failed Done (.error (.io path detail) h)
  | limit {path detail : String} {h : Host} (hlimit : IsLimit detail) :
      Reports fault? Failed Done (.error (.io path detail) h)

section
variable {α β : Type} {h : Host} {fault? rest? : Option String} {Failed Done Then : Host → Prop}

theorem Reports.mono {Failed' Done' : Host → Prop} {r : EStateM.Result BuildError Host α}
    (hr : Reports fault? Failed Done r) (hfailed : ∀ h, Failed h → Failed' h)
    (hdone : ∀ h, Done h → Done' h) : Reports fault? Failed' Done' r := by
  cases hr with
  | done hnone hd => exact .done hnone (hdone _ hd)
  | failed hpath hf => exact .failed hpath (hfailed _ hf)
  | limit hlimit => exact .limit hlimit

/-- **Two computations** one after the other. -/
theorem Reports.bind {x : Service α} {k : α → Service β} (hx : Reports fault? Failed Then (x h))
    (hk : ∀ a h', x h = .ok a h' → Then h' → Reports rest? Failed Done (k a h')) :
    Reports (fault?.or rest?) Failed Done ((x >>= k) h) := by
  generalize hfirst : x h = r at hx
  cases hx with
  | done hnone hthen =>
    rw [Service.bind_of_ok hfirst, hnone, Option.none_or]
    exact hk _ _ hfirst hthen
  | failed hpath hfailed =>
    rw [Service.bind_of_error hfirst, hpath, Option.some_or]
    exact .failed rfl hfailed
  | limit hlimit =>
    rw [Service.bind_of_error hfirst]
    exact .limit hlimit

/-- The second one meets no fault of its own. -/
theorem Reports.andThen {x : Service α} {k : α → Service β} (hx : Reports fault? Failed Then (x h))
    (hk : ∀ a h', x h = .ok a h' → Then h' → Reports none Failed Done (k a h')) :
    Reports fault? Failed Done ((x >>= k) h) := by
  have hboth := hx.bind hk
  rwa [Option.or_none] at hboth

theorem firstFault?_append (t : Tree) (cwd : Place) (sites sites' : List FaultSite) :
    firstFault? t cwd (sites ++ sites') =
      (firstFault? t cwd sites).or (firstFault? t cwd sites') := by
  rw [firstFault?, List.find?_append, Option.map_or]
  rfl

theorem look_of_ok {path : String} {op : Tree → Place → Except Fault α} {a : α}
    (hop : op h.files h.cwd = .ok a) : Service.look path op h = .ok a h := by
  simp only [Service.look, hop]

theorem look_of_error {path : String} {op : Tree → Place → Except Fault α} {fault : Fault}
    (hop : op h.files h.cwd = .error fault) :
    Service.look path op h = .error (.io path fault.message) h := by
  simp only [Service.look, hop]

/-- **An entry** is had if its file can be read. -/
theorem reports_entryOf {b : Artifact} {name : String} (hname : IsBrief name) :
    Reports (firstFault? h.files h.cwd [.read b.path]) (· = h) (· = h) (entryOf b name h) := by
  have hlong : ¬ 65535 < (Utf8.ofString name).length := Nat.not_lt.2 hname
  rw [firstFault?_cons, isFaulty_read, Tree.read, entryOf]
  rcases hopen : h.files.openRead h.cwd b.path with fault | source
  · rw [Service.bind_of_error (look_of_error hopen)]
    exact .failed rfl rfl
  rw [Service.bind_of_ok (look_of_ok hopen)]
  simp only [if_neg hlong]
  change Reports _ _ _ ((Service.look b.path (fun t _ => t.readAll source) >>= fun data =>
    fitting b ⟨name, data⟩) h)
  rcases hread : h.files.readAll source with fault | data
  · rw [Service.bind_of_error (look_of_error hread)]
    exact .failed (by simp only [bind, Except.bind, hread]; rfl) rfl
  rw [Service.bind_of_ok (look_of_ok hread), fitting]
  rcases hfault : Archive.Entry.fault? ⟨name, data⟩ with _ | (_ | _)
  · exact .done (by simp only [bind, Except.bind, hread]; rfl) rfl
  · -- a brief name is not too long
    rw [Archive.Entry.fault?, if_neg hlong] at hfault
    split at hfault <;> cases hfault
  · exact .limit (.inl rfl)

/-- **The entries** of artifacts are had if all their files can be read. -/
theorem reports_entriesOf {named : List (Artifact × String)} (hnames : ∀ x ∈ named, IsBrief x.2) :
    Reports (firstFault? h.files h.cwd (named.map fun x => .read x.1.path)) (· = h) (· = h)
      (entriesOf named h) := by
  induction named with
  | nil => exact .done rfl rfl
  | cons first rest ih =>
    rw [List.map_cons, ← List.singleton_append, firstFault?_append, entriesOf]
    refine (reports_entryOf (hnames first List.mem_cons_self)).bind fun entry h' _ hsame => ?_
    subst hsame
    exact (ih fun x hx => hnames x (List.mem_cons_of_mem _ hx)).andThen
      fun _ _ _ hsame => .done rfl hsame

/-- The faults of reading are the same when some files have been made and written. -/
theorem firstFault?_touched {P : Place → Prop} {t t' : Tree} {cwd : Place} (ht : Touched P t t')
    {artifacts : List Artifact} (hplaces : ∀ b ∈ artifacts, ∀ p, t.resolve cwd b.path = .ok p →
      P p → t.get? p ≠ none) :
    firstFault? t cwd (artifacts.map fun b => .read b.path) =
      firstFault? t' cwd (artifacts.map fun b => .read b.path) := by
  refine firstFault?_congr (List.forall₂_map_left_iff.2 (List.forall₂_map_right_iff.2
    (List.forall₂_same.2 fun b hb => ⟨rfl, ?_⟩)))
  rw [isFaulty_read, isFaulty_read, ht.read_isOk (hplaces b hb)]

theorem map_read_zip (artifacts : List Artifact) :
    ((artifacts.zip (entryNames artifacts)).map fun x => FaultSite.read x.1.path) =
      artifacts.map fun b => .read b.path := by
  have hfst : (artifacts.zip (entryNames artifacts)).map Prod.fst = artifacts :=
    List.map_fst_zip (length_entryNames artifacts).ge
  conv_rhs => rw [← hfst, List.map_map]
  rfl

/-- Nothing but what a path leads to was made or written. -/
def Wrote (h : Host) (path : String) (h' : Host) : Prop :=
  ∃ t, h' = { h with files := t } ∧ Touched (h.files.resolve h.cwd path = .ok ·) h.files t

/-- **An archive** is written if its file can be made and those of its artifacts can be read.  None of
them is a file that is made for the archive. -/
theorem reports_writeArchive {path : String} {artifacts : List Artifact} (hsound : h.files.IsSound)
    (hcwd : IsReal h.cwd) (hnames : ∀ name ∈ entryNames artifacts, IsBrief name)
    (hplaces : ∀ b ∈ artifacts, ∀ p, h.files.resolve h.cwd b.path = .ok p →
      h.files.resolve h.cwd path = .ok p → h.files.get? p ≠ none) :
    Reports (firstFault? h.files h.cwd (archiveSites path artifacts)) (Wrote h path)
      (fun h' => Wrote h path h' ∧ ∃ n, h'.files.stat h.cwd path = .ok n)
      (writeArchive path artifacts h) := by
  rw [archiveSites, ← List.singleton_append, firstFault?_append, writeArchive]
  have hmake : Reports (firstFault? h.files h.cwd [.make path]) (Wrote h path) (fun _ => True)
      (Service.onFiles path (fun t cwd => t.openWrite cwd path) h) := by
    rw [firstFault?_cons, FaultSite.isFaulty]
    rcases hopen : h.files.openWrite h.cwd path with fault | ⟨sink, t⟩
    · simp only [Service.onFiles, hopen]
      exact .failed rfl ⟨_, rfl, .refl hsound⟩
    · simp only [Service.onFiles, hopen]
      exact .done rfl trivial
  refine hmake.bind fun sink h₁ hfirst _ => ?_
  obtain ⟨t, hopen, rfl⟩ := onFiles_eq_ok hfirst
  obtain ⟨p, hp, hopened⟩ := openWrite_eq_ok hopen
  have hleads (q : Place) (hq : q = p) : h.files.resolve h.cwd path = .ok q := hq ▸ hp
  have hmade : Touched (h.files.resolve h.cwd path = .ok ·) h.files t :=
    (Touched.of_opened hsound hcwd hp hopened).mono hleads
  rw [firstFault?_touched hmade hplaces, ← map_read_zip]
  have hentries : Reports (firstFault? t h.cwd
      ((artifacts.zip (entryNames artifacts)).map fun x => .read x.1.path)) (Wrote h path)
      (· = { h with files := t })
      (entriesOf (artifacts.zip (entryNames artifacts)) { h with files := t }) :=
    (reports_entriesOf (h := { h with files := t }) fun x hx => hnames _ (List.of_mem_zip hx).2).mono
      (fun h₂ hsame => ⟨t, hsame, hmade⟩) fun _ hsame => hsame
  refine hentries.andThen fun entries h₂ _ hsame => ?_
  subst hsame
  rcases hat : t.writeAt sink 0 (Archive.write entries) with fault | t'
  · have hlast : Service.onFiles path
        (fun t _ => return ((), ← t.writeAt sink 0 (Archive.write entries))) { h with files := t } =
          .error (.io path Fault.noSpace.message) { h with files := t } := by
      simp only [Service.onFiles, hat, writeAt_eq_error hat]
      rfl
    rw [hlast]
    exact .limit (.inr rfl)
  · have hlast : Service.onFiles path
        (fun t _ => return ((), ← t.writeAt sink 0 (Archive.write entries))) { h with files := t } =
          .ok () { h with files := t' } := by
      simp only [Service.onFiles, hat]
      rfl
    rw [hlast]
    have hwritten : Touched (· = p) t t' :=
      .of_writeAt hmade.sound (fun _ => hopened.serialAt?_self) hat
    obtain ⟨n, hn⟩ := Option.ne_none_iff_exists'.1 (hwritten.get?_ne_none hopened.get?_ne_none)
    have hboth := hmade.trans (hwritten.mono hleads)
    exact .done rfl ⟨⟨t', rfl, hboth⟩, n,
      stat_eq_ok_iff.2 ⟨p, hboth.resolve_eq_ok_iff.2 hp, hn⟩⟩

/-! ## Both archives -/

/-- The paths of the two archives. -/
def archivePaths (directory : String) : List String :=
  [Path.join directory sourcesArchive, Path.join directory resultArchive]

/-- Nothing has changed on a host but what has a name where one of some paths leads. -/
def ChangesOnly (h : Host) (paths : List String) (h' : Host) : Prop :=
  (∃ t, h' = { h with files := t }) ∧
    ∀ q, (∀ path ∈ paths, ∀ p, h.files.resolve h.cwd path = .ok p → ¬ h.files.Aliases p q) →
      h'.files.get? q = h.files.get? q

/-- No artifact is where one of the archives is to be. -/
def BesideArchives (h : Host) (a : ArtifactSet) (directory : String) : Prop :=
  ∀ b ∈ a.sources ++ a.deliverables, ∀ archive ∈ archivePaths directory, ∀ p,
    h.files.resolve h.cwd archive = .ok p → h.files.resolve h.cwd b.path ≠ .ok p

/-- The archive of the sources can be read in the end if it could be read at the beginning, or was not
there. -/
theorem isFaulty_reread {P : Place → Prop} {t t' : Tree} {cwd : Place} {path : String}
    (ht : Touched P t t') (hthere : ∃ n, t'.stat cwd path = .ok n) :
    (FaultSite.reread path).isFaulty t cwd = (FaultSite.read path).isFaulty t' cwd := by
  obtain ⟨n', hstat'⟩ := hthere
  obtain ⟨p, hp', hn'⟩ := stat_eq_ok_iff.1 hstat'
  have hp := ht.resolve_eq_ok_iff.1 hp'
  rw [FaultSite.isFaulty, FaultSite.isFaulty, hstat']
  obtain halike | ⟨-, hnone, -, serial, data, hfile⟩ := ht.alike p
  · rw [hn'] at halike
    obtain ⟨n, hn, hblank⟩ := Option.map_eq_some_iff.1 halike.symm
    rw [stat_eq_ok_iff.2 ⟨p, hp, hn⟩]
    dsimp only
    rw [← n.isReadable_blank, hblank, n'.isReadable_blank]
  · rw [hfile] at hn'
    obtain rfl := Option.some.inj hn'
    dsimp only
    rw [Node.isReadable_new]
    rcases hstat : t.stat cwd path with fault | n
    · rfl
    · obtain ⟨q, hq, hn⟩ := stat_eq_ok_iff.1 hstat
      rw [hp] at hq
      obtain rfl := Except.ok.inj hq
      rw [hnone] at hn
      cases hn

section
variable {a : ArtifactSet} {directory : String}

/-- Nothing that is read for the result is a file that is made for it. -/
theorem places_result {P : Place → Prop} {t : Tree} (ht : Touched P h.files t)
    (hbeside : BesideArchives h a directory)
    (hthere : ∃ n, t.stat h.cwd (Path.join directory sourcesArchive) = .ok n) :
    ∀ b ∈ resultArtifacts a directory, ∀ p, t.resolve h.cwd b.path = .ok p →
      t.resolve h.cwd (Path.join directory resultArchive) = .ok p → t.get? p ≠ none := by
  intro b hb p hp hleads
  obtain rfl | hb := List.mem_cons.1 hb
  · obtain ⟨n, hstat⟩ := hthere
    obtain ⟨q, hq, hn⟩ := stat_eq_ok_iff.1 hstat
    obtain rfl : p = q := Except.ok.inj (hp.symm.trans hq)
    rw [hn]
    exact Option.some_ne_none n
  · exact absurd (ht.resolve_eq_ok_iff.1 hp) (hbeside b (List.mem_append_right _ hb) _
      (List.mem_cons_of_mem _ List.mem_cons_self) p (ht.resolve_eq_ok_iff.1 hleads))

/-- What is read for the result is at fault as it was at the beginning. -/
theorem firstFault?_result {P : Place → Prop} {t : Tree} (ht : Touched P h.files t)
    (hP : ∀ p, P p → ∃ archive ∈ archivePaths directory, h.files.resolve h.cwd archive = .ok p)
    (hbeside : BesideArchives h a directory)
    (hthere : ∃ n, t.stat h.cwd (Path.join directory sourcesArchive) = .ok n) :
    firstFault? h.files h.cwd (resultSites a directory) = firstFault? t h.cwd
      (archiveSites (Path.join directory resultArchive) (resultArtifacts a directory)) := by
  have hmake : (FaultSite.make (Path.join directory resultArchive)).isFaulty h.files h.cwd =
      (FaultSite.make (Path.join directory resultArchive)).isFaulty t h.cwd := by
    rw [FaultSite.isFaulty, FaultSite.isFaulty, ht.openWrite_isOk]
  have hrest : firstFault? h.files h.cwd (a.deliverables.map fun b => .read b.path) =
      firstFault? t h.cwd (a.deliverables.map fun b => .read b.path) := by
    refine firstFault?_touched ht fun b hb p hp hin => ?_
    obtain ⟨archive, harchive, hleads⟩ := hP p hin
    exact absurd hp (hbeside b (List.mem_append_right _ hb) archive harchive p hleads)
  rw [resultSites, archiveSites, resultArtifacts, List.map_cons]
  simp only [firstFault?_cons, hmake, isFaulty_reread ht hthere, hrest]
  rfl

/-- **Assembling** fails exactly if something was at fault at the beginning, and then names the first
path that was: the archive of the sources where it is to be made, the lexer, the parser, the
interpreter; then the result, the archive of the sources if it was there and could not be read, the
module's two files, the documentation, the example.  Nothing changes but what the paths of the archives
lead to, and as long as the sources are at fault nothing but what the first of them leads to. -/
theorem assemble_faults (hsound : h.files.IsSound) (hcwd : IsReal h.cwd)
    (hbeside : BesideArchives h a directory)
    (hnames : ∀ name ∈ entryNames a.sources ++ entryNames (resultArtifacts a directory), IsBrief name)
    (hroom : ∀ path detail h', assemble a directory h = .error (.io path detail) h' → ¬ IsLimit detail) :
    (∃ path detail h', firstFault? h.files h.cwd (sourceSites a directory) = some path ∧
      assemble a directory h = .error (.io path detail) h' ∧
      ChangesOnly h [Path.join directory sourcesArchive] h') ∨
    (∃ path detail h', firstFault? h.files h.cwd (sourceSites a directory) = none ∧
      firstFault? h.files h.cwd (resultSites a directory) = some path ∧
      assemble a directory h = .error (.io path detail) h' ∧
      ChangesOnly h (archivePaths directory) h') ∨
    ∃ h', firstFault? h.files h.cwd (sourceSites a directory ++ resultSites a directory) = none ∧
      assemble a directory h = .ok (Path.join directory resultArchive) h' ∧
      ChangesOnly h (archivePaths directory) h' := by
  have hsources : Path.join directory sourcesArchive ∈ archivePaths directory := List.mem_cons_self
  have hresult : Path.join directory resultArchive ∈ archivePaths directory :=
    List.mem_cons_of_mem _ List.mem_cons_self
  have hfirst := reports_writeArchive hsound hcwd
    (fun name (hname : name ∈ entryNames a.sources) => hnames name (List.mem_append_left _ hname))
    fun b hb p hp (hleads : h.files.resolve h.cwd (Path.join directory sourcesArchive) = .ok p) =>
      absurd hp (hbeside b (List.mem_append_left _ hb) _ hsources p hleads)
  rw [← sourceSites] at hfirst
  generalize hwrite : writeArchive (Path.join directory sourcesArchive) a.sources h = r at hfirst
  cases hfirst with
  | limit hlimit => exact absurd hlimit (hroom _ _ _ (Service.bind_of_error hwrite))
  | failed hpath hwrote =>
    obtain ⟨t, rfl, ht⟩ := hwrote
    refine .inl ⟨_, _, _, hpath, Service.bind_of_error hwrite, ⟨t, rfl⟩, fun q hq => ?_⟩
    exact ht.off q fun p hp => hq _ List.mem_cons_self p hp
  | done hnone hwrote =>
    obtain ⟨⟨t, rfl, ht⟩, hthere⟩ := hwrote
    have hpaths (p : Place) (hp : h.files.resolve h.cwd (Path.join directory sourcesArchive) = .ok p) :
        ∃ archive ∈ archivePaths directory, h.files.resolve h.cwd archive = .ok p :=
      ⟨_, hsources, hp⟩
    have hplaces := places_result ht hbeside hthere
    have hsecond := reports_writeArchive (h := { h with files := t }) ht.sound hcwd
      (fun name (hname : name ∈ entryNames (resultArtifacts a directory)) =>
        hnames name (List.mem_append_right _ hname)) hplaces
    dsimp only at hsecond
    rw [← firstFault?_result ht hpaths hbeside hthere] at hsecond
    -- what the second archive changes is seen from the beginning
    have honly {h' : Host} (hwrote : Wrote { h with files := t } (Path.join directory resultArchive) h') :
        ChangesOnly h (archivePaths directory) h' := by
      obtain ⟨t', rfl, ht'⟩ := hwrote
      have hboth := (ht.mono hpaths).trans (ht'.mono fun p hp =>
        ⟨_, hresult, ht.resolve_eq_ok_iff.1 hp⟩)
      refine ⟨⟨t', rfl⟩, fun q hq => hboth.off q ?_⟩
      rintro p ⟨archive, harchive, hp⟩
      exact hq archive harchive p hp
    have hrest : assemble a directory h = (writeArchive (Path.join directory resultArchive)
        (resultArtifacts a directory) >>= fun _ => pure (Path.join directory resultArchive))
          { h with files := t } := Service.bind_of_ok hwrite
    rw [hrest] at hroom ⊢
    generalize hwrite' : writeArchive (Path.join directory resultArchive)
      (resultArtifacts a directory) { h with files := t } = r' at hsecond
    cases hsecond with
    | limit hlimit => exact absurd hlimit (hroom _ _ _ (Service.bind_of_error hwrite'))
    | failed hpath hwrote =>
      exact .inr (.inl ⟨_, _, _, hnone, hpath, Service.bind_of_error hwrite', honly hwrote⟩)
    | done hnone' hwrote =>
      refine .inr (.inr ⟨_, ?_, Service.bind_of_ok hwrite', honly hwrote.1⟩)
      rw [firstFault?_append, hnone, hnone', Option.or_none]

end

end

/-! ## Archives that cannot be read, and links -/

/-- The path of a file that cannot be had, and what is said about it. -/
def failure? {α : Type} : EStateM.Result BuildError Host α → Option (String × String)
  | .error (.io path detail) _ => some (path, detail)
  | _ => none

theorem eq_error_of_failure? {α : Type} {r : EStateM.Result BuildError Host α} {path detail : String}
    (h : failure? r = some (path, detail)) : ∃ h', r = .error (.io path detail) h' := by
  match r with
  | .error (.io _ _) h' => exact ⟨h', by cases h; rfl⟩

/-- The host behind a computation. -/
def hostBehind {α : Type} : EStateM.Result BuildError Host α → Host
  | .ok _ h | .error _ h => h

/-- Artifacts in one directory. -/
def smallSet : ArtifactSet where
  parserSource := ⟨"parser", "/small/y.tab.c", "y.tab.c"⟩
  lexerSource := ⟨"lexer", "/small/lex.yy.c", "lex.yy.c"⟩
  interpreterSource := ⟨"interpreter", "/small/calc.c", "calc.c"⟩
  moduleGlue := ⟨"module", "/small/calc.js", "calc.js"⟩
  moduleBinary := ⟨"module", "/small/calc.wasm", "calc.wasm"⟩
  documentation := ⟨"documentation", "/small/README.md", "README.md"⟩
  sample := ⟨"example", "/small/one.calc", "one.calc"⟩

/-- That directory with some files in it. -/
def smallTree : List String → Tree
  | [] => ({} : Tree).insert ["small"] (.directory directoryMode) 0
  | name :: names =>
    (smallTree names).insert ["small", name] (.file (smallTree names).nextSerial fileMode [7])
      ((smallTree names).nextSerial + 1)

theorem isSound_smallTree {names : List String} (hplain : ∀ name ∈ names, '/' ∉ name.toList)
    (hnodup : names.Nodup) : (smallTree names).IsSound ∧
      (smallTree names).get? ["small"] = some (.directory directoryMode) ∧
      ∀ name, name ∉ names → (smallTree names).get? ["small", name] = none := by
  induction names with
  | nil =>
    refine ⟨isSound_empty.insert (by unfold IsReal; decide) rfl
      ⟨[], "small", directoryMode, rfl, get?_root _⟩ (Nat.le_refl 0) (fun _ hserial => nomatch hserial),
      rfl, fun name _ => rfl⟩
  | cons name names ih =>
    obtain ⟨hsound, hdir, hnone⟩ := ih (fun other h => hplain other (List.mem_cons_of_mem _ h))
      hnodup.of_cons
    have hnew := hnone name (List.nodup_cons.1 hnodup).1
    refine ⟨hsound.insert ?_ hnew ⟨["small"], name, directoryMode, rfl, hdir⟩ (Nat.le_succ _) ?_, ?_,
      fun other hother => ?_⟩
    · intro part hpart
      obtain rfl | hpart := List.mem_cons.1 hpart
      · decide
      · exact List.mem_singleton.1 hpart ▸ hplain name List.mem_cons_self
    · rintro serial ⟨⟩
      exact ⟨Nat.le_refl _, Nat.lt_succ_self _⟩
    · rw [smallTree, get?_insert_of_ne (by simp), hdir]
    · rw [List.mem_cons, not_or] at hother
      rw [smallTree, get?_insert_of_ne (by simp [hother.1]), hnone other hother.2]

/-- The names of all artifacts but those of the lexer and the documentation. -/
def commonNames : List String :=
  ["y.tab.c", "calc.c", "calc.js", "calc.wasm", "one.calc"]

/-- The documentation is missing, and a directory is where the result is to be made. -/
def obstructedHost : Host :=
  { files := (smallTree ("lex.yy.c" :: commonNames)).insert ["small", "output.zip"]
      (.directory directoryMode) 6 }

/-- The archive of the sources is there already, and may be written but not read. -/
def sealedHost : Host :=
  { files := (smallTree ("lex.yy.c" :: "README.md" :: commonNames)).insert ["small", "combined.zip"]
      (.file 7 0o200 []) 8 }

/-- A link is where the archive of the sources is to be made, to where the result is to be made, and
the source of the lexer is missing. -/
def linkedHost : Host :=
  { files := (smallTree ("README.md" :: commonNames)).insert ["small", "combined.zip"]
      (.link "output.zip") 6 }

/-- The source of the lexer is a link to where the archive of the sources is to be made, and the
documentation is missing. -/
def danglingHost : Host :=
  { files := (smallTree commonNames).insert ["small", "lex.yy.c"] (.link "combined.zip") 5 }

theorem isSound_obstructedHost : obstructedHost.files.IsSound := by
  obtain ⟨hsound, hdir, hnone⟩ := isSound_smallTree (show ∀ name ∈ "lex.yy.c" :: commonNames, _ by
    decide) (by decide)
  exact hsound.insert (by unfold IsReal; decide) (hnone _ (by decide))
    ⟨["small"], "output.zip", directoryMode, rfl, hdir⟩ (by decide) fun _ hserial => nomatch hserial

theorem besideArchives_obstructedHost : BesideArchives obstructedHost smallSet "/small" := by
  have hother : ∀ b ∈ smallSet.sources ++ smallSet.deliverables, ∀ archive ∈ archivePaths "/small",
      obstructedHost.files.resolve [] archive ≠ obstructedHost.files.resolve [] b.path := by
    decide +kernel
  intro b hb archive harchive p hp hpath
  exact hother b hb archive harchive (hp.trans hpath.symm)

/-- With the documentation missing and a directory where the result is to be made, assembling fails at
the result. -/
theorem assemble_obstructed :
    (obstructedHost.files.IsSound ∧ IsReal obstructedHost.cwd ∧
      BesideArchives obstructedHost smallSet "/small" ∧
      (∀ name ∈ entryNames smallSet.sources ++ entryNames (resultArtifacts smallSet "/small"),
        IsBrief name) ∧
      ∀ path detail h', assemble smallSet "/small" obstructedHost = .error (.io path detail) h' →
        ¬ IsLimit detail) ∧
    ∃ detail h', assemble smallSet "/small" obstructedHost =
        .error (.io "/small/output.zip" detail) h' ∧
      ChangesOnly obstructedHost (archivePaths "/small") h' := by
  have hnames : ∀ name ∈ entryNames smallSet.sources ++
      entryNames (resultArtifacts smallSet "/small"), IsBrief name := by
    unfold IsBrief
    decide +kernel
  have hroom : ∀ path detail h', assemble smallSet "/small" obstructedHost =
      .error (.io path detail) h' → ¬ IsLimit detail := by
    intro path detail h' hassemble
    have hfailure : failure? (assemble smallSet "/small" obstructedHost) =
        some ("/small/output.zip", Fault.isDirectory.message) := by
      decide +kernel
    rw [hassemble] at hfailure
    obtain ⟨-, rfl⟩ := Prod.mk.inj (Option.some.inj hfailure)
    unfold IsLimit
    decide
  have hsources : firstFault? obstructedHost.files obstructedHost.cwd
      (sourceSites smallSet "/small") = none := by
    decide +kernel
  have hresult : firstFault? obstructedHost.files obstructedHost.cwd
      (resultSites smallSet "/small") = some "/small/output.zip" := by
    decide +kernel
  refine ⟨⟨isSound_obstructedHost, isReal_nil, besideArchives_obstructedHost, hnames, hroom⟩, ?_⟩
  obtain ⟨path, _, _, hfault, -⟩ | ⟨path, detail, h', -, hfault, hassemble⟩ | ⟨_, hnone, -⟩ :=
    assemble_faults isSound_obstructedHost isReal_nil besideArchives_obstructedHost hnames hroom
  · rw [hsources] at hfault
    cases hfault
  · rw [hresult] at hfault
    obtain rfl := Option.some.inj hfault
    exact ⟨detail, h', hassemble⟩
  · rw [firstFault?_append, hsources, hresult] at hnone
    cases hnone

/-- The paths at which assembling is said to fail: each archive and each artifact, in their order. -/
def namedSites (a : ArtifactSet) (directory : String) : List FaultSite :=
  archiveSites (Path.join directory sourcesArchive) a.sources ++
    archiveSites (Path.join directory resultArchive) a.deliverables

/-- Assembling fails though none of these is at fault, if the archive of the sources is there and cannot
be read; it makes the result though a source is at fault, if a link leads there; and it names a later
path than the first one that is at fault, if a link leads from that to an archive. -/
theorem assemble_otherwise :
    (firstFault? sealedHost.files sealedHost.cwd (namedSites smallSet "/small") = none ∧
      ∃ detail h', assemble smallSet "/small" sealedHost =
        .error (.io "/small/combined.zip" detail) h') ∧
    (firstFault? linkedHost.files linkedHost.cwd (namedSites smallSet "/small") =
        some "/small/lex.yy.c" ∧
      linkedHost.files.get? ["small", "output.zip"] = none ∧
      (hostBehind (assemble smallSet "/small" linkedHost)).files.get? ["small", "output.zip"] ≠ none) ∧
    firstFault? danglingHost.files danglingHost.cwd (namedSites smallSet "/small") =
        some "/small/lex.yy.c" ∧
      ∃ detail h', assemble smallSet "/small" danglingHost =
        .error (.io "/small/README.md" detail) h' := by
  have hsealed : failure? (assemble smallSet "/small" sealedHost) =
      some ("/small/combined.zip", Fault.permissionDenied.message) := by
    decide +kernel
  have hdangling : failure? (assemble smallSet "/small" danglingHost) =
      some ("/small/README.md", Fault.notFound.message) := by
    decide +kernel
  exact ⟨⟨by decide +kernel, _, eq_error_of_failure? hsealed⟩,
    ⟨by decide +kernel, by decide +kernel, by decide +kernel⟩,
    by decide +kernel, _, eq_error_of_failure? hdangling⟩

end Bundle

end LangBundle
