import Mathlib.Data.List.Find
import Mathlib.Data.List.Induction
import LangBundle.Proofs.Assembling
import LangBundle.Proofs.Twins

/-!
# Two builds side by side

What a build does in a workspace comes to the same as what a build does in another one that holds
the same, up to the path of the workspace.

* `SameBut`: two texts are the same but for the path that stands in them.
* `Couples`: **a contract** of two computations, which end alike.
* `Beside`: two trees in which the workspaces of two builds hold the same.
* `couples_run`: **one stage**, if its tool does the same in both.
* `couples_assemble`: **both archives**.
-/

namespace LangBundle

open Files Files.Tree

/-! ## The same but for a path -/

/-- Two texts are the same but for the path that stands in them. -/
def SameBut (path path' s s' : String) : Prop :=
  ∃ pieces : List String, s = path.intercalate pieces ∧ s' = path'.intercalate pieces

theorem SameBut.refl (path path' s : String) : SameBut path path' s s :=
  ⟨[s], String.intercalate_singleton.symm, String.intercalate_singleton.symm⟩

theorem SameBut.eq {path s s' : String} (h : SameBut path path s s') : s' = s := by
  obtain ⟨pieces, rfl, rfl⟩ := h
  rfl

theorem sameBut_append (path path' rest : String) :
    SameBut path path' (path ++ rest) (path' ++ rest) :=
  ⟨["", rest], by simp [String.intercalate_cons_cons], by simp [String.intercalate_cons_cons]⟩

/-- Two failures of a stage are the same but for a path. -/
def Stage.Failure.SameBut (path path' : String) : Failure → Failure → Prop
  | .missingOutput out, .missingOutput out' => LangBundle.SameBut path path' out out'
  | failure, failure' => failure = failure'

theorem Stage.Failure.SameBut.refl (path path' : String) (failure : Failure) :
    failure.SameBut path path' failure := by
  cases failure with
  | missingOutput out => exact LangBundle.SameBut.refl path path' out
  | _ => rfl

theorem Stage.Failure.SameBut.eq {path : String} {failure failure' : Failure}
    (h : failure.SameBut path path failure') : failure' = failure := by
  cases failure <;> cases failure' <;> first
    | exact congrArg Failure.missingOutput (LangBundle.SameBut.eq h)
    | exact Eq.symm h

/-- Two errors of a build are the same but for a path. -/
def BuildError.SameBut (path path' : String) : BuildError → BuildError → Prop
  | .io place detail, .io place' detail' =>
    LangBundle.SameBut path path' place place' ∧ detail' = detail
  | .stage s failure diagnostics, .stage s' failure' diagnostics' =>
    s' = s ∧ failure.SameBut path path' failure' ∧
      LangBundle.SameBut path path' diagnostics diagnostics'
  | e, e' => e' = e

theorem BuildError.SameBut.eq {path : String} {e e' : BuildError} (h : e.SameBut path path e') :
    e' = e := by
  cases e <;> cases e' <;> first
    | exact h
    | (obtain ⟨hplace, rfl⟩ := h; rw [LangBundle.SameBut.eq hplace])
    | (obtain ⟨rfl, hfailure, hsaid⟩ := h; rw [hfailure.eq, LangBundle.SameBut.eq hsaid])

/-! ## Contracts of two computations -/

/-- From two related states two computations come to related values and states, or they fail with
the same error but for a path; with `slack`, either may also fail on its own with an error of its
file operations. -/
structure Couples {σ α : Type} (slack : Prop) (path path' : String) (P : σ → σ → Prop)
    (x y : EStateM BuildError σ α) (Q : α → α → σ → σ → Prop) : Prop where
  ends : ∀ s s', P s s' →
    (∃ a a' t t', x s = .ok a t ∧ y s' = .ok a' t' ∧ Q a a' t t') ∨
    (∃ e e' t t', x s = .error e t ∧ y s' = .error e' t' ∧ e.SameBut path path' e') ∨
    slack ∧ ((∃ place detail t, x s = .error (.io place detail) t) ∨
      ∃ place detail t, y s' = .error (.io place detail) t)

namespace Couples

variable {σ α β : Type} {slack : Prop} {path path' : String} {P P' : σ → σ → Prop}
  {Q Q' : α → α → σ → σ → Prop} {R : β → β → σ → σ → Prop} {x y : EStateM BuildError σ α}
  {k k' : α → EStateM BuildError σ β}

theorem imp (h : Couples slack path path' P x y Q) (hP : ∀ s s', P' s s' → P s s')
    (hQ : ∀ a a' s s', Q a a' s s' → Q' a a' s s') : Couples slack path path' P' x y Q' := by
  refine ⟨fun s s' hs => ?_⟩
  obtain ⟨a, a', t, t', hx, hy, hend⟩ | hfail := h.ends s s' (hP s s' hs)
  · exact .inl ⟨a, a', t, t', hx, hy, hQ a a' t t' hend⟩
  · exact .inr hfail

theorem pure {a a' : α} (h : ∀ s s', P s s' → Q a a' s s') :
    Couples slack path path' P (pure a) (pure a') Q :=
  ⟨fun s s' hs => .inl ⟨a, a', s, s', rfl, rfl, h s s' hs⟩⟩

theorem throw {e e' : BuildError} (h : e.SameBut path path' e') :
    Couples slack path path' P (throw e) (throw e') Q :=
  ⟨fun s s' _ => .inr (.inl ⟨e, e', s, s', rfl, rfl, h⟩)⟩

/-- What holds besides the relation of the states can be used. -/
theorem assuming {p : Prop} (h : p → Couples slack path path' P x y Q) :
    Couples slack path path' (fun s s' => P s s' ∧ p) x y Q :=
  ⟨fun s s' hs => (h hs.2).ends s s' hs.1⟩

/-- **One after the other.** -/
theorem bind (hx : Couples slack path path' P x y Q)
    (hk : ∀ a a', Couples slack path path' (Q a a') (k a) (k' a') R) :
    Couples slack path path' P (x >>= k) (y >>= k') R := by
  refine ⟨fun s s' hs => ?_⟩
  obtain ⟨a, a', t, t', hxs, hys, hend⟩ | ⟨e, e', t, t', hxs, hys, he⟩ |
    ⟨hslack, ⟨place, detail, t, hxs⟩ | ⟨place, detail, t, hys⟩⟩ := hx.ends s s' hs
  · rw [Service.bind_of_ok hxs, Service.bind_of_ok hys]
    exact (hk a a').ends t t' hend
  · exact .inr (.inl ⟨e, e', t, t', Service.bind_of_error hxs, Service.bind_of_error hys, he⟩)
  · exact .inr (.inr ⟨hslack, .inl ⟨place, detail, t, Service.bind_of_error hxs⟩⟩)
  · exact .inr (.inr ⟨hslack, .inr ⟨place, detail, t, Service.bind_of_error hys⟩⟩)

section
variable {P : Host → Host → Prop} {Q : α → α → Host → Host → Prop} {place place' : String}
  (hplace : SameBut path path' place place')
include hplace

/-- Looking at files in both. -/
theorem look {op op' : Tree → Place → Except Fault α}
    (hop : ∀ h h', P h h' → EndAlike slack (fun a a' => Q a a' h h') (op h.files h.cwd)
      (op' h'.files h'.cwd)) :
    Couples slack path path' P (Service.look place op) (Service.look place' op') Q := by
  refine ⟨fun h h' hP => ?_⟩
  unfold Service.look
  obtain ⟨a, a', hx, hy, hend⟩ | ⟨fault, hx, hy⟩ | ⟨hslack, ⟨fault, hx, -⟩ | ⟨fault, hy, -⟩⟩ :=
    hop h h' hP
  · rw [hx, hy]
    exact .inl ⟨a, a', h, h', rfl, rfl, hend⟩
  · rw [hx, hy]
    exact .inr (.inl ⟨_, _, h, h', rfl, rfl, hplace, rfl⟩)
  · rw [hx]
    exact .inr (.inr ⟨hslack, .inl ⟨_, _, h, rfl⟩⟩)
  · rw [hy]
    exact .inr (.inr ⟨hslack, .inr ⟨_, _, h', rfl⟩⟩)

/-- Working on files in both. -/
theorem onFiles {op op' : Tree → Place → Except Fault (α × Tree)}
    (hop : ∀ h h', P h h' → EndAlike slack
      (fun a a' => Q a.1 a'.1 { h with files := a.2 } { h' with files := a'.2 })
      (op h.files h.cwd) (op' h'.files h'.cwd)) :
    Couples slack path path' P (Service.onFiles place op) (Service.onFiles place' op') Q := by
  refine ⟨fun h h' hP => ?_⟩
  unfold Service.onFiles
  obtain ⟨a, a', hx, hy, hend⟩ | ⟨fault, hx, hy⟩ | ⟨hslack, ⟨fault, hx, -⟩ | ⟨fault, hy, -⟩⟩ :=
    hop h h' hP
  · rw [hx, hy]
    exact .inl ⟨a.1, a'.1, _, _, rfl, rfl, hend⟩
  · rw [hx, hy]
    exact .inr (.inl ⟨_, _, h, h', rfl, rfl, hplace, rfl⟩)
  · rw [hx]
    exact .inr (.inr ⟨hslack, .inl ⟨_, _, h, rfl⟩⟩)
  · rw [hy]
    exact .inr (.inr ⟨hslack, .inr ⟨_, _, h', rfl⟩⟩)

end

end Couples

/-! ## Two workspaces -/

/-- The path of names below a path. -/
def Path.below (path : String) (names : List String) : String :=
  names.foldl Path.join path

/-- Names that lead down from a directory. -/
def Path.LeadDown (names : List String) : Prop :=
  names ≠ [] ∧ ∀ name ∈ names, IsPlain name ∧ name ≠ ".."

namespace Path.LeadDown

variable {path : String} (hpath : IsOpen path) {names : List String} (h : LeadDown names)
include h

theorem snoc : ∃ front name, names = front ++ [name] ∧ (front = [] ∨ LeadDown front) ∧
    IsPlain name ∧ name ≠ ".." := by
  obtain rfl | ⟨front, name, rfl⟩ := List.eq_nil_or_concat names
  · exact absurd rfl h.1
  rw [List.concat_eq_append] at h
  refine ⟨front, name, List.concat_eq_append, ?_, h.2 name (by simp)⟩
  obtain rfl | hne := eq_or_ne front []
  · exact .inl rfl
  · exact .inr ⟨hne, fun n hn => h.2 n (List.mem_append_left _ hn)⟩

theorem isOpen : IsOpen (below path names) := by
  obtain ⟨front, name, rfl, -, hname⟩ := h.snoc
  rw [below, List.foldl_append]
  exact isOpen_join hname.1 _

include hpath

theorem continues : Continues path names (below path names) := by
  induction names using List.reverseRecOn with
  | nil => exact absurd rfl h.1
  | append_singleton front name ih =>
    have hname := h.2 name (by simp)
    rw [below, List.foldl_append]
    obtain rfl | hne := eq_or_ne front []
    · exact continues_join hpath hname
    · have hfront : LeadDown front := ⟨hne, fun n hn => h.2 n (List.mem_append_left _ hn)⟩
      exact (ih hfront).join hfront.isOpen hname

end Path.LeadDown

/-- What stands behind a path does not depend on it. -/
theorem Path.LeadDown.sameBut {path path' : String} {names : List String} (h : LeadDown names)
    (hpath : IsOpen path) (hpath' : IsOpen path') :
    SameBut path path' (below path names) (below path' names) := by
  have hrest : ∃ rest, ∀ base, IsOpen base → below base names = base ++ rest := by
    clear hpath hpath'
    induction names using List.reverseRecOn with
    | nil => exact absurd rfl h.1
    | append_singleton front name ih =>
      have hname := isAbsolute_eq_false (h.2 name (by simp)).1.noSlash
      obtain rfl | hne := eq_or_ne front []
      · exact ⟨"/" ++ name, fun base hbase => by
          rw [← String.append_assoc]
          exact join_of_isOpen hbase hname⟩
      · have hfront : LeadDown front := ⟨hne, fun n hn => h.2 n (List.mem_append_left _ hn)⟩
        obtain ⟨rest, hrest⟩ := ih hfront
        refine ⟨rest ++ "/" ++ name, fun base hbase => ?_⟩
        have hopen : IsOpen (below base front) := hfront.isOpen
        rw [below, List.foldl_append]
        exact (join_of_isOpen hopen hname).trans (by
          rw [hrest base hbase, String.append_assoc, String.append_assoc, String.append_assoc])
  obtain ⟨rest, hrest⟩ := hrest
  rw [hrest path hpath, hrest path' hpath']
  exact sameBut_append path path' rest

/-- Where a build works: the directory that its paths are resolved from, the path of its workspace
and the place that this path leads to. -/
structure Berth where
  cwd : Place
  path : String
  ws : Place

/-- Two trees in which the workspaces of two builds hold the same, and some names lead nowhere else.
Without `slack` it is the same workspace, and its path leads there in the same way. -/
structure Files.Tree.Beside (slack : Prop) (b b' : Berth) (names : List (List String))
    (t t' : Tree) : Prop where
  twins : Twins b.ws b'.ws t t'
  sound : t.IsSound
  sound' : t'.IsSound
  reach : ∃ left left', t.Reaches b.cwd b.path b.ws left ∧
    t'.Reaches b'.cwd b'.path b'.ws left' ∧ (slack ∨ b' = b ∧ left' = left)
  stays : ∀ n ∈ names, StaysIn (t.view b.ws) n

/-- Two hosts with the same tools whose files are related. -/
structure Paired (f : ToolFunction) (b b' : Berth) (R : Tree → Tree → Prop) (h h' : Host) :
    Prop where
  calls : h.CallsOnly f
  calls' : h'.CallsOnly f
  cwd : h.cwd = b.cwd
  cwd' : h'.cwd = b'.cwd
  files : R h.files h'.files

/-- Two artifacts are the same but for the workspace. -/
structure ArtifactsAlike (b b' : Berth) (names : List (List String)) (a a' : Artifact) : Prop where
  label : a'.label = a.label
  entryName : a'.entryName = a.entryName
  path : ∃ n ∈ names, a.path = Path.below b.path n ∧ a'.path = Path.below b'.path n

section
variable {f : ToolFunction} {b b' : Berth} {R R' : Tree → Tree → Prop} {h h' : Host}

theorem Paired.imp (hpair : Paired f b b' R h h') (hR : ∀ t t', R t t' → R' t t') :
    Paired f b b' R' h h' :=
  ⟨hpair.calls, hpair.calls', hpair.cwd, hpair.cwd', hR _ _ hpair.files⟩

theorem Paired.of_files (hpair : Paired f b b' R h h') {t t' : Tree} (hR : R' t t') :
    Paired f b b' R' { h with files := t } { h' with files := t' } :=
  ⟨⟨hpair.calls.launch, hpair.calls.leftovers, hpair.calls.members⟩,
    ⟨hpair.calls'.launch, hpair.calls'.leftovers, hpair.calls'.members⟩, hpair.cwd, hpair.cwd', hR⟩

end

section
variable {f : ToolFunction} {slack : Prop} {b b' : Berth} {names : List (List String)}
  {t t' u u' : Tree}

/-- The workspaces go on to hold the same when files have changed in the same way. -/
theorem Files.Tree.Beside.of_sameShape (h : Beside slack b b' names t t')
    (htwins : Twins b.ws b'.ws u u') (hsound : u.IsSound) (hsound' : u'.IsSound)
    (hshape : t.SameShape u) (hshape' : t'.SameShape u') : Beside slack b b' names u u' := by
  obtain ⟨left, left', hreach, hreach', hexact⟩ := h.reach
  exact ⟨htwins, hsound, hsound',
    ⟨left, left', hreach.of_sameShape hshape, hreach'.of_sameShape hshape', hexact⟩,
    fun n hn => (h.stays n hn).of_sameShape hshape⟩

variable (hpath : Path.IsOpen b.path) (hpath' : Path.IsOpen b'.path)
  (hnames : ∀ n ∈ names, Path.LeadDown n)
include hpath hpath' hnames

theorem Files.Tree.Beside.resolve (h : Beside slack b b' names t t') {n : List String}
    (hn : n ∈ names) :
    EndAlike slack (SamePlace b.ws b'.ws t) (t.resolve b.cwd (Path.below b.path n))
      (t'.resolve b'.cwd (Path.below b'.path n)) := by
  obtain ⟨left, left', hreach, hreach', hexact⟩ := h.reach
  refine h.twins.resolve hreach hreach' ((hnames n hn).continues hpath)
    ((hnames n hn).continues hpath') (h.stays n hn) (hexact.imp id ?_)
  rintro ⟨rfl, rfl⟩
  exact ⟨rfl, rfl⟩

/-! ## Both archives -/

section
variable {P : Host → Host → Prop}
  (hP : ∀ h h', P h h' → Paired f b b' (Beside slack b b' names) h h')
include hP

theorem couples_entryOf {a a' : Artifact} (halike : ArtifactsAlike b b' names a a')
    (name : String) :
    Couples slack b.path b'.path P (Bundle.entryOf a name) (Bundle.entryOf a' name)
      fun e e' h h' => P h h' ∧ e' = e := by
  obtain ⟨n, hn, hat, hat'⟩ := halike.path
  have hplace : SameBut b.path b'.path a.path a'.path := by
    rw [hat, hat']
    exact (hnames n hn).sameBut hpath hpath'
  have hopen : Couples slack b.path b'.path P
      (Service.look a.path fun t cwd => t.openRead cwd a.path)
      (Service.look a'.path fun t cwd => t.openRead cwd a'.path)
      fun source source' h h' => P h h' ∧
        SourcesAlike b.ws b'.ws h.files h'.files source source' := by
    refine .look hplace fun h h' hh => ?_
    have hpair := hP h h' hh
    rw [hpair.cwd, hpair.cwd', hat, hat']
    have hsources := hpair.files.twins.openRead (hpair.files.resolve hpath hpath' hnames hn)
    refine hsources.imp ?_ id
    rintro ⟨source, source', hx, hy, halike⟩
    exact ⟨source, source', hx, hy, hh, halike⟩
  refine hopen.bind fun source source' => ?_
  split
  · exact .throw ⟨hplace, rfl⟩
  · refine Couples.bind (Q := fun data data' h h' => P h h' ∧ data' = data) (.look hplace ?_) ?_
    · rintro h h' ⟨hh, halike⟩
      have hpair := hP h h' hh
      rw [halike.readAll hpair.files.sound hpair.files.sound']
      rcases h'.files.readAll source' with fault | data
      · exact .inr (.inl ⟨fault, rfl, rfl⟩)
      · exact .inl ⟨data, data, rfl, rfl, hh, rfl⟩
    · intro data data'
      refine .assuming fun hdata => ?_
      subst hdata
      unfold Bundle.fitting
      rcases Archive.Entry.fault? ⟨name, data'⟩ with _ | fault
      · exact .pure fun h h' hh => ⟨hh, rfl⟩
      · exact .throw ⟨hplace, rfl⟩

/-- **The entries** of artifacts in both workspaces. -/
theorem couples_entriesOf {artifacts artifacts' : List Artifact}
    (halike : List.Forall₂ (ArtifactsAlike b b' names) artifacts artifacts')
    (entryNames : List String) :
    Couples slack b.path b'.path P (Bundle.entriesOf (artifacts.zip entryNames))
      (Bundle.entriesOf (artifacts'.zip entryNames)) fun e e' h h' => P h h' ∧ e' = e := by
  induction halike generalizing entryNames with
  | nil => exact .pure fun h h' hh => ⟨hh, rfl⟩
  | cons hfirst _ ih =>
    cases entryNames with
    | nil => exact .pure fun h h' hh => ⟨hh, rfl⟩
    | cons name entryNames =>
      refine (couples_entryOf hpath hpath' hnames hP hfirst name).bind fun e e' => ?_
      refine .assuming fun hentry => (ih entryNames).bind fun more more' => ?_
      subst hentry
      refine .assuming fun hmore => ?_
      subst hmore
      exact .pure fun h h' hh => ⟨hh, rfl⟩

end

omit hpath hpath' hnames in
theorem entryNames_of_alike {artifacts artifacts' : List Artifact}
    (halike : List.Forall₂ (ArtifactsAlike b b' names) artifacts artifacts') :
    Bundle.entryNames artifacts' = Bundle.entryNames artifacts := by
  have hafter (taken : List String) :
      Bundle.entryNamesAfter taken artifacts' = Bundle.entryNamesAfter taken artifacts := by
    induction halike generalizing taken with
    | nil => rfl
    | cons hfirst _ ih =>
      rw [Bundle.entryNamesAfter, Bundle.entryNamesAfter, hfirst.label, hfirst.entryName, ih]
  exact hafter []

variable (hcwd : IsReal b.cwd) (hcwd' : IsReal b'.cwd)
include hcwd hcwd'

/-- **An archive** in both workspaces. -/
theorem couples_writeArchive {n : List String} (hn : n ∈ names)
    {artifacts artifacts' : List Artifact}
    (halike : List.Forall₂ (ArtifactsAlike b b' names) artifacts artifacts') :
    Couples slack b.path b'.path (Paired f b b' (Beside slack b b' names))
      (Bundle.writeArchive (Path.below b.path n) artifacts)
      (Bundle.writeArchive (Path.below b'.path n) artifacts')
      fun _ _ => Paired f b b' (Beside slack b b' names) := by
  have hdown := hnames n hn
  have hplace := hdown.sameBut hpath hpath'
  have hopen : Couples slack b.path b'.path (Paired f b b' (Beside slack b b' names))
      (Service.onFiles (Path.below b.path n) fun t cwd => t.openWrite cwd (Path.below b.path n))
      (Service.onFiles (Path.below b'.path n) fun t cwd => t.openWrite cwd (Path.below b'.path n))
      fun sink sink' h h' => Paired f b b' (fun t t' => Beside slack b b' names t t' ∧
        SinksAlike b.ws b'.ws t t' sink sink') h h' := by
    refine .onFiles hplace fun h h' hpair => ?_
    have hbeside := hpair.files
    have hleads := hbeside.resolve hpath hpath' hnames hn
    rw [← hpair.cwd, ← hpair.cwd'] at hleads
    have hopened := hbeside.twins.openWrite hleads hbeside.sound hbeside.sound' hdown.isOpen
      hdown.isOpen
    refine hopened.imp ?_ id
    rintro ⟨⟨sink, u⟩, ⟨sink', u'⟩, hx, hy, htwins, hsinks⟩
    obtain ⟨p, hp, hat⟩ := openWrite_eq_ok hx
    obtain ⟨p', hp', hat'⟩ := openWrite_eq_ok hy
    rw [hpair.cwd] at hp
    rw [hpair.cwd'] at hp'
    have hafter : Beside slack b b' names u u' := hbeside.of_sameShape htwins
      (hat.isSound hbeside.sound hcwd hp) (hat'.isSound hbeside.sound' hcwd' hp') hat.sameShape
      hat'.sameShape
    exact ⟨_, _, hx, hy, hpair.of_files (And.intro hafter hsinks)⟩
  refine hopen.bind fun sink sink' => ?_
  rw [entryNames_of_alike halike]
  refine (couples_entriesOf hpath hpath' hnames (fun h h' hpair => hpair.imp fun _ _ h => h.1)
    halike _).bind fun entries entries' => .assuming fun hentries => ?_
  subst hentries
  refine .onFiles hplace fun h h' hpair => ?_
  obtain ⟨hbeside, hsinks⟩ := hpair.files
  obtain ⟨u, u', hx, hy, htwins⟩ | ⟨fault, hx, hy⟩ | ⟨hslack, ⟨fault, hx, hne⟩ | ⟨fault, hy, hne⟩⟩ :=
    @Twins.writeAt _ _ _ _ slack hbeside.twins _ _ hsinks 0 (Archive.write entries')
  · refine .inl ⟨((), u), ((), u'), ?_, ?_, hpair.of_files (hbeside.of_sameShape htwins
      (writeAt_isSound hx hbeside.sound) (writeAt_isSound hy hbeside.sound') (writeAt_sameShape hx)
      (writeAt_sameShape hy))⟩
    · rw [hx]
      rfl
    · rw [hy]
      rfl
  · rw [hx, hy]
    exact .inr (.inl ⟨fault, rfl, rfl⟩)
  · rw [hx]
    exact .inr (.inr ⟨hslack, .inl ⟨fault, rfl, hne⟩⟩)
  · rw [hy]
    exact .inr (.inr ⟨hslack, .inr ⟨fault, rfl, hne⟩⟩)

/-- **Both archives** in both workspaces. -/
theorem couples_assemble {a a' : ArtifactSet}
    (harchives : ∀ archive ∈ archiveNames, [archive] ∈ names)
    (hsources : List.Forall₂ (ArtifactsAlike b b' names) a.sources a'.sources)
    (hdeliverables : List.Forall₂ (ArtifactsAlike b b' names) a.deliverables a'.deliverables) :
    Couples slack b.path b'.path (Paired f b b' (Beside slack b b' names))
      (Bundle.assemble a b.path) (Bundle.assemble a' b'.path)
      fun bundle bundle' h h' => Paired f b b' (Beside slack b b' names) h h' ∧
        bundle = Path.join b.path Bundle.resultArchive ∧
        bundle' = Path.join b'.path Bundle.resultArchive := by
  have hpacked : [Bundle.sourcesArchive] ∈ names := harchives _ (by simp [archiveNames])
  have hresult : [Bundle.resultArchive] ∈ names := harchives _ (by simp [archiveNames])
  refine (couples_writeArchive hpath hpath' hnames hcwd hcwd' hpacked hsources).bind fun _ _ => ?_
  have hfirst : ArtifactsAlike b b' names
      ⟨"sources", Path.join b.path Bundle.sourcesArchive, Bundle.sourcesArchive⟩
      ⟨"sources", Path.join b'.path Bundle.sourcesArchive, Bundle.sourcesArchive⟩ :=
    ⟨rfl, rfl, _, hpacked, rfl, rfl⟩
  refine (couples_writeArchive hpath hpath' hnames hcwd hcwd' hresult
    (.cons hfirst hdeliverables)).bind fun _ _ => ?_
  exact .pure fun h h' hpair => ⟨hpair, rfl, rfl⟩

end

/-! ## The stages -/

/-- The tools of two commands do the same: both are refused alike, or both end alike within the limit
and say the same but for the path of the workspace. -/
def DoAlike (f : ToolFunction) (limit : Nat) (b b' : Berth) (c c' : Stage.Command) (t t' : Tree) :
    Prop :=
  match f t b.cwd b.path c.program c.args, f t' b'.cwd b'.path c'.program c'.args with
  | .error fault, .error fault' => fault' = fault
  | .ok d, .ok d' => d'.statusWithin limit = d.statusWithin limit ∧
      SameBut b.path b'.path (Utf8.decodeLossy (d.heard limit)) (Utf8.decodeLossy (d'.heard limit))
  | _, _ => False

/-- What stands at a path can be seen, unless nothing is there. -/
def Files.Tree.CanLook (t : Tree) (cwd : Place) (path : String) : Prop :=
  ¬ IsHindered (t.stat cwd path)

namespace Stage

section
variable {f : ToolFunction} {slack : Prop} {b b' : Berth} {names outs : List (List String)}
  {limit : Nat} {c c' : Command}
  (hpath : Path.IsOpen b.path) (hpath' : Path.IsOpen b'.path)
  (hnames : ∀ n ∈ names, Path.LeadDown n) (houts : ∀ n ∈ outs, n ∈ names)
include hpath hpath' hnames

/-- The same outputs are there. -/
theorem isPresent_alike {t t' : Tree} (h : Beside slack b b' names t t') {n : List String}
    (hn : n ∈ names) (hclear : slack → t.CanLook b.cwd (Path.below b.path n) ∧
      t'.CanLook b'.cwd (Path.below b'.path n)) :
    isPresent { files := t', cwd := b'.cwd } (Path.below b'.path n) =
      isPresent { files := t, cwd := b.cwd } (Path.below b.path n) := by
  have hstat := h.twins.stat (h.resolve hpath hpath' hnames hn)
  unfold isPresent
  obtain ⟨m, m', hx, hy, halike, -⟩ | ⟨fault, hx, hy⟩ | ⟨hslack, hhindered | hhindered⟩ := hstat
  · rw [hx, hy]
    cases halike <;> rfl
  · rw [hx, hy]
  · exact absurd hhindered (hclear hslack).1
  · exact absurd hhindered (hclear hslack).2

variable (houtputs : c.outputs = outs.map (Path.below b.path))
  (houtputs' : c'.outputs = outs.map (Path.below b'.path))
include houts houtputs houtputs'

/-- Commands whose tools do the same fail for the same reason. -/
theorem failureBy_alike {t t' : Tree} (hdo : DoAlike f limit b b' c c' t t')
    (hafter : Beside slack b b' names (leftBy f b.cwd b.path limit c t)
      (leftBy f b'.cwd b'.path limit c' t'))
    (hclear : slack → ∀ n ∈ outs,
      (leftBy f b.cwd b.path limit c t).CanLook b.cwd (Path.below b.path n) ∧
        (leftBy f b'.cwd b'.path limit c' t').CanLook b'.cwd (Path.below b'.path n)) :
    (failureBy f b.cwd b.path limit c t = none ∧
      failureBy f b'.cwd b'.path limit c' t' = none) ∨
    ∃ failure failure', failureBy f b.cwd b.path limit c t = some failure ∧
      failureBy f b'.cwd b'.path limit c' t' = some failure' ∧
      failure.SameBut b.path b'.path failure' := by
  unfold failureBy
  unfold DoAlike at hdo
  unfold leftBy at hafter hclear
  rcases hf : f t b.cwd b.path c.program c.args with fault | d <;>
    rcases hf' : f t' b'.cwd b'.path c'.program c'.args with fault' | d' <;>
    rw [hf, hf'] at hdo
  · obtain rfl : fault' = fault := hdo
    exact .inr ⟨_, _, rfl, rfl, .refl _ _ _⟩
  · exact hdo.elim
  · exact hdo.elim
  · obtain ⟨hstatus, -⟩ := hdo
    rw [hf, hf'] at hafter hclear
    dsimp only at hafter hclear ⊢
    rw [hstatus]
    rcases d.statusWithin limit with _ | status
    · exact .inr ⟨_, _, rfl, rfl, .refl _ _ _⟩
    dsimp only
    rcases failureOf? (some status) with _ | failure
    · rw [Option.none_or, Option.none_or, houtputs, houtputs', List.find?_map, List.find?_map]
      have hsame : outs.find? ((!isPresent { files := d'.filesAfter limit t', cwd := b'.cwd } ·) ∘
            Path.below b'.path) =
          outs.find? ((!isPresent { files := d.filesAfter limit t, cwd := b.cwd } ·) ∘
            Path.below b.path) := by
        refine List.find?_congr fun n hn => ?_
        simp only [Function.comp_apply]
        rw [isPresent_alike hpath hpath' hnames hafter (houts n hn) fun hs => hclear hs n hn]
      rw [hsame]
      rcases hfind : outs.find? _ with _ | n
      · exact .inl ⟨rfl, rfl⟩
      · have hn := houts n (List.mem_of_find?_eq_some hfind)
        exact .inr ⟨_, _, rfl, rfl, (hnames n hn).sameBut hpath hpath'⟩
    · exact .inr ⟨_, _, rfl, rfl, .refl _ _ _⟩

/-- **One stage**, if its tool does the same in both workspaces. -/
theorem couples_run (hstage : c'.stage = c.stage) {R R' : Tree → Tree → Prop}
    (hdo : ∀ t t', R t t' → DoAlike f limit b b' c c' t t')
    (hafter : ∀ t t', R t t' → R' (leftBy f b.cwd b.path limit c t)
      (leftBy f b'.cwd b'.path limit c' t'))
    (hbeside : ∀ t t', R' t t' → Beside slack b b' names t t')
    (hclear : slack → ∀ t t', R' t t' → ∀ n ∈ outs,
      t.CanLook b.cwd (Path.below b.path n) ∧ t'.CanLook b'.cwd (Path.below b'.path n)) :
    Couples slack b.path b'.path (Paired f b b' R) (c.run b.path limit) (c'.run b'.path limit)
      fun _ _ => Paired f b b' R' := by
  refine ⟨fun h h' hpair => ?_⟩
  have hR := hafter _ _ hpair.files
  obtain ⟨u, hran, hend⟩ := run_by hpair.calls c b.path limit
  obtain ⟨u', hran', hend'⟩ := run_by hpair.calls' c' b'.path limit
  have hsaid : SameBut b.path b'.path (saidBy f b.cwd b.path limit c h.files)
      (saidBy f b'.cwd b'.path limit c' h'.files) := by
    have hdo := hdo _ _ hpair.files
    unfold DoAlike at hdo
    unfold saidBy
    rcases hf : f h.files b.cwd b.path c.program c.args with fault | d <;>
      rcases hf' : f h'.files b'.cwd b'.path c'.program c'.args with fault' | d' <;>
      rw [hf, hf'] at hdo
    · exact .refl _ _ _
    · exact hdo.elim
    · exact hdo.elim
    · exact hdo.2
  rw [hpair.cwd] at hran hend
  rw [hpair.cwd'] at hran' hend'
  obtain ⟨hnone, hnone'⟩ | ⟨failure, failure', hsome, hsome', hsame⟩ :=
    failureBy_alike hpath hpath' hnames houts houtputs houtputs' (hdo _ _ hpair.files)
      (hbeside _ _ hR) fun hs => hclear hs _ _ hR
  · rw [hnone] at hend
    rw [hnone'] at hend'
    obtain ⟨o, hrun⟩ := hend
    obtain ⟨o', hrun'⟩ := hend'
    refine .inl ⟨o, o', u, u', hrun, hrun', hran.calls, hran'.calls, ?_, ?_, ?_⟩
    · rw [hran.cwd, hpair.cwd]
    · rw [hran'.cwd, hpair.cwd']
    · rw [hran.files, hran'.files]
      exact hR
  · rw [hsome] at hend
    rw [hsome'] at hend'
    exact .inr (.inl ⟨_, _, u, u', hend, hend', hstage, hsame, hsaid⟩)

end

end Stage

/-! ## A build -/

/-- The names, behind the path of the workspace, of what a stage has to leave. -/
def Stage.outNames (supply : Role → Supply) : Stage → List (List String)
  | .grammar => [[parserSource], [parserHeader]]
  | .lexer => [[lexerSource]]
  | .link => [[(Naming.ofSupplies supply).stem ++ ".js"],
      [(Naming.ofSupplies supply).stem ++ ".wasm"]]

/-- The names, behind the path of the workspace, of all that a build looks at once its tools have
been called. -/
def lookedAt (supply : Role → Supply) : List (List String) :=
  Stage.all.flatMap (Stage.outNames supply) ++
    [storedNames supply .interpreter, storedNames supply .documentation,
      storedNames supply .example] ++ archiveNames.map fun name => [name]

section
variable {supply : Role → Supply}

theorem outNames_subset_lookedAt (s : Stage) {n : List String} (hn : n ∈ s.outNames supply) :
    n ∈ lookedAt supply := by
  refine List.mem_append_left _ (List.mem_append_left _ (List.mem_flatMap.2 ⟨s, ?_, hn⟩))
  cases s <;> decide

theorem archive_mem_lookedAt {name : String} (hname : name ∈ archiveNames) :
    [name] ∈ lookedAt supply :=
  List.mem_append_right _ (List.mem_map_of_mem hname)

theorem leadDown_storedNames (role : Role) : Path.LeadDown (storedNames supply role) :=
  ⟨by simp [storedNames], fun _ hname => isPlain_storedNames hname⟩

/-- All of these names lead down from the workspace. -/
theorem leadDown_of_mem_lookedAt {n : List String} (hn : n ∈ lookedAt supply) :
    Path.LeadDown n := by
  have hmade {name : String} (hname : name ∈ madeNames (Naming.ofSupplies supply).stem) :
      Path.LeadDown [name] :=
    ⟨List.cons_ne_nil _ _, fun m hm => by
      rw [List.mem_singleton.1 hm]
      exact isPlain_of_mem_madeNames (Naming.isSafe_ofSupplies supply) hname⟩
  have hnames : lookedAt supply = (outputNames (Naming.ofSupplies supply).stem).map (fun n => [n]) ++
      [storedNames supply .interpreter, storedNames supply .documentation,
        storedNames supply .example] ++ archiveNames.map fun name => [name] := rfl
  rw [hnames, List.mem_append, List.mem_append] at hn
  obtain (hn | hn) | hn := hn
  · obtain ⟨name, hname, rfl⟩ := List.mem_map.1 hn
    exact hmade (madeNames_eq _ ▸ List.mem_append_left _ hname)
  · simp only [List.mem_cons, List.not_mem_nil, or_false] at hn
    obtain rfl | rfl | rfl := hn <;> exact leadDown_storedNames _
  · obtain ⟨name, hname, rfl⟩ := List.mem_map.1 hn
    exact hmade (madeNames_eq _ ▸ List.mem_append_right _ hname)

theorem outputs_eq (tools : Toolchain) (path : String) (s : Stage) :
    (Stage.commandFor tools path (.ofSupplies path supply) s).outputs =
      (s.outNames supply).map (Path.below path) := by
  rw [← List.map_id (Stage.Command.outputs _)]
  cases s <;> simp [Stage.commandFor, Stage.Command.grammar, Stage.Command.lexer,
    Stage.Command.link, Stage.Command.compile, Stage.outNames, Path.below, Naming.stem_ofSupplies,
    Inputs.ofSupplies, Supply.entryName_input]

variable (b b' : Berth)

theorem artifactsAlike_made {label name : String} (hname : [name] ∈ lookedAt supply) :
    ArtifactsAlike b b' (lookedAt supply) ⟨label, Path.join b.path name, name⟩
      ⟨label, Path.join b'.path name, name⟩ :=
  ⟨rfl, rfl, [name], hname, rfl, rfl⟩

theorem artifactsAlike_stored {label : String} {role : Role}
    (hrole : storedNames supply role ∈ lookedAt supply) :
    ArtifactsAlike b b' (lookedAt supply) (.ofInput label ((supply role).input b.path role))
      (.ofInput label ((supply role).input b'.path role)) :=
  ⟨rfl, rfl, _, hrole, rfl, rfl⟩

/-- The artifacts of two builds of the same inputs. -/
theorem artifacts_alike :
    let a := Stage.artifacts b.path (.ofSupplies b.path supply)
    let a' := Stage.artifacts b'.path (.ofSupplies b'.path supply)
    List.Forall₂ (ArtifactsAlike b b' (lookedAt supply)) a.sources a'.sources ∧
      List.Forall₂ (ArtifactsAlike b b' (lookedAt supply)) a.deliverables a'.deliverables := by
  have hmade (s : Stage) {label name : String} (hname : [name] ∈ s.outNames supply) :=
    @artifactsAlike_made supply b b' label name (outNames_subset_lookedAt s hname)
  have hstored {label : String} {role : Role} (hrole : storedNames supply role ∈ lookedAt supply) :=
    @artifactsAlike_stored supply b b' label role hrole
  simp only [Stage.artifacts, ArtifactSet.sources, ArtifactSet.deliverables, Inputs.ofSupplies,
    Supply.entryName_input, ← Naming.stem_ofSupplies]
  refine ⟨.cons (hmade .lexer ?_) (.cons (hmade .grammar ?_) (.cons (hstored ?_) .nil)),
    .cons (hmade .link ?_) (.cons (hmade .link ?_) (.cons (hstored ?_) (.cons (hstored ?_) .nil)))⟩
  all_goals simp [lookedAt, Stage.outNames]

end

/-- The files that the tool of a stage leaves in a workspace with some inputs. -/
def Berth.after (b : Berth) (f : ToolFunction) (tools : Toolchain) (supply : Role → Supply)
    (s : Stage) (t : Tree) : Tree :=
  Stage.leftBy f b.cwd b.path tools.stageTimeout
    (Stage.commandFor tools b.path (.ofSupplies b.path supply) s) t

/-- Trees related by `R` have workspaces that hold the same, and the tools keep it so. -/
structure KeepsBeside (f : ToolFunction) (slack : Prop) (tools : Toolchain)
    (supply : Role → Supply) (b b' : Berth) (R : Tree → Tree → Prop) : Prop where
  beside : ∀ t t', R t t' → Beside slack b b' (lookedAt supply) t t'
  does : ∀ t t', R t t' → ∀ s, DoAlike f tools.stageTimeout b b'
    (Stage.commandFor tools b.path (.ofSupplies b.path supply) s)
    (Stage.commandFor tools b'.path (.ofSupplies b'.path supply) s) t t'
  goes_on : ∀ t t', R t t' → ∀ s, R (b.after f tools supply s t) (b'.after f tools supply s t')
  clear : slack → ∀ t t', R t t' → ∀ s, ∀ n ∈ Stage.outNames supply s,
    t.CanLook b.cwd (Path.below b.path n) ∧ t'.CanLook b'.cwd (Path.below b'.path n)

section
variable {f : ToolFunction} {slack : Prop} {supply : Role → Supply} {b b' : Berth}
  {R : Tree → Tree → Prop} (hpath : Path.IsOpen b.path) (hpath' : Path.IsOpen b'.path)
include hpath hpath'

/-- **One stage** of two builds of the same inputs. -/
theorem couples_stage {tools : Toolchain} (hkeeps : KeepsBeside f slack tools supply b b' R)
    (s : Stage) :
    Couples slack b.path b'.path (Paired f b b' R)
      ((Stage.commandFor tools b.path (.ofSupplies b.path supply) s).run b.path
        tools.stageTimeout)
      ((Stage.commandFor tools b'.path (.ofSupplies b'.path supply) s).run b'.path
        tools.stageTimeout)
      fun _ _ => Paired f b b' R := by
  refine Stage.couples_run hpath hpath' (fun _ => leadDown_of_mem_lookedAt)
    (fun _ => outNames_subset_lookedAt s) (outputs_eq tools b.path s) (outputs_eq tools b'.path s)
    ?_ (fun t t' hR => hkeeps.does t t' hR s) (fun t t' hR => hkeeps.goes_on t t' hR s)
    hkeeps.beside fun hslack t t' hR => hkeeps.clear hslack t t' hR s
  rw [Stage.commandFor_stage, Stage.commandFor_stage]

variable (hcwd : IsReal b.cwd) (hcwd' : IsReal b'.cwd)
include hcwd hcwd'

/-- **Two builds** of the same inputs. -/
theorem couples_build {p p' : Pipeline} (htools : p'.tools = p.tools)
    (hkeeps : KeepsBeside f slack p.tools supply b b' R) :
    Couples slack b.path b'.path (Paired f b b' R)
      (p.build b.path (.ofSupplies b.path supply)) (p'.build b'.path (.ofSupplies b'.path supply))
      fun bundle bundle' h h' => Paired f b b' (Beside slack b b' (lookedAt supply)) h h' ∧
        bundle = Path.join b.path Bundle.resultArchive ∧
        bundle' = Path.join b'.path Bundle.resultArchive := by
  have hstages : Couples slack b.path b'.path (Paired f b b' R)
      (Stage.runAll p.tools b.path (.ofSupplies b.path supply))
      (Stage.runAll p'.tools b'.path (.ofSupplies b'.path supply))
      fun a a' h h' => Paired f b b' R h h' ∧
        a = Stage.artifacts b.path (.ofSupplies b.path supply) ∧
        a' = Stage.artifacts b'.path (.ofSupplies b'.path supply) := by
    rw [htools]
    refine (couples_stage hpath hpath' hkeeps .grammar).bind fun _ _ => ?_
    refine (couples_stage hpath hpath' hkeeps .lexer).bind fun _ _ => ?_
    refine (couples_stage hpath hpath' hkeeps .link).bind fun _ _ => ?_
    exact .pure fun h h' hpair => ⟨hpair, rfl, rfl⟩
  refine hstages.bind fun a a' => ?_
  refine .assuming fun ⟨ha, ha'⟩ => ?_
  subst ha ha'
  obtain ⟨hsources, hdeliverables⟩ := @artifacts_alike supply b b'
  exact (couples_assemble hpath hpath' (fun _ => leadDown_of_mem_lookedAt) hcwd hcwd'
    (fun _ => archive_mem_lookedAt) hsources hdeliverables).imp
      (fun h h' hpair => hpair.imp hkeeps.beside) fun _ _ _ _ h => h

end

end LangBundle
