import LangBundle.Proofs.Ownership

/-!
# Removals that fail

A guard tries to remove its directory once.  As long as that does not fail, a guard that counts as
released has had its directory removed.  After a failure it counts as released all the same, and
whoever releases or drops it then leaves the directory where it is.

* `Tenure`: a guard, its host, and all that has happened since the directory was made.
* `vacated_of_release`: **a removal that succeeds** leaves nothing at the path.
* `Tenure.Settled.step`: **each step** keeps what is known of the guard.
* `Tenure.accounts_of_runs`: **what a guard says** of its directory, and when that is so.
-/

namespace LangBundle

open Files Files.Tree

/-! ## One removal -/

section
variable {t : Tree} {cwd ws : Place} {path : String}
  (hleads : t.resolve cwd path false = .ok ws) (hroot : ws ≠ [])
include hleads hroot

/-- **A removal that succeeds**, or that finds nothing, leaves nothing at the path. -/
theorem Files.Tree.vacated_of_removeDirectoryTree (habove : t.get? ws.dropLast ≠ none)
    (hok : (t.removeDirectoryTree cwd path).1 = .ok () ∨
      (t.removeDirectoryTree cwd path).1 = .error .notFound) :
    (t.removeDirectoryTree cwd path).2.get? ws = none := by
  obtain ⟨n, hn⟩ := Option.ne_none_iff_exists'.1 habove
  have hgone : (t.erase ws).get? ws = none := by
    rw [get?_erase t hroot, if_pos (List.prefix_refl ws)]
  revert hok
  rw [removeDirectoryTree, hleads]
  dsimp only
  split
  · next hnone => exact fun _ => hnone
  · rcases hrequire : t.requireAbove ws with fault | _
    · rw [requireAbove_eq_error hn hrequire]
      rintro (h | h) <;> cases h
    · exact fun _ => hgone
  · split
    · rintro (h | h) <;> cases h
    · rcases hrequire : t.requireAbove ws with fault | _
      · rw [requireAbove_eq_error hn hrequire]
        rintro (h | h) <;> cases h
      · exact fun _ => hgone
  · rintro (h | h) <;> cases h

end

/-- What comes of a release that tries to remove the directory. -/
theorem Workspace.release_result {w : Workspace} {h : Host} (hlive : w.released = false) :
    (w.release h).1 = .ok () ↔ (h.files.removeDirectoryTree h.cwd w.path).1 = .ok () ∨
      (h.files.removeDirectoryTree h.cwd w.path).1 = .error .notFound := by
  rw [Workspace.release, if_neg (by simp [hlive])]
  dsimp only
  generalize h.files.removeDirectoryTree h.cwd w.path = removed
  obtain ⟨fault | _, t⟩ := removed
  · cases fault <;> simp
  · simp

/-- **A release that succeeds** leaves nothing at the path. -/
theorem vacated_of_release {w : Workspace} {h : Host} {ws : Place} (hlive : w.released = false)
    (hleads : h.files.resolve h.cwd w.path false = .ok ws) (hroot : ws ≠ [])
    (habove : h.files.get? ws.dropLast ≠ none) (hok : (w.release h).1 = .ok ()) :
    (w.release h).2.2.files.get? ws = none := by
  rw [(Estate.release_of_live hlive).2.1]
  exact vacated_of_removeDirectoryTree hleads hroot habove ((Workspace.release_result hlive).1 hok)

/-! ## A guard and its directory -/

/-- A guard, its host, and what has happened since its directory was made. -/
structure Tenure where
  guard : Workspace
  host : Host
  /-- The files at every moment so far, the newest first. -/
  trees : List Tree
  /-- What came of the attempts to end the use of the directory, the newest first. -/
  ends : List (Except BuildError Unit)

namespace Tenure

/-- A directory has just been made. -/
def start (w : Workspace) (h : Host) : Tenure :=
  ⟨w, h, [h.files], []⟩

/-- Its use has been ended, once more perhaps, which has left a host. -/
def ended (s : Tenure) (h : Host) : Tenure :=
  { guard := (s.guard.release s.host).2.1, host := h, trees := h.files :: s.trees
    ends := (s.guard.release s.host).1 :: s.ends }

/-- Somebody else has changed the files. -/
def changed (s : Tenure) (t : Tree) : Tenure :=
  { s with host := { s.host with files := t }, trees := t :: s.trees }

/-- What may happen next to the guard of the directory at a place. -/
inductive Step (ws : Place) : Tenure → Tenure → Prop
  /-- It is released, whatever comes of that. -/
  | release (s : Tenure) : Step ws s (s.ended (s.guard.release s.host).2.2)
  /-- It is dropped. -/
  | drop (s : Tenure) : Step ws s (s.ended (s.guard.drop s.host))
  /-- It is released, and the removal breaks off: any part of the directory may be left. -/
  | cutShort {s : Tenure} {t : Tree} (detail : String) (hlive : s.guard.released = false)
      (hoff : ∀ q, IsReal q → ¬ ws <+: q → t.get? q = s.host.files.get? q) : Step ws s
      { guard := { s.guard with released := true }, host := { s.host with files := t }
        trees := t :: s.trees, ends := .error (.io s.guard.path detail) :: s.ends }
  /-- Somebody else changes what is at the path, or below it. -/
  | outside {s : Tenure} {t : Tree}
      (hoff : ∀ q, IsReal q → ¬ ws <+: q → t.get? q = s.host.files.get? q) :
      Step ws s (s.changed t)

/-- What may become of a guard. -/
abbrev Runs (ws : Place) : Tenure → Tenure → Prop :=
  Relation.ReflTransGen (Step ws)

/-- The directory has been removed: at some moment there was none. -/
def IsVacated (ws : Place) (s : Tenure) : Prop :=
  ∃ t ∈ s.trees, ∀ mode, t.get? ws ≠ some (.directory mode)

/-- A guard whose word can be relied on. -/
structure IsUpright (ws : Place) (s : Tenure) : Prop where
  /-- A release that failed leaves it unreleased. -/
  unmarked : ∀ e, s.ends.head? = some (.error e) → s.guard.released = false
  /-- If it counts as released, its directory has been removed. -/
  removed : s.guard.released = true → s.IsVacated ws
  /-- As long as no attempt has succeeded, the next one removes what is at the path as soon as that can
  be removed, a drop as well as a release. -/
  retried : (∀ r ∈ s.ends, r ≠ .ok ()) →
    (s.host.files.removeDirectoryTree s.host.cwd s.guard.path).1 = .ok () →
    (s.guard.release s.host).1 = .ok () ∧ (s.guard.release s.host).2.1.released = true ∧
      (s.guard.release s.host).2.2.files.get? ws = none ∧
      (s.guard.drop s.host).files.get? ws = none

/-- What a guard has to say of its directory. -/
structure Accounts (ws : Place) (s : Tenure) : Prop where
  /-- It counts as released once there was an attempt, whatever came of it. -/
  marked : s.guard.released = true ↔ s.ends ≠ []
  /-- Its word can be relied on as long as no attempt has failed. -/
  upright : (∀ r ∈ s.ends, r = .ok ()) → s.IsUpright ws
  /-- After the first attempt nothing is tried any more. -/
  spent : s.ends ≠ [] →
    s.guard.release s.host = (.ok (), s.guard, s.host) ∧ s.guard.drop s.host = s.host

/-- What is known of a guard whose directory was made in a tree. -/
structure Settled (base : Tree) (cwd ws : Place) (s : Tenure) : Prop where
  cwd_eq : s.host.cwd = cwd
  retains : base.Retains s.host.files
  leads : ∀ t, base.Retains t → t.resolve cwd s.guard.path false = .ok ws
  marked : s.guard.released = true ↔ s.ends ≠ []
  removed : (∀ r ∈ s.ends, r = .ok ()) → s.guard.released = true → s.IsVacated ws

section
variable {base : Tree} {cwd ws : Place} {s s' : Tenure}

/-- What has once been so has been so at a later moment, too. -/
theorem IsVacated.later (h : s.IsVacated ws) {t : Tree} (htrees : s'.trees = t :: s.trees) :
    s'.IsVacated ws := by
  obtain ⟨u, hu, hnone⟩ := h
  exact ⟨u, by rw [htrees]; exact .tail _ hu, hnone⟩

/-- Where a directory is to be made, and the directory that it is made in. -/
structure Ground (base : Tree) (ws : Place) : Prop where
  new : ∀ q, IsReal q → ws <+: q → base.get? q = none
  root : ws ≠ []
  above : base.get? ws.dropLast ≠ none
  real : IsReal ws

variable (hground : Ground base ws)
include hground

/-- **Changes at the path** keep what was there at the beginning. -/
theorem Settled.retains_of_off (h : s.Settled base cwd ws) {t : Tree}
    (hoff : ∀ q, IsReal q → ¬ ws <+: q → t.get? q = s.host.files.get? q) : base.Retains t := by
  intro q n hq hn
  have hnot : ¬ ws <+: q := fun hbelow => by simp [hground.new q hq hbelow] at hn
  rw [hoff q hq hnot]
  exact h.retains q n hq hn

theorem Settled.above (h : s.Settled base cwd ws) : s.host.files.get? ws.dropLast ≠ none := by
  obtain ⟨n, hn⟩ := Option.ne_none_iff_exists'.1 hground.above
  simp [h.retains _ n hground.real.dropLast hn]

/-- **A removal that succeeds** leaves nothing there. -/
theorem Settled.vacated (h : s.Settled base cwd ws) (hlive : s.guard.released = false)
    (hok : (s.guard.release s.host).1 = .ok ()) :
    (s.guard.release s.host).2.2.files.get? ws = none :=
  vacated_of_release hlive (h.cwd_eq ▸ h.leads _ h.retains) hground.root (h.above hground) hok

/-- **An attempt** to end the use of the directory. -/
theorem Settled.attempt (h : s.Settled base cwd ws) :
    (s.ended (s.guard.release s.host).2.2).Settled base cwd ws := by
  rw [ended]
  rcases hreleased : s.guard.released with _ | _
  · have hleads := h.leads _ h.retains
    rw [← h.cwd_eq] at hleads
    obtain ⟨hguard, hcwd, hoff⟩ := Estate.release_off hreleased hleads hground.root
    refine ⟨hcwd.trans h.cwd_eq, h.retains_of_off hground fun q _ => hoff q, ?_, by simp [hguard],
      fun hok _ => ?_⟩
    · simpa only [hguard] using h.leads
    · have hnone := h.vacated hground hreleased (hok _ (.head _))
      exact ⟨_, .head _, by simp [hnone]⟩
  · rw [Estate.release_of_released hreleased]
    exact ⟨h.cwd_eq, h.retains, h.leads, by simp [hreleased], fun hok hmarked =>
      (h.removed (fun r hr => hok r (.tail _ hr)) hmarked).later rfl⟩

/-- **Each step** keeps what is known of the guard. -/
theorem Settled.step (h : s.Settled base cwd ws) (hstep : Step ws s s') :
    s'.Settled base cwd ws := by
  cases hstep with
  | release => exact h.attempt hground
  | drop => exact h.attempt hground
  | cutShort detail hlive hoff =>
    exact ⟨h.cwd_eq, h.retains_of_off hground hoff, h.leads, by simp,
      fun hok _ => by cases hok _ (.head _)⟩
  | outside hoff =>
    exact ⟨h.cwd_eq, h.retains_of_off hground hoff, h.leads, h.marked,
      fun hok hmarked => (h.removed hok hmarked).later rfl⟩

/-- **What is known of a guard** is what it has to say. -/
theorem Settled.accounts (h : s.Settled base cwd ws) : s.Accounts ws := by
  refine ⟨h.marked, fun hok => ⟨fun e he => ?_, h.removed hok, fun hfailed hremove => ?_⟩,
    fun hends => ?_⟩
  · cases hok _ (List.mem_of_mem_head? he)
  · have hnever : s.ends = [] :=
      List.eq_nil_iff_forall_not_mem.2 fun r hr => hfailed r hr (hok r hr)
    have hlive : s.guard.released = false := by
      simpa [hnever] using h.marked
    have hrelease := (Workspace.release_result hlive).2 (.inl hremove)
    have hnone := h.vacated hground hlive hrelease
    exact ⟨hrelease, by rw [(Estate.release_of_live hlive).1], hnone, hnone⟩
  · have hreleased := Estate.release_of_released (h := s.host) (h.marked.2 hends)
    exact ⟨hreleased, by rw [Workspace.drop, hreleased]⟩

end

/-- **A directory that has just been made.** -/
theorem settled_start {p : Pipeline} {h h₀ : Host} {w : Workspace} {ws : Place}
    (hsound : h.files.IsSound) (hcwd : IsReal h.cwd) (hacquire : p.acquireWorkspace h = .ok w h₀)
    (hleads : h.files.resolve h.cwd w.path false = .ok ws) :
    Ground h.files ws ∧ (start w h₀).Settled h.files h.cwd ws := by
  obtain ⟨⟨-, hlive⟩, -, hcwd₀, ws', hsite, hfiles⟩ := site_of_acquireWorkspace hsound hcwd hacquire
  obtain rfl : ws = ws' := Except.ok.inj (hleads.symm.trans hsite.leads)
  obtain ⟨n, hn, -⟩ := requireAbove_eq_ok hsite.above
  -- the guard of the directory is the first one of an estate
  have hruns : Estate.Runs p ⟨h, []⟩ ⟨h₀, [w]⟩ := .single (.acquire hacquire)
  obtain hnobody | ⟨R, -, hheld⟩ := Estate.held_of_runs hsound hcwd rfl hruns
  · cases hnobody
  obtain ⟨name, howns, -⟩ := hheld.owned 0 w rfl
  obtain rfl : ws = R ++ [name] := Except.ok.inj (hleads.symm.trans (howns.leads _ (.refl _)))
  exact ⟨⟨fun q hq => howns.base_none hsound hq, hsite.ne_nil,
      fun hnone => (by rw [hnone] at hn; cases hn), hsite.isReal⟩,
    hcwd₀, hheld.retains, howns.leads, by simp [start, hlive], by simp [start, hlive]⟩

/-- **However a guard is released and dropped**, and whatever others do at its path meanwhile: its
first attempt to remove the directory is its last one, and its word can be relied on as long as that
has not failed. -/
theorem accounts_of_runs {p : Pipeline} {h h₀ : Host} {w : Workspace} {ws : Place} {s : Tenure}
    (hsound : h.files.IsSound) (hcwd : IsReal h.cwd) (hacquire : p.acquireWorkspace h = .ok w h₀)
    (hleads : h.files.resolve h.cwd w.path false = .ok ws) (hruns : Runs ws (start w h₀) s) :
    s.Accounts ws := by
  obtain ⟨hground, hstart⟩ := settled_start hsound hcwd hacquire hleads
  have hsettled : s.Settled h.files h.cwd ws := by
    induction hruns with
    | refl => exact hstart
    | tail _ hstep ih => exact ih.step hground hstep
  exact hsettled.accounts hground

/-! ## A directory that is replaced by a file for a while -/

/-- A workspace has just been made below the root. -/
theorem acquire_stubbornHost : ∃ w h₀,
    Pipeline.acquireWorkspace ⟨"/", usualTools⟩ Estate.stubbornHost = .ok w h₀ ∧
      w.path = firstPath ∧ w.released = false ∧ h₀.cwd = [] ∧
      h₀.files = precious.put firstPlace (.directory Workspace.mode) := by
  have hnext : Pipeline.nextWorkspace ⟨"/", usualTools⟩ Estate.stubbornHost = firstPath := by
    decide +kernel
  have hsite : Estate.stubbornHost.files.Site Estate.stubbornHost.cwd firstPath firstPlace :=
    site_staleHost
  obtain ⟨w, h₀, hacquire⟩ := acquireWorkspace_ok (p := ⟨"/", usualTools⟩)
    (h := Estate.stubbornHost) (hnext ▸ hsite)
  obtain ⟨⟨hpath, hlive⟩, -, hcwd, ws, hsite', hfiles⟩ :=
    site_of_acquireWorkspace isSound_precious isReal_nil hacquire
  rw [hpath, hnext] at hsite'
  obtain rfl := Except.ok.inj (hsite.leads.symm.trans hsite'.leads)
  exact ⟨w, h₀, hacquire, hpath.trans hnext, hlive, hcwd, hfiles⟩

/-- The workspace as it was made, a file in its place, and a directory there again. -/
def madeTree : Tree :=
  precious.put firstPlace (.directory Workspace.mode)

@[inherit_doc madeTree]
def blockedTree : Tree :=
  madeTree.put firstPlace (.file 1 fileMode [7])

@[inherit_doc madeTree]
def restoredTree : Tree :=
  blockedTree.put firstPlace (.directory Workspace.mode)

theorem removeDirectoryTree_blockedTree :
    blockedTree.removeDirectoryTree [] firstPath = (.error .notDirectory, blockedTree) := by
  have hleads : blockedTree.resolve [] firstPath false = .ok firstPlace := by decide +kernel
  have hfile : blockedTree.get? firstPlace = some (.file 1 fileMode [7]) :=
    get?_put_self _ _ (List.cons_ne_nil _ _)
  simp only [removeDirectoryTree, hleads, hfile]

theorem removeDirectoryTree_restoredTree :
    (restoredTree.removeDirectoryTree [] firstPath).1 = .ok () := by
  decide +kernel

/-- Somebody else puts a node at the place of the workspace. -/
theorem step_changed {s : Tenure} {n : Node} :
    Step firstPlace s (s.changed (s.host.files.put firstPlace n)) :=
  .outside fun _ _ hq => get?_put_of_ne _ _ fun heq => hq (heq ▸ List.prefix_refl _)

/-- A file takes the place of the workspace. -/
theorem step_blocked {s : Tenure} (hfiles : s.host.files = madeTree) :
    Step firstPlace s (s.changed blockedTree) := by
  have h := step_changed (s := s) (n := .file 1 fileMode [7])
  rwa [hfiles] at h

/-- There is a directory again. -/
theorem step_restored {s : Tenure} (hfiles : s.host.files = blockedTree) :
    Step firstPlace s (s.changed restoredTree) := by
  have h := step_changed (s := s) (n := .directory Workspace.mode)
  rwa [hfiles] at h

/-- A file takes the place of the workspace and is replaced by a directory again: the release that
follows removes it. -/
theorem accounts_of_restored : ∃ w h₀ s,
    (Estate.stubbornHost.files.IsSound ∧ IsReal Estate.stubbornHost.cwd ∧
      Pipeline.acquireWorkspace ⟨"/", usualTools⟩ Estate.stubbornHost = .ok w h₀ ∧
      Estate.stubbornHost.files.resolve Estate.stubbornHost.cwd w.path false = .ok firstPlace ∧
      Runs firstPlace (start w h₀) s) ∧
    s.ends = [.ok (), .ok ()] ∧ s.Accounts firstPlace := by
  obtain ⟨w, h₀, hacquire, hpath, hlive, hcwd, hfiles⟩ := acquire_stubbornHost
  have hleads : Estate.stubbornHost.files.resolve Estate.stubbornHost.cwd w.path false =
      .ok firstPlace := hpath ▸ site_staleHost.leads
  let s := ((start w h₀).changed blockedTree).changed restoredTree
  have hruns := (((Relation.ReflTransGen.single (step_blocked (s := start w h₀) hfiles)).tail
    (step_restored rfl)).tail (.release s)).tail (.drop _)
  have hrelease : (s.guard.release s.host).1 = .ok () := by
    refine (Workspace.release_result hlive).2 (.inl ?_)
    change (restoredTree.removeDirectoryTree h₀.cwd w.path).1 = .ok ()
    rw [hpath, hcwd, removeDirectoryTree_restoredTree]
  have hreleased : (s.guard.release s.host).2.1.released = true :=
    congrArg Workspace.released (Estate.release_of_live (h := s.host) hlive).1
  refine ⟨w, h₀, _, ⟨isSound_precious, isReal_nil, hacquire, hleads, hruns⟩, ?_,
    accounts_of_runs isSound_precious isReal_nil hacquire hleads hruns⟩
  simp only [ended, hrelease, Estate.release_of_released hreleased]
  rfl

/-- If it is released while the file is there, that fails, and yet it counts as released: the directory
that is there afterwards stays, though it could be removed. -/
theorem not_upright_of_blocked : ∃ w h₀ s,
    Pipeline.acquireWorkspace ⟨"/", usualTools⟩ Estate.stubbornHost = .ok w h₀ ∧
    Runs firstPlace (start w h₀) s ∧ (∃ e, s.ends = [.error e]) ∧
    (s.host.files.removeDirectoryTree s.host.cwd s.guard.path).1 = .ok () ∧
    (s.guard.drop s.host).files.get? firstPlace = some (.directory Workspace.mode) ∧
    ¬ s.IsUpright firstPlace := by
  obtain ⟨w, h₀, hacquire, hpath, hlive, hcwd, hfiles⟩ := acquire_stubbornHost
  let s := (start w h₀).changed blockedTree
  have hremove : s.host.files.removeDirectoryTree s.host.cwd s.guard.path =
      (.error .notDirectory, blockedTree) := by
    change blockedTree.removeDirectoryTree h₀.cwd w.path = _
    rw [hpath, hcwd, removeDirectoryTree_blockedTree]
  obtain ⟨hguard, hafter, hcwd', -⟩ := Estate.release_of_live (w := s.guard) (h := s.host) hlive
  rw [hremove] at hafter
  obtain ⟨e, hfails⟩ : ∃ e, (s.guard.release s.host).1 = .error e := by
    rcases hresult : (s.guard.release s.host).1 with e | _
    · exact ⟨e, rfl⟩
    · have hgone := (Workspace.release_result (w := s.guard) hlive).1 hresult
      rw [hremove] at hgone
      simp at hgone
  have hruns := ((Relation.ReflTransGen.single (step_blocked (s := start w h₀) hfiles)).tail
    (.release s)).tail (step_restored hafter)
  have hreleased : (s.guard.release s.host).2.1.released = true := congrArg Workspace.released hguard
  refine ⟨w, h₀, _, hacquire, hruns, ⟨e, congrArg ([·]) hfails⟩, ?_, ?_, fun hupright => ?_⟩
  · change (restoredTree.removeDirectoryTree (s.guard.release s.host).2.2.cwd
      (s.guard.release s.host).2.1.path).1 = .ok ()
    rw [hguard, hcwd']
    change (restoredTree.removeDirectoryTree h₀.cwd w.path).1 = .ok ()
    rw [hpath, hcwd, removeDirectoryTree_restoredTree]
  · rw [Workspace.drop, Estate.release_of_released
      (w := ((s.ended (s.guard.release s.host).2.2).changed restoredTree).guard) hreleased]
    exact get?_put_self _ _ (List.cons_ne_nil _ _)
  · have hunmarked := hupright.unmarked e (congrArg some hfails)
    exact absurd (hreleased.symm.trans hunmarked) (by decide)

end Tenure

end LangBundle
