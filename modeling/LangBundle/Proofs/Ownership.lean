import Mathlib.Logic.Relation
import LangBundle.Proofs.BundleContents
import LangBundle.Proofs.Fencing

/-!
# Many workspaces under one root

Whoever makes a workspace owns its directory until it is released or dropped, whatever identifiers
are drawn.  A name that is drawn again is refused as long as its directory is there, and may be given
out anew after that; the former owner does not touch it any more.

* `Tree.Retains`: a tree has all that another one has.
* `Walks.passes_front`, `Passes.retained`: **the root** of the workspaces, which stays where it is.
* `Estate`: a host and the workspaces that were made on it; `Estate.Runs`: what may become of it.
* `Estate.Ends.effect`: **one end** of a workspace.
* `Estate.Held.step`: **each step** keeps what is known of the owners.
* `Estate.isolated_of_runs`: **each owner** is left alone by all the others.
-/

namespace LangBundle

open Files Files.Tree

/-! ## The way to the root -/

/-- All workspaces of a root have their names behind the same pieces of a path. -/
theorem Path.exists_front (root : String) : ∃ front, ∀ name, IsPlain name →
    Text.split '/' (join root name) = front ++ [name] := by
  by_cases hroot : root = ""
  · refine ⟨[], fun name hname => ?_⟩
    rw [hroot, join, if_pos (by simp)]
    exact split_of_noSlash hname.noSlash
  by_cases hlast : root.toList.getLast? = some '/'
  · obtain ⟨above, habove⟩ := List.getLast?_eq_some_iff.1 hlast
    have hsplit : root = String.ofList above ++ "/" := by
      rw [← String.toList_inj, habove]
      simp
    refine ⟨Text.split '/' (String.ofList above), fun name hname => ?_⟩
    have hjoin : join root name = root ++ name := by
      rw [join, isAbsolute_eq_false hname.noSlash, if_neg (by simpa using hroot),
        if_pos (by simp [hlast])]
    rw [hjoin, hsplit, split_append_slash, split_of_noSlash hname.noSlash]
  · exact ⟨Text.split '/' root, fun name hname => split_join ⟨hroot, hlast⟩ hname.noSlash⟩

namespace Files.Tree

/-- What is somewhere in a tree is there in another one, too. -/
def Retains (base t : Tree) : Prop :=
  ∀ p n, IsReal p → base.get? p = some n → t.get? p = some n

section
variable {base t t' : Tree} {links left : Nat} {dir p R : Place} {todo front : List String}
  {name : String}

theorem Retains.refl (t : Tree) : t.Retains t :=
  fun _ _ _ h => h

/-- A walk to a name goes through the directory that the name is in. -/
theorem Walks.passes_front (h : t.Walks false links dir todo p) (htodo : todo = front ++ [name])
    (hname : Path.IsPlain name ∧ name ≠ "..") :
    ∃ R left mode, t.Passes left links dir front R ∧ t.get? R = some (.directory mode) := by
  induction h generalizing front with
  | here => simp at htodo
  | stay hdir hstay _ ih =>
    rcases front with _ | ⟨first, front⟩
    · obtain ⟨rfl, -⟩ := List.cons.inj htodo
      rcases hstay with hempty | ⟨hdot, -⟩
      · exact absurd hempty hname.1.not_empty
      · exact absurd hdot hname.1.not_dot
    · obtain ⟨rfl, hrest⟩ := List.cons.inj htodo
      obtain ⟨R, left, mode, hpasses, hR⟩ := ih hrest
      exact ⟨R, left, mode, .stay hdir hstay hpasses, hR⟩
  | up hdir hsearch _ ih =>
    rcases front with _ | ⟨first, front⟩
    · obtain ⟨rfl, -⟩ := List.cons.inj htodo
      exact absurd rfl hname.2
    · obtain ⟨rfl, hrest⟩ := List.cons.inj htodo
      obtain ⟨R, left, mode, hpasses, hR⟩ := ih hrest
      exact ⟨R, left, mode, .up hdir hsearch hpasses, hR⟩
  | stop henter _ _ =>
    obtain ⟨mode, hdir, -⟩ := henter.directory
    rcases front with _ | ⟨first, front⟩
    · exact ⟨_, _, mode, .here, hdir⟩
    · simp at htodo
  | jump henter hlink hmore htarget _ ih =>
    rcases front with _ | ⟨first, front⟩
    · obtain ⟨-, rfl⟩ := List.cons.inj htodo
      simp at hmore
    · obtain ⟨rfl, hrest⟩ := List.cons.inj htodo
      obtain ⟨R, left, mode, hpasses, hR⟩ := ih (by
        rw [hrest]
        exact (List.append_assoc _ front [name]).symm)
      exact ⟨R, left, mode, .jump henter hlink htarget hpasses, hR⟩
  | down henter hlink _ ih =>
    obtain ⟨mode, hdir, -⟩ := henter.directory
    rcases front with _ | ⟨first, front⟩
    · exact ⟨_, _, mode, .here, hdir⟩
    · obtain ⟨rfl, hrest⟩ := List.cons.inj htodo
      obtain ⟨R, left, mode, hpasses, hR⟩ := ih hrest
      exact ⟨R, left, mode, .down henter hlink hpasses, hR⟩

/-- A walk to one plain name enters it. -/
theorem Walks.eq_enter (h : t.Walks false links dir [name] p)
    (hname : Path.IsPlain name ∧ name ≠ "..") : t.Enters dir name ∧ p = dir ++ [name] := by
  cases h with
  | stay _ hstay _ =>
    rcases hstay with hempty | ⟨hdot, -⟩
    · exact absurd hempty hname.1.not_empty
    · exact absurd hdot hname.1.not_dot
  | up => exact absurd rfl hname.2
  | stop henter _ _ => exact ⟨henter, rfl⟩
  | jump _ _ hmore _ _ => simp at hmore
  | down henter _ hrest =>
    cases hrest
    exact ⟨henter, rfl⟩

theorem Passes.isReal (h : t.Passes left links dir todo R) (hdir : IsReal dir)
    (htodo : IsReal todo) : IsReal R := by
  induction h with
  | here => exact hdir
  | stay _ _ _ ih => exact ih hdir htodo.tail
  | up _ _ _ ih => exact ih hdir.dropLast htodo.tail
  | jump _ _ _ _ ih => exact ih (hdir.origin _) ((isReal_split _).append htodo.tail)
  | down _ _ _ ih => exact ih (hdir.snoc htodo.head) htodo.tail

theorem walk_of_enters (h : t.Enters dir name) (links : Nat) :
    t.walk false links dir [name] = .ok (dir ++ [name]) := by
  rw [walk_enter false links h]
  split
  · rfl
  · exact walk_nil false links _

/-- What is walked through is there. -/
theorem Passes.ne_none (h : t.Passes left links dir todo R) (hR : t.get? R ≠ none) :
    t.get? dir ≠ none := by
  cases h with
  | here => exact hR
  | stay hdir => simp [hdir]
  | up hdir => simp [hdir]
  | jump henter =>
    obtain ⟨mode, hdir, -⟩ := henter.directory
    simp [hdir]
  | down henter =>
    obtain ⟨mode, hdir, -⟩ := henter.directory
    simp [hdir]

theorem Enters.retained (h : base.Enters dir name) (hretains : base.Retains t)
    (hdir : IsReal dir) : t.Enters dir name := by
  obtain ⟨mode, hmode, hsearch⟩ := h.directory
  exact ⟨⟨mode, hretains dir _ hdir hmode, hsearch⟩, h.not_empty, h.not_dot, h.not_up, h.short⟩

/-- **A way** to what is there stays as it is when things are added. -/
theorem Passes.retained (h : base.Passes left links dir todo R) (hretains : base.Retains t)
    (hR : base.get? R ≠ none) (hdir : IsReal dir) (htodo : IsReal todo) :
    t.Passes left links dir todo R := by
  induction h with
  | here => exact .here
  | stay hat hstay _ ih => exact .stay (hretains _ _ hdir hat) hstay (ih hR hdir htodo.tail)
  | up hat hsearch _ ih =>
    exact .up (hretains _ _ hdir hat) hsearch (ih hR hdir.dropLast htodo.tail)
  | jump henter hlink htarget _ ih =>
    exact .jump (henter.retained hretains hdir)
      (hretains _ _ (hdir.snoc htodo.head) hlink) htarget
      (ih hR (hdir.origin _) ((isReal_split _).append htodo.tail))
  | down henter hlink hrest ih =>
    have hnext := hdir.snoc htodo.head
    obtain ⟨n, hn⟩ := Option.ne_none_iff_exists'.1 (hrest.ne_none hR)
    refine .down (henter.retained hretains hdir) (fun target hat => ?_) (ih hR hnext htodo.tail)
    rw [hretains _ _ hnext hn] at hat
    exact hlink target (hn.trans hat)

end

/-- **A removal** that is tried changes nothing outside the directory. -/
theorem removeDirectoryTree_off {t : Tree} {cwd ws q : Place} {path : String}
    (hleads : t.resolve cwd path false = .ok ws) (hroot : ws ≠ []) (hq : ¬ ws <+: q) :
    (t.removeDirectoryTree cwd path).2.get? q = t.get? q := by
  have herase : (t.erase ws).get? q = t.get? q := by rw [get?_erase t hroot, if_neg hq]
  have hne : q ≠ ws := fun heq => hq (heq ▸ List.prefix_refl q)
  rw [removeDirectoryTree, hleads]
  dsimp only
  split
  · rfl
  · split
    · exact herase
    · rfl
  · split
    · rfl
    · split
      · exact herase
      · exact (get?_put_of_ne _ _ hne).trans herase
  · rfl

/-- Taking something away adds nothing. -/
theorem retains_erase (t : Tree) (p : Place) : (t.erase p).Retains t := by
  intro q n _ hq
  by_cases hp : p = []
  · by_cases hroot : q = []
    · rw [hroot] at hq ⊢
      exact hq
    · rw [get?_eq_lookup _ hroot] at hq
      simp [erase, hp] at hq
  · rw [get?_erase t hp] at hq
    split at hq
    · cases hq
    · exact hq

/-- **A removal** adds nothing, however it ends. -/
theorem retains_removeDirectoryTree (t : Tree) (cwd : Place) (path : String) :
    (t.removeDirectoryTree cwd path).2.Retains t := by
  unfold removeDirectoryTree
  split
  · exact .refl t
  next p hp =>
  split
  · exact .refl t
  · split
    · exact retains_erase t p
    · exact .refl t
  · next mode hdir =>
    split
    · exact .refl t
    split
    · exact retains_erase t p
    · intro q n hq hn
      by_cases hself : q = p
      · subst hself
        by_cases hroot : q = []
        · rw [hroot] at hn ⊢
          exact hn
        · rw [get?_put_self _ _ hroot] at hn
          exact hdir.trans hn
      · rw [get?_put_of_ne _ _ hself] at hn
        exact retains_erase t p q n hq hn
  · exact .refl t

end Files.Tree

/-! ## Owners -/

/-- A host and the workspaces that were made on it, in their order, the released ones too. -/
structure Estate where
  host : Host
  guards : List Workspace

namespace Estate

/-- Ways in which the use of the workspace with a number ends, or is ended once more. -/
inductive Ends (k : Nat) : Estate → Estate → Prop
  /-- It is released, whatever comes of that. -/
  | release {s : Estate} {w : Workspace} (hw : s.guards[k]? = some w) : Ends k s
      { host := (w.release s.host).2.2, guards := s.guards.set k (w.release s.host).2.1 }
  /-- It is dropped. -/
  | drop {s : Estate} {w : Workspace} (hw : s.guards[k]? = some w) : Ends k s
      { host := w.drop s.host, guards := s.guards.set k (w.release s.host).2.1 }
  /-- It is released, and the removal breaks off: any part of the directory may be left. -/
  | cutShort {s : Estate} {w : Workspace} {ws : Place} {t : Tree} (hw : s.guards[k]? = some w)
      (hlive : w.released = false)
      (hleads : s.host.files.resolve s.host.cwd w.path false = .ok ws)
      (hoff : ∀ q, IsReal q → ¬ ws <+: q → t.get? q = s.host.files.get? q) : Ends k s
      { host := { s.host with files := t }, guards := s.guards.set k { w with released := true } }

/-- What may happen next. -/
inductive Step (p : Pipeline) : Estate → Estate → Prop
  /-- A workspace is made. -/
  | acquire {s : Estate} {w : Workspace} {h : Host} (hacquire : p.acquireWorkspace s.host = .ok w h) :
      Step p s { host := h, guards := s.guards ++ [w] }
  /-- One is refused. -/
  | refuse {s : Estate} {e : BuildError} {h : Host}
      (hacquire : p.acquireWorkspace s.host = .error e h) : Step p s { s with host := h }
  /-- The use of one ends. -/
  | finish {s s' : Estate} (k : Nat) (hends : s.Ends k s') : Step p s s'
  /-- Something is written below one that is in use. -/
  | write {s : Estate} {k : Nat} {w : Workspace} {ws : Place} {t : Tree}
      (hw : s.guards[k]? = some w) (hlive : w.released = false)
      (hleads : s.host.files.resolve s.host.cwd w.path false = .ok ws)
      (hoff : ∀ q, IsReal q → ¬ (ws <+: q ∧ q ≠ ws) → t.get? q = s.host.files.get? q) :
      Step p s { s with host := { s.host with files := t } }

/-- What may become of an estate. -/
abbrev Runs (p : Pipeline) : Estate → Estate → Prop :=
  Relation.ReflTransGen (Step p)

/-- A workspace is known by its name below the root; its path leads there as long as what was there
at the beginning stays. -/
structure Owns (base : Tree) (cwd R : Place) (p : Pipeline) (w : Workspace) (name : String) :
    Prop where
  path : w.path = Path.join p.root name
  plain : '/' ∉ name.toList
  leads : ∀ t, base.Retains t → t.resolve cwd w.path false = .ok (R ++ [name])
  new : base.get? (R ++ [name]) = none

/-- What is known of the owners: every workspace has its name, those that are in use are there, and
no two of them have the same path. -/
structure Held (base : Tree) (cwd R : Place) (p : Pipeline) (s : Estate) : Prop where
  cwd_eq : s.host.cwd = cwd
  retains : base.Retains s.host.files
  owned : ∀ (k : Nat) (w : Workspace), s.guards[k]? = some w → ∃ name, Owns base cwd R p w name ∧
    (w.released = false → ∃ mode, s.host.files.get? (R ++ [name]) = some (.directory mode))
  apart : ∀ (j k : Nat) (v w : Workspace), s.guards[j]? = some v → s.guards[k]? = some w → j ≠ k →
    v.released = false → w.released = false → v.path ≠ w.path

/-! ## One end of a workspace -/

/-- Releasing once more does nothing. -/
theorem release_of_released {w : Workspace} {h : Host} (hw : w.released = true) :
    w.release h = (.ok (), w, h) := by
  rw [Workspace.release, if_pos hw]

/-- Releasing a workspace that is in use tries to remove its directory. -/
theorem release_of_live {w : Workspace} {h : Host} (hw : w.released = false) :
    (w.release h).2.1 = { w with released := true } ∧
      (w.release h).2.2.files = (h.files.removeDirectoryTree h.cwd w.path).2 ∧
      (w.release h).2.2.cwd = h.cwd ∧ (w.release h).2.2.ids = h.ids := by
  rw [Workspace.release, if_neg (by simp [hw])]
  dsimp only
  generalize h.files.removeDirectoryTree h.cwd w.path = removed
  obtain ⟨fault | _, t⟩ := removed
  · cases fault <;> exact ⟨rfl, rfl, rfl, rfl⟩
  · exact ⟨rfl, rfl, rfl, rfl⟩

/-- **Releasing** a workspace that is in use changes nothing outside its directory. -/
theorem release_off {w : Workspace} {h : Host} {ws : Place} (hw : w.released = false)
    (hleads : h.files.resolve h.cwd w.path false = .ok ws) (hroot : ws ≠ []) :
    (w.release h).2.1 = { w with released := true } ∧ (w.release h).2.2.cwd = h.cwd ∧
      ∀ q, ¬ ws <+: q → (w.release h).2.2.files.get? q = h.files.get? q := by
  obtain ⟨hguard, hfiles, hcwd, -⟩ := release_of_live (h := h) hw
  refine ⟨hguard, hcwd, fun q hq => ?_⟩
  rw [hfiles]
  exact removeDirectoryTree_off hleads hroot hq

/-- **One end**: nothing happens if the workspace was released before; otherwise it is released now,
and nothing changes outside its directory. -/
theorem Ends.effect {k : Nat} {s s' : Estate} (h : s.Ends k s') {w : Workspace}
    (hw : s.guards[k]? = some w) :
    (w.released = true → s' = s) ∧
    (w.released = false → ∀ ws, s.host.files.resolve s.host.cwd w.path false = .ok ws → ws ≠ [] →
      s'.guards = s.guards.set k { w with released := true } ∧ s'.host.cwd = s.host.cwd ∧
      ∀ q, IsReal q → ¬ ws <+: q → s'.host.files.get? q = s.host.files.get? q) := by
  have hset : s.guards.set k w = s.guards := by
    obtain ⟨hk, rfl⟩ := List.getElem?_eq_some_iff.1 hw
    exact List.set_getElem_self hk
  have hreleased (hlate : w.released = true) :
      ({ host := (w.release s.host).2.2, guards := s.guards.set k (w.release s.host).2.1 } : Estate)
        = s := by
    rw [release_of_released hlate]
    show ({ host := s.host, guards := s.guards.set k w } : Estate) = s
    rw [hset]
  have hlive (hfirst : w.released = false) (ws : Place)
      (hleads : s.host.files.resolve s.host.cwd w.path false = .ok ws) (hroot : ws ≠ []) :
      s.guards.set k (w.release s.host).2.1 = s.guards.set k { w with released := true } ∧
      (w.release s.host).2.2.cwd = s.host.cwd ∧ ∀ q, IsReal q → ¬ ws <+: q →
        (w.release s.host).2.2.files.get? q = s.host.files.get? q := by
    obtain ⟨hguard, hcwd, hoff⟩ := release_off hfirst hleads hroot
    exact ⟨by rw [hguard], hcwd, fun q _ => hoff q⟩
  cases h with
  | release hw' =>
    obtain rfl := Option.some.inj (hw.symm.trans hw')
    exact ⟨hreleased, hlive⟩
  | drop hw' =>
    obtain rfl := Option.some.inj (hw.symm.trans hw')
    exact ⟨hreleased, hlive⟩
  | cutShort hw' hfirst hleads hoff =>
    obtain rfl := Option.some.inj (hw.symm.trans hw')
    refine ⟨fun hlate => ?_, fun _ ws hleads' _ => ?_⟩
    · rw [hfirst] at hlate
      cases hlate
    · obtain rfl := Except.ok.inj (hleads.symm.trans hleads')
      exact ⟨rfl, rfl, hoff⟩

/-! ## Making a workspace -/

/-- A directory is put where nothing was, or no file changes. -/
theorem acquireWorkspace_cases (p : Pipeline) (h : Host) :
    (∃ w h' ws, p.acquireWorkspace h = .ok w h' ∧ w.path = p.nextWorkspace h ∧
      w.released = false ∧ h'.cwd = h.cwd ∧ h.files.resolve h.cwd w.path false = .ok ws ∧
      h.files.get? ws = none ∧ h'.files = h.files.put ws (.directory Workspace.mode)) ∨
    ∃ detail h', p.acquireWorkspace h = .error (.io (p.nextWorkspace h) detail) h' ∧
      h'.cwd = h.cwd ∧ h'.files = h.files ∧
      ∀ n, h.files.lstat h.cwd (p.nextWorkspace h) = .ok n →
        detail = Fault.alreadyExists.message := by
  have hopen := isOpen_nextWorkspace p h
  rw [acquireWorkspace_eq]
  rcases hmake : h.files.makeDirectory h.cwd (p.nextWorkspace h) Workspace.mode with fault | t
  · refine .inr ⟨fault.message, _, rfl, rfl, rfl, fun n hn => ?_⟩
    obtain ⟨ws, hws, hn⟩ := Tree.bind_eq_ok hn
    rw [makeDirectory, withoutSlashes_of_isOpen hopen, hws] at hmake
    split at hn
    · next m hm =>
      simp only [bind, Except.bind, hm] at hmake
      cases hmake
      rfl
    · cases hn
  · obtain ⟨ws, hws, hnone, -, rfl⟩ := makeDirectory_eq_ok hmake
    rw [withoutSlashes_of_isOpen hopen] at hws
    exact .inl ⟨_, _, ws, rfl, rfl, rfl, rfl, hws, hnone, rfl⟩

/-! ## What each step keeps -/

section
variable {base : Tree} {cwd R : Place} {p : Pipeline} {s s' : Estate}

/-- Owners with different paths have different directories in the root. -/
theorem Owns.apart {v w : Workspace} {name name' : String} (hv : Owns base cwd R p v name)
    (hw : Owns base cwd R p w name') (hne : v.path ≠ w.path) {q : Place}
    (hbelow : R ++ [name] <+: q) : ¬ R ++ [name'] <+: q := by
  intro hbelow'
  have hlength : (R ++ [name]).length = (R ++ [name']).length := by simp
  have hsame := List.prefix_of_prefix_length_le hbelow hbelow' (by simp)
  have hnames := List.append_cancel_left (hsame.eq_of_length hlength)
  exact hne (by rw [hv.path, hw.path, List.singleton_inj.1 hnames])

/-- What was there at the beginning is in nobody's directory. -/
theorem Owns.base_none (hsound : base.IsSound) {w : Workspace} {name : String}
    (h : Owns base cwd R p w name) {q : Place} (hq : IsReal q) (hbelow : R ++ [name] <+: q) :
    base.get? q = none :=
  hsound.nothing_below hq hbelow h.new

theorem Held.of_files (h : Held base cwd R p s) {host : Host} (hcwd : host.cwd = s.host.cwd)
    (hfiles : host.files = s.host.files) : Held base cwd R p { s with host } where
  cwd_eq := hcwd.trans h.cwd_eq
  retains := by
    show base.Retains host.files
    rw [hfiles]
    exact h.retains
  owned k w hw := by
    show ∃ name, Owns base cwd R p w name ∧
      (w.released = false → ∃ mode, host.files.get? (R ++ [name]) = some (.directory mode))
    rw [hfiles]
    exact h.owned k w hw
  apart := h.apart

/-- **Changes in one directory** keep what was there at the beginning. -/
theorem Held.retains_of_off (h : Held base cwd R p s) (hsound : base.IsSound) {w : Workspace}
    {name : String} (hw : Owns base cwd R p w name) {t : Tree}
    (hoff : ∀ q, IsReal q → ¬ R ++ [name] <+: q → t.get? q = s.host.files.get? q) :
    base.Retains t := by
  intro q n hq hn
  have hnot : ¬ R ++ [name] <+: q := by
    intro hbelow
    rw [hw.base_none hsound hq hbelow] at hn
    cases hn
  rw [hoff q hq hnot]
  exact h.retains q n hq hn

/-- The owner under a number, once the one under another number has changed. -/
theorem getElem?_set_cases {guards : List Workspace} {j k : Nat} {v w : Workspace}
    (h : (guards.set k w)[j]? = some v) : j = k ∧ v = w ∨ j ≠ k ∧ guards[j]? = some v := by
  rw [List.getElem?_set] at h
  split at h
  · next hjk =>
    split at h
    · exact .inl ⟨hjk.symm, (Option.some.inj h).symm⟩
    · cases h
  · next hjk => exact .inr ⟨Ne.symm hjk, h⟩

variable (hsound : base.IsSound) (hreal : IsReal R)
include hsound hreal

/-- **One end** of a workspace keeps it. -/
theorem Held.ends (h : Held base cwd R p s) {k : Nat} (hends : s.Ends k s') :
    Held base cwd R p s' := by
  obtain ⟨w, hw⟩ : ∃ w, s.guards[k]? = some w := by
    cases hends with
    | release hw => exact ⟨_, hw⟩
    | drop hw => exact ⟨_, hw⟩
    | cutShort hw => exact ⟨_, hw⟩
  obtain ⟨hlate, hfirst⟩ := hends.effect hw
  rcases hreleased : w.released with _ | _
  swap
  · rw [hlate hreleased]
    exact h
  obtain ⟨name, howns, -⟩ := h.owned k w hw
  have hleads := howns.leads _ h.retains
  rw [← h.cwd_eq] at hleads
  obtain ⟨hguards, hcwd, hoff⟩ := hfirst hreleased _ hleads (by simp)
  have hother {j : Nat} {v : Workspace} (hv : s'.guards[j]? = some v) (hlive : v.released = false) :
      j ≠ k ∧ s.guards[j]? = some v := by
    rw [hguards] at hv
    rcases getElem?_set_cases hv with ⟨-, rfl⟩ | hv
    · cases hlive
    · exact hv
  refine ⟨hcwd.trans h.cwd_eq, h.retains_of_off hsound howns hoff, fun j v hv => ?_, ?_⟩
  · rw [hguards] at hv
    rcases getElem?_set_cases hv with ⟨rfl, rfl⟩ | ⟨hjk, hv⟩
    · exact ⟨name, ⟨howns.path, howns.plain, howns.leads, howns.new⟩, fun hlive => by cases hlive⟩
    · obtain ⟨name', howns', hthere⟩ := h.owned j v hv
      refine ⟨name', howns', fun hlive => ?_⟩
      obtain ⟨mode, hmode⟩ := hthere hlive
      have hapart := h.apart j k v w hv hw hjk hlive hreleased
      refine ⟨mode, ?_⟩
      rw [hoff _ (hreal.snoc howns'.plain) (howns'.apart howns hapart (List.prefix_refl _)), hmode]
  · intro i j u v hu hv hij hlive hlive'
    exact h.apart i j u v (hother hu hlive).2 (hother hv hlive').2 hij hlive hlive'

/-- **A write** below a workspace in use keeps it. -/
theorem Held.write (h : Held base cwd R p s) {w : Workspace} {name : String} {t : Tree}
    (howns : Owns base cwd R p w name)
    (hoff : ∀ q, IsReal q → ¬ (R ++ [name] <+: q ∧ q ≠ R ++ [name]) →
      t.get? q = s.host.files.get? q) :
    Held base cwd R p { s with host := { s.host with files := t } } := by
  refine ⟨h.cwd_eq, h.retains_of_off hsound howns fun q hq hnot => hoff q hq fun hin => hnot hin.1,
    fun j v hv => ?_, h.apart⟩
  obtain ⟨name', howns', hthere⟩ := h.owned j v hv
  refine ⟨name', howns', fun hlive' => ?_⟩
  obtain ⟨mode, hmode⟩ := hthere hlive'
  refine ⟨mode, ?_⟩
  show t.get? (R ++ [name']) = _
  rw [hoff _ (hreal.snoc howns'.plain), hmode]
  rintro ⟨hbelow, hne⟩
  -- a name in the root is below another one only if it is the same
  have hlength : (R ++ [name]).length = (R ++ [name']).length := by simp
  exact hne (hbelow.eq_of_length hlength).symm

end

/-! ## Runs -/

/-- The way to the directory in which workspaces are made. -/
structure Leads (base : Tree) (cwd : Place) (p : Pipeline) (front : List String) (R : Place) :
    Prop where
  cwd_real : IsReal cwd
  front_real : IsReal front
  split : ∀ name, Path.IsPlain name → Text.split '/' (Path.join p.root name) = front ++ [name]
  passes : ∃ left, base.Passes left maxLinks (if Path.isAbsolute p.root then [] else cwd) front R
  directory : ∃ mode, base.get? R = some (.directory mode)

section
variable {base : Tree} {cwd R : Place} {p : Pipeline} {front : List String} {s s' : Estate}

theorem Leads.start_real (h : Leads base cwd p front R) :
    IsReal (if Path.isAbsolute p.root then [] else cwd) := by
  split
  · exact isReal_nil
  · exact h.cwd_real

theorem Leads.isReal (h : Leads base cwd p front R) : IsReal R := by
  obtain ⟨left, hpasses⟩ := h.passes
  exact hpasses.isReal h.start_real h.front_real

/-- **A workspace** that is made has its directory in the root. -/
theorem Leads.owns_of_acquire (h : Leads base cwd p front R) {host : Host} {w : Workspace}
    {ws : Place} (hat : host.cwd = cwd) (hretains : base.Retains host.files)
    (hpath : w.path = p.nextWorkspace host)
    (hleads : host.files.resolve host.cwd w.path false = .ok ws)
    (hnone : host.files.get? ws = none) : ∃ name, Owns base cwd R p w name ∧ ws = R ++ [name] := by
  obtain ⟨left, hpasses⟩ := h.passes
  obtain ⟨mode, hR⟩ := h.directory
  have hname := leadsDown_workspace (host.ids host.drawn)
  generalize hname_eq : Workspace.namePrefix ++ (host.ids host.drawn).text = name at hname
  have hjoin : w.path = Path.join p.root name := by
    rw [hpath, ← hname_eq]
    rfl
  have habs : Path.isAbsolute w.path = Path.isAbsolute p.root := by
    rw [hjoin, Path.isAbsolute_join (Path.isAbsolute_eq_false hname.1.noSlash)]
  have hsplit : Text.split '/' w.path = front ++ [name] := hjoin ▸ h.split name hname.1
  rw [hat] at hleads
  obtain ⟨hfits, hwalks⟩ := resolve_eq_ok_iff.1 hleads
  -- the last name is walked from the root, in every tree that has what was there at the beginning
  have hlast (t : Tree) (ht : base.Retains t) :
      t.walk false maxLinks (if Path.isAbsolute w.path then [] else cwd) (Text.split '/' w.path) =
        t.walk false left R [name] := by
    rw [habs, hsplit]
    exact (hpasses.retained ht (by simp [hR]) h.start_real h.front_real).walk_append false (by simp)
  have hwalk := walk_of_walks hwalks
  rw [hlast _ hretains] at hwalk
  obtain ⟨henter, rfl⟩ := (walks_of_walk hwalk).eq_enter hname
  refine ⟨name, ⟨hjoin, hname.1.noSlash, fun t ht => ?_, ?_⟩, rfl⟩
  · refine resolve_eq_ok_iff.2 ⟨hfits, walks_of_walk ?_⟩
    rw [hlast t ht]
    obtain ⟨mode', hmode', hsearch⟩ := henter.directory
    rw [hretains R _ h.isReal hR] at hmode'
    obtain rfl := Node.directory.inj (Option.some.inj hmode')
    exact walk_of_enters ⟨⟨mode, ht R _ h.isReal hR, hsearch⟩, henter.not_empty, henter.not_dot,
      henter.not_up, henter.short⟩ left
  · by_contra hsome
    obtain ⟨n, hn⟩ := Option.ne_none_iff_exists'.1 hsome
    rw [hretains _ n (h.isReal.snoc hname.1.noSlash) hn] at hnone
    cases hnone

/-- **Making** a workspace keeps what is known of the owners. -/
theorem Held.acquire (h : Held base cwd R p s) {host : Host} {w : Workspace} {name : String}
    (howns : Owns base cwd R p w name) (hcwd : host.cwd = s.host.cwd)
    (hnone : s.host.files.get? (R ++ [name]) = none)
    (hfiles : host.files = s.host.files.put (R ++ [name]) (.directory Workspace.mode)) :
    Held base cwd R p { host, guards := s.guards ++ [w] } := by
  have hother {q : Place} (hq : q ≠ R ++ [name]) : host.files.get? q = s.host.files.get? q := by
    rw [hfiles, get?_put_of_ne _ _ hq]
  have hguards {k : Nat} {v : Workspace} (hv : (s.guards ++ [w])[k]? = some v) :
      s.guards[k]? = some v ∨ k = s.guards.length ∧ v = w := by
    rcases Nat.lt_or_ge k s.guards.length with hlt | hge
    · rw [List.getElem?_append_left hlt] at hv
      exact .inl hv
    · rw [List.getElem?_append_right hge, List.getElem?_singleton] at hv
      split at hv
      · next hzero => exact .inr ⟨by omega, (Option.some.inj hv).symm⟩
      · cases hv
  -- whoever is in use has a directory, so it has another path than the new one
  have hnew {k : Nat} {v : Workspace} (hv : s.guards[k]? = some v) (hlive : v.released = false) :
      v.path ≠ w.path := by
    intro heq
    obtain ⟨name', howns', hthere⟩ := h.owned k v hv
    obtain ⟨mode, hmode⟩ := hthere hlive
    have hsame := howns'.leads base (.refl base)
    rw [heq, howns.leads base (.refl base)] at hsame
    rw [← Except.ok.inj hsame, hnone] at hmode
    cases hmode
  refine ⟨hcwd.trans h.cwd_eq, fun q n hq hn => ?_, fun k v hv => ?_, ?_⟩
  · show host.files.get? q = some n
    rw [hother, h.retains q n hq hn]
    rintro rfl
    rw [howns.new] at hn
    cases hn
  · rcases hguards hv with hv | ⟨-, rfl⟩
    · obtain ⟨name', howns', hthere⟩ := h.owned k v hv
      refine ⟨name', howns', fun hlive => ?_⟩
      obtain ⟨mode, hmode⟩ := hthere hlive
      refine ⟨mode, ?_⟩
      show host.files.get? _ = _
      rw [hother, hmode]
      intro heq
      rw [heq, hnone] at hmode
      cases hmode
    · refine ⟨name, howns, fun _ => ⟨Workspace.mode, ?_⟩⟩
      show host.files.get? _ = _
      rw [hfiles, get?_put_self _ _ (by simp)]
  · intro j k u v hu hv hjk hlive hlive'
    rcases hguards hu with hold | ⟨rfl, rfl⟩
    · rcases hguards hv with hold' | ⟨-, rfl⟩
      · exact h.apart j k u v hold hold' hjk hlive hlive'
      · exact hnew hold hlive
    · rcases hguards hv with hold' | ⟨rfl, -⟩
      · exact (hnew hold' hlive').symm
      · exact absurd rfl hjk

/-- **Each step** keeps what is known of the owners. -/
theorem Held.step (h : Held base cwd R p s) (hsound : base.IsSound) (hroot : Leads base cwd p front R)
    (hstep : Step p s s') : Held base cwd R p s' := by
  cases hstep with
  | acquire hacquire =>
    rcases acquireWorkspace_cases p s.host with
      ⟨w, host, ws, hmade, hpath, -, hcwd, hleads, hnone, hfiles⟩ | ⟨detail, host, hrefused, -⟩
    · rw [hmade] at hacquire
      cases hacquire
      obtain ⟨name, howns, rfl⟩ := hroot.owns_of_acquire h.cwd_eq h.retains hpath hleads hnone
      exact h.acquire howns hcwd hnone hfiles
    · rw [hrefused] at hacquire
      cases hacquire
  | refuse hacquire =>
    rcases acquireWorkspace_cases p s.host with
      ⟨w, host, ws, hmade, -⟩ | ⟨detail, host, hrefused, hcwd, hfiles, -⟩
    · rw [hmade] at hacquire
      cases hacquire
    · rw [hrefused] at hacquire
      cases hacquire
      exact h.of_files hcwd hfiles
  | finish k hends => exact h.ends hsound hroot.isReal hends
  | write hw hlive hleads hoff =>
    obtain ⟨name, howns, -⟩ := h.owned _ _ hw
    have hplace := howns.leads _ h.retains
    rw [← h.cwd_eq, hleads] at hplace
    obtain rfl := Except.ok.inj hplace
    exact h.write hsound hroot.isReal howns hoff

end

/-- **A run** keeps what is known of the owners.  If the root leads nowhere there never are any. -/
theorem held_of_runs {p : Pipeline} {s s' : Estate} (hsound : s.host.files.IsSound)
    (hcwd : IsReal s.host.cwd) (hfresh : s.guards = []) (hruns : Runs p s s') :
    s'.guards = [] ∨
      ∃ R, IsReal R ∧ Held s.host.files s.host.cwd R p s' := by
  obtain ⟨front, hfront⟩ := Path.exists_front p.root
  by_cases hroot : ∃ R, Leads s.host.files s.host.cwd p front R
  · obtain ⟨R, hroot⟩ := hroot
    refine .inr ⟨R, hroot.isReal, ?_⟩
    induction hruns with
    | refl => exact ⟨rfl, .refl _, by simp [hfresh], by simp [hfresh]⟩
    | tail _ hstep ih => exact ih.step hsound hroot hstep
  · left
    have hkept : s'.guards = [] ∧ s'.host.cwd = s.host.cwd ∧ s'.host.files = s.host.files := by
      induction hruns with
      | refl => exact ⟨hfresh, rfl, rfl⟩
      | @tail u v _ hstep ih =>
        obtain ⟨hnobody, hcwd', hfiles'⟩ := ih
        cases hstep with
        | acquire hacquire =>
          -- a workspace that is made shows the way to the root
          exfalso
          rcases acquireWorkspace_cases p u.host with
            ⟨w, host, ws, -, hpath, -, -, hleads, -, -⟩ | ⟨detail, host, hrefused, -⟩
          · have hname := leadsDown_workspace (u.host.ids u.host.drawn)
            have hsplit := hfront _ hname.1
            have hjoin : w.path = Path.join p.root
                (Workspace.namePrefix ++ (u.host.ids u.host.drawn).text) := hpath
            rw [hcwd', hfiles', hjoin] at hleads
            have hwalks := (resolve_eq_ok_iff.1 hleads).2
            rw [Path.isAbsolute_join (Path.isAbsolute_eq_false hname.1.noSlash)] at hwalks
            obtain ⟨R, left, mode, hpasses, hR⟩ := hwalks.passes_front hsplit hname
            refine hroot ⟨R, hcwd, fun piece hpiece => ?_, hfront, ⟨left, hpasses⟩, mode, hR⟩
            exact isReal_split _ piece (hsplit ▸ List.mem_append_left _ hpiece)
          · rw [hrefused] at hacquire
            cases hacquire
        | refuse hacquire =>
          rcases acquireWorkspace_cases p u.host with
            ⟨w, host, ws, hmade, -⟩ | ⟨detail, host, hrefused, hcwd'', hfiles'', -⟩
          · rw [hmade] at hacquire
            cases hacquire
          · rw [hrefused] at hacquire
            cases hacquire
            exact ⟨hnobody, hcwd''.trans hcwd', hfiles''.trans hfiles'⟩
        | finish k hends =>
          cases hends with
          | release hw => simp [hnobody] at hw
          | drop hw => simp [hnobody] at hw
          | cutShort hw => simp [hnobody] at hw
        | write hw => simp [hnobody] at hw
    exact hkept.1

/-- A workspace that was released stays as it is. -/
theorem Runs.released {p : Pipeline} {s s' : Estate} (hruns : Runs p s s') {k : Nat} {w : Workspace}
    (hw : s.guards[k]? = some w) (hreleased : w.released = true) : s'.guards[k]? = some w := by
  induction hruns with
  | refl => exact hw
  | @tail u v _ hstep ih =>
    cases hstep with
    | acquire _ => exact List.getElem?_append_left (List.getElem?_eq_some_iff.1 ih).1 ▸ ih
    | refuse _ => exact ih
    | write _ _ _ _ => exact ih
    | finish j hends =>
      by_cases hjk : j = k
      · subst hjk
        rw [(hends.effect ih).1 hreleased]
        exact ih
      · have hset {v : Workspace} : (u.guards.set j v)[k]? = some w := by
          rw [List.getElem?_set_ne hjk]
          exact ih
        cases hends with
        | release _ => exact hset
        | drop _ => exact hset
        | cutShort _ _ _ _ => exact hset

/-- Once its use has ended a workspace is released. -/
theorem Ends.released {k : Nat} {s s' : Estate} (h : s.Ends k s') :
    ∃ w, s'.guards[k]? = some w ∧ w.released = true := by
  have hset {w v : Workspace} (hw : s.guards[k]? = some w) : (s.guards.set k v)[k]? = some v :=
    List.getElem?_set_self (List.getElem?_eq_some_iff.1 hw).1
  have hrelease (w : Workspace) : (w.release s.host).2.1.released = true := by
    by_cases hw : w.released = true
    · rw [release_of_released hw]
      exact hw
    · rw [Workspace.release, if_neg hw]
      dsimp only
      split <;> rfl
  cases h with
  | release hw => exact ⟨_, hset hw, hrelease _⟩
  | drop hw => exact ⟨_, hset hw, hrelease _⟩
  | cutShort hw _ _ _ => exact ⟨_, hset hw, rfl⟩

/-- Every owner is left alone by all the others. -/
structure Isolated (p : Pipeline) (s : Estate) : Prop where
  /-- Workspaces in use have different paths. -/
  apart : ∀ (j k : Nat) (v w : Workspace), s.guards[j]? = some v → s.guards[k]? = some w → j ≠ k →
    v.released = false → w.released = false → v.path ≠ w.path
  /-- If something has the path of a new workspace, making it fails and changes no file. -/
  taken : ∀ n, s.host.files.lstat s.host.cwd (p.nextWorkspace s.host) = .ok n →
    ∃ h, p.acquireWorkspace s.host =
        .error (.io (p.nextWorkspace s.host) Fault.alreadyExists.message) h ∧
      h.files = s.host.files
  /-- Whatever happens after its use has ended, ending it again succeeds and changes nothing. -/
  once : ∀ (k : Nat) (s₁ s₂ : Estate), s.Ends k s₁ → Runs p s₁ s₂ →
    (∀ w, s₂.guards[k]? = some w →
      w.release s₂.host = (.ok (), w, s₂.host) ∧ w.drop s₂.host = s₂.host) ∧
    ∀ s₃, s₂.Ends k s₃ → s₃ = s₂
  /-- When the use of one ends, those that are in use stay so, and their directories stay as they
  are; so does what a removal that failed has left at another path. -/
  others : ∀ (j k : Nat) (s₁ : Estate) (v w : Workspace), s.Ends k s₁ → j ≠ k →
    s.guards[j]? = some v → s.guards[k]? = some w → v.released = false ∨ v.path ≠ w.path →
    s₁.guards[j]? = some v ∧ ∃ ws, s.host.files.resolve s.host.cwd v.path false = .ok ws ∧
      s₁.host.files.resolve s₁.host.cwd v.path false = .ok ws ∧
      (v.released = false → ∃ mode, s.host.files.get? ws = some (.directory mode)) ∧
      ∀ q, IsReal q → ws <+: q → s₁.host.files.get? q = s.host.files.get? q

/-- **However workspaces are made, used and released** under one root, and whatever identifiers are
drawn for them, each owner is left alone by all the others. -/
theorem isolated_of_runs {p : Pipeline} {s s' : Estate} (hsound : s.host.files.IsSound)
    (hcwd : IsReal s.host.cwd) (hfresh : s.guards = []) (hruns : Runs p s s') : s'.Isolated p := by
  refine ⟨?apart, ?taken, ?once, ?others⟩
  case apart =>
    rcases held_of_runs hsound hcwd hfresh hruns with hnobody | ⟨R, -, hheld⟩
    · simp [hnobody]
    · exact hheld.apart
  case taken =>
    intro n hn
    rcases acquireWorkspace_cases p s'.host with
      ⟨w, h, ws, -, hpath, -, -, hleads, hnone, -⟩ | ⟨detail, h, hrefused, -, hfiles, htaken⟩
    · obtain ⟨ws', hws', hn⟩ := Tree.bind_eq_ok hn
      rw [← hpath, hleads] at hws'
      obtain rfl := Except.ok.inj hws'
      rw [hnone] at hn
      cases hn
    · exact ⟨h, htaken n hn ▸ hrefused, hfiles⟩
  case once =>
    intro k s₁ s₂ hends hlater
    obtain ⟨w, hw, hreleased⟩ := hends.released
    have hw₂ := hlater.released hw hreleased
    refine ⟨fun v hv => ?_, fun s₃ hagain => (hagain.effect hw₂).1 hreleased⟩
    obtain rfl := Option.some.inj (hw₂.symm.trans hv)
    have hnothing := release_of_released (h := s₂.host) hreleased
    refine ⟨hnothing, ?_⟩
    rw [Workspace.drop, hnothing]
  case others =>
    intro j k s₁ v w hends hjk hv hw hother
    rcases held_of_runs hsound hcwd hfresh hruns with hnobody | ⟨R, hreal, hheld⟩
    · simp [hnobody] at hv
    have hheld₁ := hheld.ends hsound hreal hends
    obtain ⟨name, howns, hthere⟩ := hheld.owned j v hv
    have hleads := howns.leads _ hheld.retains
    have hleads₁ := howns.leads _ hheld₁.retains
    rw [← hheld.cwd_eq] at hleads
    rw [← hheld₁.cwd_eq] at hleads₁
    obtain ⟨hlate, hfirst⟩ := hends.effect hw
    rcases hreleased : w.released with _ | _
    · have hne : v.path ≠ w.path := by
        rcases hother with hlive | hne
        · exact hheld.apart j k v w hv hw hjk hlive hreleased
        · exact hne
      obtain ⟨name', howns', -⟩ := hheld.owned k w hw
      have hplace := howns'.leads _ hheld.retains
      rw [← hheld.cwd_eq] at hplace
      obtain ⟨hguards, -, hoff⟩ := hfirst hreleased _ hplace (by simp)
      refine ⟨?_, _, hleads, hleads₁, hthere, fun q hq hbelow => hoff q hq ?_⟩
      · rw [hguards, List.getElem?_set_ne (Ne.symm hjk)]
        exact hv
      · exact howns.apart howns' hne hbelow
    · rw [hlate hreleased] at hleads₁ ⊢
      exact ⟨hv, _, hleads, hleads₁, hthere, fun q _ _ => rfl⟩

/-- A host on which the same identifier is drawn again and again. -/
def stubbornHost : Host :=
  { files := precious, ids := fun _ => .ofBits 0 }

/-- An identifier that is drawn again is refused while its directory is there, and given out anew
once it was dropped. -/
theorem isolated_of_drawnAgain : ∃ s', ((⟨stubbornHost, []⟩ : Estate).host.files.IsSound ∧
      IsReal (⟨stubbornHost, []⟩ : Estate).host.cwd ∧
      Runs ⟨"/", usualTools⟩ ⟨stubbornHost, []⟩ s') ∧
    s'.guards.map (fun w => (w.path, w.released)) = [(firstPath, true), (firstPath, false)] ∧
    s'.Isolated ⟨"/", usualTools⟩ := by
  have hnext (h : Host) (hids : h.ids = stubbornHost.ids) :
      Pipeline.nextWorkspace ⟨"/", usualTools⟩ h = firstPath := by
    rw [Pipeline.nextWorkspace, hids]
    show Workspace.pathOf "/" (.ofBits 0) = firstPath
    decide +kernel
  have hopen := hasRoom_firstPath.toIsOpen
  -- a directory is made where there is room for it
  have hmake {t : Tree} (hsite : t.Site [] firstPath firstPlace) :
      t.makeDirectory [] firstPath Workspace.mode =
        .ok (t.put firstPlace (.directory Workspace.mode)) := by
    simp only [makeDirectory, withoutSlashes_of_isOpen hopen, hsite.leads, hsite.empty, hsite.above,
      bind, Except.bind]
    rfl
  have hgets {h : Host} (hids : h.ids = stubbornHost.ids) (hcwd : h.cwd = [])
      (hsite : h.files.Site [] firstPath firstPlace) : ∃ w h',
      Pipeline.acquireWorkspace ⟨"/", usualTools⟩ h = .ok w h' ∧ w.path = firstPath ∧
        w.released = false ∧ h'.ids = stubbornHost.ids ∧ h'.cwd = [] ∧
        h'.files = h.files.put firstPlace (.directory Workspace.mode) := by
    rw [acquireWorkspace_eq, hnext h hids, hcwd, hmake hsite]
    exact ⟨_, _, rfl, rfl, rfl, hids, rfl, rfl⟩
  have hsite : precious.Site [] firstPath firstPlace := site_staleHost
  have hprepared : Prepared firstPlace precious
      (precious.put firstPlace (.directory Workspace.mode)) :=
    hsite.prepared (by decide) ⟨by decide, by decide⟩
  obtain ⟨w, h₁, hfirst, hpath, hlive, hids₁, hcwd₁, hfiles₁⟩ :=
    hgets (h := stubbornHost) rfl rfl hsite
  -- while it is there, its name is refused
  obtain ⟨e, h₂, hrefused, hids₂, hcwd₂, hfiles₂⟩ : ∃ e h₂,
      Pipeline.acquireWorkspace ⟨"/", usualTools⟩ h₁ = .error e h₂ ∧ h₂.ids = stubbornHost.ids ∧
        h₂.cwd = [] ∧ h₂.files = precious.put firstPlace (.directory Workspace.mode) := by
    have htaken : h₁.files.makeDirectory [] firstPath Workspace.mode = .error .alreadyExists := by
      rw [hfiles₁]
      have hthere := hsite.leads_of_off hprepared.off
      change (stubbornHost.files.put firstPlace _).resolve [] firstPath false = _ at hthere
      simp only [makeDirectory, withoutSlashes_of_isOpen hopen, hthere,
        get?_put_self stubbornHost.files _ hsite.ne_nil, bind, Except.bind]
      rfl
    rw [acquireWorkspace_eq, hnext h₁ hids₁, hcwd₁, htaken]
    exact ⟨_, _, rfl, hids₁, rfl, hfiles₁⟩
  -- once it is dropped, its name is free
  obtain ⟨hguard, hfiles₃, hcwd₃, hids₃⟩ := release_of_live (h := h₂) hlive
  have hgone : Gone firstPlace precious (w.drop h₂).files := by
    rw [Workspace.drop, hfiles₃, hfiles₂, hcwd₂, hpath]
    exact hprepared.toConfined.fenced.removed hsite
  obtain ⟨v, h₄, hagain, hpath', hlive', -⟩ := hgets (h := w.drop h₂) (hids₃.trans hids₂) (hcwd₃.trans hcwd₂)
    (hgone.site hsite)
  have hruns := (((Relation.ReflTransGen.single (Step.acquire (s := ⟨stubbornHost, []⟩) hfirst)).tail
    (.refuse hrefused)).tail (.finish 0 (.drop rfl))).tail (.acquire hagain)
  refine ⟨_, ⟨isSound_precious, isReal_nil, hruns⟩, ?_,
    isolated_of_runs isSound_precious isReal_nil rfl hruns⟩
  simp [hguard, hpath, hpath', hlive']

end Estate

end LangBundle
