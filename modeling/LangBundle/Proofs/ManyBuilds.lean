import LangBundle.Proofs.Abreast

/-!
# Many builds under one root

Any number of builds may be under way under one root, each in a workspace of its own, and whose turn
it is may be decided in any way.  None of them notices the others, unless a tool leaves a link in its
workspace that leads out of it.

* `Workspace.nameOf_injective`: **different identifiers** give different workspaces.
* `RootAt`: where workspaces are made; `Abreast.step`: **each step** of a build next to others leads
  to the same as when it is alone.
* `Crowd`: builds under way; `Crowd.turn`: one of them goes on.
* `Crowd.Level`: every build has come as far as it does alone; `Crowd.level_turns`: **any turns** keep
  it.
* `undisturbed_of_worksBelow`: **builds** do not disturb each other.
* `keepsInside_writer`: tools that write files leave no way out.
* `not_undisturbed_of_prowler`: a tool that makes links does.
-/

namespace LangBundle

open Files Files.Tree
open Estate (Leads)

/-! ## Identifiers -/

theorem Uuid.hexDigit_injective : Function.Injective Uuid.hexDigit := by
  intro c d
  revert c d
  decide

theorem Uuid.hexDigit_ne_hyphen (d : Fin 16) : Uuid.hexDigit d ≠ '-' := by
  revert d
  decide

/-- What is between the hyphens of a written identifier are its digits. -/
theorem Uuid.filter_text (u : Uuid) :
    u.text.toList.filter (· ≠ '-') = u.digits.toList.map hexDigit := by
  have hdigits : ∀ c ∈ u.digits.toList.map hexDigit, (c ≠ '-' : Bool) = true := by
    intro c hc
    obtain ⟨d, -, rfl⟩ := List.mem_map.1 hc
    simpa using hexDigit_ne_hyphen d
  rw [Uuid.text, String.toList_ofList]
  generalize u.digits.toList.map hexDigit = ds at hdigits
  have hpart {part : List Char} (hpart : part.Sublist ds) : part.filter (· ≠ '-') = part :=
    List.filter_eq_self.2 fun c hc => hdigits c (hpart.subset hc)
  have hgroup (n k : Nat) : ((ds.drop n).take k).Sublist ds :=
    (List.take_sublist _ _).trans (List.drop_sublist _ _)
  have hhyphen (rest : List Char) : ('-' :: rest).filter (· ≠ '-') = rest.filter (· ≠ '-') :=
    List.filter_cons_of_neg (by decide)
  have hjoin (n k : Nat) : (ds.drop n).take k ++ ds.drop (n + k) = ds.drop n := by
    rw [← List.drop_drop, List.take_append_drop]
  simp only [List.filter_append, hhyphen, hpart (List.take_sublist 8 ds), hpart (hgroup _ _),
    hpart (List.drop_sublist 20 ds), List.append_assoc]
  rw [hjoin 16 4, hjoin 12 4, hjoin 8 4, List.take_append_drop]

/-- Identifiers that are written alike are the same. -/
theorem Uuid.text_injective : Function.Injective Uuid.text := by
  intro u v h
  have hdigits : u.digits.toList.map hexDigit = v.digits.toList.map hexDigit := by
    rw [← filter_text, ← filter_text, h]
  obtain ⟨u⟩ := u
  obtain ⟨v⟩ := v
  exact congrArg Uuid.mk (Vector.toList_inj.1 (List.map_injective_iff.2 hexDigit_injective hdigits))

/-! ## Making workspaces -/

/-- The name of the workspace with an identifier. -/
def Workspace.nameOf (id : Uuid) : String :=
  namePrefix ++ id.text

theorem Workspace.nameOf_injective : Function.Injective Workspace.nameOf := by
  intro u v h
  have htexts : namePrefix.toList ++ u.text.toList = namePrefix.toList ++ v.text.toList := by
    rw [← String.toList_append, ← String.toList_append]
    exact congrArg String.toList h
  exact Uuid.text_injective (String.toList_inj.1 (List.append_cancel_left htexts))

theorem Workspace.leadsDown_nameOf (id : Uuid) : Path.IsPlain (nameOf id) ∧ nameOf id ≠ ".." :=
  leadsDown_workspace id

theorem Workspace.pathOf_eq (root : String) (id : Uuid) :
    pathOf root id = Path.join root (nameOf id) := by
  rw [pathOf, nameOf]

theorem Workspace.isAbsolute_pathOf (root : String) (id : Uuid) :
    Path.isAbsolute (pathOf root id) = Path.isAbsolute root := by
  rw [pathOf_eq]
  exact Path.isAbsolute_join (Path.isAbsolute_eq_false (leadsDown_nameOf id).1.noSlash) root

theorem Workspace.isOpen_pathOf (root : String) (id : Uuid) : Path.IsOpen (pathOf root id) := by
  rw [pathOf_eq]
  exact Path.isOpen_join (leadsDown_nameOf id).1 root

/-- Where a build works if its workspace is made in `R`. -/
def Build.berth (b : Build) (root : String) (cwd R : Place) : Berth :=
  ⟨cwd, Workspace.pathOf root b.id, R ++ [Workspace.nameOf b.id]⟩

section
variable {root : String} {id : Uuid} {h : Host}

/-- **Making** a workspace is making its directory. -/
theorem Workspace.acquire_of_ok {t : Tree}
    (hmake : h.files.makeDirectory h.cwd (pathOf root id) mode = .ok t) :
    acquire root id h = .ok ⟨id, pathOf root id, false⟩
      (Host.note { h with files := t } (.acquired (pathOf root id))) := by
  have hmade : Service.onFiles (pathOf root id)
      (fun t cwd => return ((), ← t.makeDirectory cwd (pathOf root id) mode)) h =
      .ok () { h with files := t } := by
    simp only [Service.onFiles, bind, Except.bind, hmake, pure, Except.pure]
  exact Service.bind_of_ok hmade

theorem Workspace.acquire_of_error {fault : Fault}
    (hmake : h.files.makeDirectory h.cwd (pathOf root id) mode = .error fault) :
    acquire root id h = .error (.io (pathOf root id) fault.message) h := by
  have hrefused : Service.onFiles (pathOf root id)
      (fun t cwd => return ((), ← t.makeDirectory cwd (pathOf root id) mode)) h =
      .error (.io (pathOf root id) fault.message) h := by
    simp only [Service.onFiles, bind, Except.bind, hmake]
  exact Service.bind_of_error hrefused

end

namespace Files.Tree

variable {base t : Tree} {R : Place} {name : String} {mode : Nat}

/-- **One name** from a directory: the walk does not depend on what is there. -/
theorem walk_name (hR : t.get? R = some (.directory mode))
    (hname : Path.IsPlain name ∧ name ≠ "..") (links : Nat) :
    t.walk false links R [name] =
      if mode &&& Permission.execute.bit = 0 then .error .permissionDenied
      else if maxName < name.utf8ByteSize then .error .nameTooLong
      else .ok (R ++ [name]) := by
  by_cases henter : t.Enters R name
  · obtain ⟨mode', hmode', hsearch⟩ := henter.directory
    rw [hR] at hmode'
    obtain rfl := Node.directory.inj (Option.some.inj hmode')
    rw [walk_of_enters henter, if_neg hsearch, if_neg (Nat.not_lt.2 henter.short)]
  rw [walk_cons, hR]
  dsimp only
  rw [if_neg hname.1.not_empty, if_neg hname.1.not_dot, if_neg hname.2]
  by_cases hsearch : mode &&& Permission.execute.bit = 0
  · rw [if_pos hsearch, if_pos hsearch]
  rw [if_neg hsearch, if_neg hsearch]
  by_cases hlong : maxName < name.utf8ByteSize
  · rw [if_pos hlong, if_pos hlong]
  · exact absurd ⟨⟨mode, hR, hsearch⟩, hname.1.not_empty, hname.1.not_dot, hname.2,
      Nat.not_lt.1 hlong⟩ henter

/-- **Making** a directory where the same is in another tree, and so is what is above it. -/
theorem makeDirectory_alike {cwd : Place} {path : String} (hpath : Path.IsOpen path)
    (hleads : t.resolve cwd path false = base.resolve cwd path false)
    (hsame : ∀ p, base.resolve cwd path false = .ok p →
      t.get? p = base.get? p ∧ t.requireAbove p = base.requireAbove p) :
    (∃ p, base.resolve cwd path false = .ok p ∧ base.get? p = none ∧
      t.makeDirectory cwd path mode = .ok (t.put p (.directory mode)) ∧
      base.makeDirectory cwd path mode = .ok (base.put p (.directory mode))) ∨
    ∃ fault, t.makeDirectory cwd path mode = .error fault ∧
      base.makeDirectory cwd path mode = .error fault := by
  simp only [makeDirectory, withoutSlashes_of_isOpen hpath, hleads, bind, Except.bind]
  rcases hp : base.resolve cwd path false with fault | p
  · exact .inr ⟨fault, rfl, rfl⟩
  obtain ⟨hget, habove⟩ := hsame p hp
  dsimp only
  rw [hget, habove]
  rcases hnode : base.get? p with _ | n
  · dsimp only
    rcases base.requireAbove p with fault | _
    · exact .inr ⟨fault, rfl, rfl⟩
    · exact .inl ⟨p, rfl, hnode, rfl, rfl⟩
  · exact .inr ⟨.alreadyExists, rfl, rfl⟩

theorem Passes.le {left links : Nat} {dir p : Place} {todo : List String}
    (h : t.Passes left links dir todo p) : left ≤ links := by
  induction h with
  | here => exact Nat.le_refl _
  | stay _ _ _ ih => exact ih
  | up _ _ _ ih => exact ih
  | jump _ _ _ _ ih => exact Nat.le_succ_of_le ih
  | down _ _ _ ih => exact ih

/-- A walk through a directory goes on through what is entered there. -/
theorem Passes.snoc {left links : Nat} {dir : Place} {todo : List String}
    (h : t.Passes left links dir todo R) (henter : t.Enters R name)
    (hlink : ∀ target, t.get? (R ++ [name]) ≠ some (.link target)) :
    t.Passes left links dir (todo ++ [name]) (R ++ [name]) := by
  induction h with
  | here => exact .down henter hlink .here
  | stay hdir hname _ ih => exact .stay hdir hname (ih henter hlink)
  | up hdir hsearch _ ih => exact .up hdir hsearch (ih henter hlink)
  | jump hin htarget hne _ ih =>
    refine .jump hin htarget hne ?_
    simpa only [List.append_eq, List.append_assoc] using ih henter hlink
  | down hin hdown _ ih => exact .down hin hdown (ih henter hlink)

end Files.Tree

section
variable {base : Tree} {cwd R : Place} {p : Pipeline} {front : List String}
  (hroot : Leads base cwd p front R)
include hroot

/-- **The path** of a workspace leads to its name in the root, or nowhere, whatever is added. -/
theorem Estate.Leads.resolve_workspace (id : Uuid) {t : Tree} (ht : base.Retains t) :
    t.resolve cwd (Workspace.pathOf p.root id) false =
        base.resolve cwd (Workspace.pathOf p.root id) false ∧
      ∀ q, base.resolve cwd (Workspace.pathOf p.root id) false = .ok q →
        q = R ++ [Workspace.nameOf id] ∧ base.Enters R (Workspace.nameOf id) := by
  obtain ⟨left, hpasses⟩ := hroot.passes
  obtain ⟨mode, hR⟩ := hroot.directory
  have hname := Workspace.leadsDown_nameOf id
  have hsplit := hroot.split _ hname.1
  rw [← Workspace.pathOf_eq] at hsplit
  have hwalk (t : Tree) (ht : base.Retains t) :
      t.walk false maxLinks (if Path.isAbsolute (Workspace.pathOf p.root id) then [] else cwd)
        (Text.split '/' (Workspace.pathOf p.root id)) = t.walk false left R [Workspace.nameOf id] := by
    rw [Workspace.isAbsolute_pathOf, hsplit]
    exact (hpasses.retained ht (by simp [hR]) hroot.start_real hroot.front_real).walk_append false
      (by simp)
  refine ⟨?_, fun q hq => ?_⟩
  · rw [resolve, resolve, hwalk t ht, hwalk base (.refl base),
      walk_name (ht R _ hroot.isReal hR) hname, walk_name hR hname]
  · have hwalks := walk_of_walks (resolve_eq_ok_iff.1 hq).2
    rw [hwalk base (.refl base)] at hwalks
    exact ((walks_of_walk hwalks).eq_enter hname).symm

/-- **A workspace** that can be made lies in the root. -/
theorem Estate.Leads.lies (hsound : base.IsSound) (b : Build)
    (hleads : base.resolve cwd (Workspace.pathOf p.root b.id) false =
      .ok (R ++ [Workspace.nameOf b.id]))
    (hnone : base.get? (R ++ [Workspace.nameOf b.id]) = none) :
    (b.berth p.root cwd R).Lies base := by
  have hname := Workspace.leadsDown_nameOf b.id
  obtain ⟨left, hpasses⟩ := hroot.passes
  obtain ⟨mode, hR⟩ := hroot.directory
  have henter := ((hroot.resolve_workspace b.id (.refl base)).2 _ hleads).2
  have hopen := Workspace.isOpen_pathOf p.root b.id
  rw [Build.berth]
  constructor <;> try dsimp only
  · exact hsound
  · exact hroot.cwd_real
  · exact hopen
  · exact hroot.isReal.snoc hname.1.noSlash
  · exact hnone
  · exact fun t ht => (hroot.resolve_workspace b.id ht).1.trans hleads
  · refine ⟨left, fun t ht hlink => ?_⟩
    have hpasses' := hpasses.retained ht (by simp [hR]) hroot.start_real hroot.front_real
    have hgoes := hpasses'.snoc (henter.retained ht hroot.isReal) hlink
    rw [← hroot.split _ hname.1, ← Workspace.pathOf_eq,
      ← Workspace.isAbsolute_pathOf p.root b.id] at hgoes
    exact ⟨hpasses.le, hgoes⟩

end

/-- **A directory** that has been made for a workspace. -/
theorem Berth.Lies.bare_of_made {base t : Tree} {b : Berth} (hlies : b.Lies base)
    (hsite : t.Site b.cwd b.path b.ws) (hretains : base.Retains t) :
    Bare base b (t.put b.ws (.directory Workspace.mode)) ∧
      ChangedBelow b.ws t (t.put b.ws (.directory Workspace.mode)) := by
  have hprepared : Prepared b.ws t (t.put b.ws (.directory Workspace.mode)) :=
    hsite.prepared (by decide) ⟨by decide, by decide⟩
  exact Bare.changed hlies hretains hprepared.sound hprepared.off hprepared.toUnlinked
    (get?_put_self t _ hsite.ne_nil)

/-- **Two directories** that have been made for it hold the same: nothing. -/
theorem Berth.Lies.fresh_of_made {base t : Tree} {b : Berth} (hlies : b.Lies base)
    (hsite : t.Site b.cwd b.path b.ws) (hsite' : base.Site b.cwd b.path b.ws)
    (hretains : base.Retains t) :
    Fresh base b (t.put b.ws (.directory Workspace.mode))
      (base.put b.ws (.directory Workspace.mode)) where
  left := (hlies.bare_of_made hsite hretains).1
  right := (hlies.bare_of_made hsite' (.refl base)).1
  view := view_eq_iff.2 fun r hr => by
    by_cases hroot : r = []
    · rw [hroot, List.append_nil, get?_put_self t _ hsite.ne_nil, get?_put_self base _ hsite.ne_nil]
    · have hne : b.ws ++ r ≠ b.ws := by simpa using hroot
      have hreal := hlies.real.append hr
      rw [get?_put_of_ne t _ hne, get?_put_of_ne base _ hne,
        hsite.nothing hreal (List.prefix_append _ _), hsite'.nothing hreal (List.prefix_append _ _)]

section
variable {base : Tree} {cwd R : Place} {p : Pipeline} {front : List String}
  (hroot : Leads base cwd p front R) {f : ToolFunction} {h h' : Host}
include hroot

/-- **The directory** of a workspace is made in both trees, or in none. -/
theorem Estate.Leads.makeDirectory_alike (hsound : base.IsSound) (build : Build) {t : Tree}
    (ht : t.IsSound) (hretains : base.Retains t)
    (hvacant : ∀ q, IsReal q → R ++ [Workspace.nameOf build.id] <+: q → t.get? q = base.get? q) :
    (∃ u u', t.makeDirectory cwd (Workspace.pathOf p.root build.id) Workspace.mode = .ok u ∧
      base.makeDirectory cwd (Workspace.pathOf p.root build.id) Workspace.mode = .ok u' ∧
      (build.berth p.root cwd R).Lies base ∧ Fresh base (build.berth p.root cwd R) u u' ∧
      ChangedBelow (R ++ [Workspace.nameOf build.id]) t u) ∨
    ∃ fault, t.makeDirectory cwd (Workspace.pathOf p.root build.id) Workspace.mode = .error fault ∧
      base.makeDirectory cwd (Workspace.pathOf p.root build.id) Workspace.mode = .error fault := by
  have hname := Workspace.leadsDown_nameOf build.id
  obtain ⟨mode, hR⟩ := hroot.directory
  have hopen := Workspace.isOpen_pathOf p.root build.id
  obtain ⟨hsame, hplace⟩ := hroot.resolve_workspace build.id hretains
  have hthere (q : Place) (hq : base.resolve cwd (Workspace.pathOf p.root build.id) false = .ok q) :
      t.get? q = base.get? q ∧ t.requireAbove q = base.requireAbove q := by
    obtain ⟨rfl, -⟩ := hplace q hq
    refine ⟨hvacant _ (hroot.isReal.snoc hname.1.noSlash) List.prefix_rfl, ?_⟩
    rw [requireAbove, requireAbove, List.dropLast_concat, hretains R _ hroot.isReal hR, hR]
  obtain ⟨q, hq, hnone, hmake, hmake'⟩ | hrefused :=
    Files.Tree.makeDirectory_alike hopen hsame hthere
  swap
  · exact .inr hrefused
  obtain ⟨rfl, -⟩ := hplace q hq
  have hlies := hroot.lies hsound build hq hnone
  rw [Build.berth] at hlies ⊢
  generalize Workspace.pathOf p.root build.id = path at *
  have hsite {t u : Tree} (ht : t.IsSound)
      (hleads : t.resolve cwd path false = .ok (R ++ [Workspace.nameOf build.id]))
      (hmake : t.makeDirectory cwd path Workspace.mode = .ok u) :
      t.Site cwd path (R ++ [Workspace.nameOf build.id]) := by
    obtain ⟨q', hq', hnone', habove, -⟩ := makeDirectory_eq_ok hmake
    rw [withoutSlashes_of_isOpen hopen] at hq'
    obtain rfl := Except.ok.inj (hq'.symm.trans hleads)
    exact ⟨ht, hroot.cwd_real, hq', hnone', habove⟩
  have hleft := hsite ht (hsame.trans hq) hmake
  exact .inl ⟨_, _, hmake, hmake', hlies, hlies.fresh_of_made hleft (hsite hsound hq hmake') hretains,
    (hlies.bare_of_made hleft hretains).2⟩

end

/-! ## The root -/

/-- Workspaces are made in `R`, or the root leads nowhere and all is as it was at the beginning. -/
inductive RootAt (base : Tree) (cwd : Place) (p : Pipeline) (R : Place) (t : Tree) : Prop
  | leads {front : List String} (hroot : Leads base cwd p front R) : RootAt base cwd p R t
  | nowhere (hnever : ∀ id ws, base.resolve cwd (Workspace.pathOf p.root id) false ≠ .ok ws)
      (hsame : t = base) : RootAt base cwd p R t

theorem exists_rootAt (base : Tree) {cwd : Place} (p : Pipeline) (hcwd : IsReal cwd) :
    ∃ R, IsReal R ∧ RootAt base cwd p R base := by
  by_cases hever : ∃ id ws, base.resolve cwd (Workspace.pathOf p.root id) false = .ok ws
  · obtain ⟨id, ws, hleads⟩ := hever
    obtain ⟨front, hfront⟩ := Path.exists_front p.root
    have hname := Workspace.leadsDown_nameOf id
    have hsplit := hfront _ hname.1
    rw [← Workspace.pathOf_eq] at hsplit
    have hwalks := (resolve_eq_ok_iff.1 hleads).2
    rw [Workspace.isAbsolute_pathOf] at hwalks
    obtain ⟨R, left, mode, hpasses, hR⟩ := hwalks.passes_front hsplit hname
    have hroot : Leads base cwd p front R :=
      ⟨hcwd, fun piece hpiece => isReal_split _ piece (hsplit ▸ List.mem_append_left _ hpiece),
        hfront, ⟨left, hpasses⟩, mode, hR⟩
    exact ⟨R, hroot.isReal, .leads hroot⟩
  · exact ⟨[], isReal_nil, .nowhere (fun id ws hleads => hever ⟨id, ws, hleads⟩) rfl⟩

section
variable {base : Tree} {cwd R : Place} {p : Pipeline} {f : ToolFunction} {h h' : Host}

/-- **The directory** of a workspace is made in both trees, or in none, wherever the root leads. -/
theorem RootAt.makeDirectory_alike (hsound : base.IsSound) (build : Build) {t : Tree}
    (hroot : RootAt base cwd p R t) (ht : t.IsSound) (hretains : base.Retains t)
    (hvacant : ∀ q, IsReal q → R ++ [Workspace.nameOf build.id] <+: q → t.get? q = base.get? q) :
    (∃ u u', t.makeDirectory cwd (Workspace.pathOf p.root build.id) Workspace.mode = .ok u ∧
      base.makeDirectory cwd (Workspace.pathOf p.root build.id) Workspace.mode = .ok u' ∧
      (build.berth p.root cwd R).Lies base ∧ Fresh base (build.berth p.root cwd R) u u' ∧
      ChangedBelow (R ++ [Workspace.nameOf build.id]) t u) ∨
    ∃ fault, t.makeDirectory cwd (Workspace.pathOf p.root build.id) Workspace.mode = .error fault ∧
      base.makeDirectory cwd (Workspace.pathOf p.root build.id) Workspace.mode = .error fault := by
  cases hroot with
  | leads hroot => exact hroot.makeDirectory_alike hsound build ht hretains hvacant
  | nowhere hnever hsame =>
    subst hsame
    rcases hmake : t.makeDirectory cwd (Workspace.pathOf p.root build.id) Workspace.mode with
      fault | u
    · exact .inr ⟨fault, rfl, rfl⟩
    · obtain ⟨ws, hleads, -⟩ := makeDirectory_eq_ok hmake
      rw [withoutSlashes_of_isOpen (Workspace.isOpen_pathOf p.root build.id)] at hleads
      exact absurd hleads (hnever _ _)

/-- **The making** of a workspace leads to the same on both hosts. -/
theorem goes_waiting (hsound : base.IsSound) (build : Build)
    (hpair : Paired f (build.berth p.root cwd R) (build.berth p.root cwd R) (fun t t' => t' = base ∧
      ∀ q, IsReal q → R ++ [Workspace.nameOf build.id] <+: q → t.get? q = base.get? q) h h')
    (hroot : RootAt base cwd p R h.files) (ht : h.files.IsSound) (hretains : base.Retains h.files) :
    Goes f base (build.berth p.root cwd R) h.files (build.step p .waiting h)
        (build.step p .waiting h') ∧
      ((build.step p .waiting h).2.files = h.files ∨ (build.berth p.root cwd R).Lies base) := by
  obtain ⟨hcalls, hcalls', hcwd, hcwd', hbase, hvacant⟩ := hpair
  have hmakes := hroot.makeDirectory_alike hsound build ht hretains hvacant
  change h.cwd = cwd at hcwd
  change h'.cwd = cwd at hcwd'
  rw [Build.step, Build.step]
  obtain ⟨u, u', hmake, hmake', hlies, hfresh, hchanged⟩ | ⟨fault, hmake, hmake'⟩ := hmakes
  · rw [← hcwd] at hmake
    rw [← hcwd', ← hbase] at hmake'
    rw [Workspace.acquire_of_ok hmake, Workspace.acquire_of_ok hmake']
    dsimp only [Build.settle]
    have hstarts : Paired f (build.berth p.root cwd R) (build.berth p.root cwd R)
        (Fresh base (build.berth p.root cwd R)) { h with files := u } { h' with files := u' } :=
      Paired.of_files (R := fun _ _ => True) ⟨hcalls, hcalls', hcwd, hcwd', trivial⟩ hfresh
    exact ⟨⟨(hstarts.note _).imp fun _ _ hfresh =>
      .working hlies (.storing rfl hfresh ⟨rfl, fun _ hin => absurd hin List.not_mem_nil⟩ .none),
      hfresh.moves hchanged⟩, .inr hlies⟩
  · rw [← hcwd] at hmake
    rw [← hcwd', ← hbase] at hmake'
    rw [Workspace.acquire_of_error hmake, Workspace.acquire_of_error hmake']
    dsimp only [Build.settle]
    exact ⟨⟨⟨hcalls, hcalls', hcwd, hcwd', .ended⟩, .refl ht hretains⟩, .inl rfl⟩

theorem RootAt.of_moved {build : Build} {t u : Tree} (hroot : RootAt base cwd p R t)
    (hmoved : u = t ∨ (build.berth p.root cwd R).Lies base) : RootAt base cwd p R u := by
  cases hroot with
  | leads hroot => exact .leads hroot
  | nowhere hnever hsame =>
    obtain rfl | hlies := hmoved
    · exact .nowhere hnever hsame
    · have hleads := hlies.leads base (.refl base)
      dsimp only [Build.berth] at hleads
      exact absurd hleads (hnever _ _)

/-- How far a build may have come. -/
theorem Abreast.cases {b : Berth} {phase phase' : Build.Phase} {t t' : Tree}
    (habreast : Abreast base b phase phase' t t') :
    (phase = .waiting ∧ phase' = .waiting ∧ t' = base ∧
      ∀ q, IsReal q → b.ws <+: q → t.get? q = base.get? q) ∨
    (b.Lies base ∧ Working base b phase phase' t t') ∨
    ∃ outcome, phase = .ended outcome ∧ phase' = .ended outcome := by
  cases habreast with
  | waiting hvacant => exact .inl ⟨rfl, rfl, rfl, hvacant⟩
  | working hlies hworking => exact .inr (.inl ⟨hlies, hworking⟩)
  | ended => exact .inr (.inr ⟨_, rfl, rfl⟩)

/-- A build ends on both hosts, with the same outcome. -/
theorem Abreast.ended_iff {b : Berth} {phase phase' : Build.Phase} {t t' : Tree}
    (habreast : Abreast base b phase phase' t t') (outcome : Build.Outcome) :
    phase = .ended outcome ↔ phase' = .ended outcome := by
  cases habreast with
  | waiting => exact ⟨nofun, nofun⟩
  | working _ hworking => cases hworking <;> exact ⟨nofun, nofun⟩
  | ended => exact Iff.rfl

/-- **Each step** of a build leads to the same on both hosts. -/
theorem Abreast.step (hsound : base.IsSound) (build : Build)
    (hkeeps : (build.berth p.root cwd R).Lies base →
      f.KeepsInside p base (build.berth p.root cwd R))
    {phase phase' : Build.Phase}
    (hpair : Paired f (build.berth p.root cwd R) (build.berth p.root cwd R)
      (Abreast base (build.berth p.root cwd R) phase phase') h h')
    (hroot : RootAt base cwd p R h.files) (ht : h.files.IsSound) (hretains : base.Retains h.files) :
    Goes f base (build.berth p.root cwd R) h.files (build.step p phase h)
        (build.step p phase' h') ∧
      RootAt base cwd p R (build.step p phase h).2.files := by
  obtain ⟨rfl, rfl, hvacant⟩ | ⟨hlies, hworking⟩ | ⟨outcome, rfl, rfl⟩ := hpair.files.cases
  · obtain ⟨hgoes, hmoved⟩ := goes_waiting hsound build
      ⟨hpair.calls, hpair.calls', hpair.cwd, hpair.cwd', hvacant⟩ hroot ht hretains
    exact ⟨hgoes, hroot.of_moved hmoved⟩
  · exact ⟨Working.step hlies (hkeeps hlies) build
      ⟨hpair.calls, hpair.calls', hpair.cwd, hpair.cwd', hworking⟩ ht hretains,
      hroot.of_moved (.inr hlies)⟩
  · exact ⟨⟨hpair, .refl ht hretains⟩, hroot⟩

end

/-! ## Turns -/

/-- Builds that are under way on one host. -/
structure Crowd (ι : Type) where
  host : Host
  /-- How far each of them has come. -/
  phases : ι → Build.Phase

/-- How far a build has come that is left alone, after a number of steps. -/
def Build.alone (p : Pipeline) (b : Build) (h : Host) (n : Nat) : Build.Phase × Host :=
  (b.advance p)^[n] (.waiting, b.drawnHost h)

theorem Build.alone_succ (p : Pipeline) (b : Build) (h : Host) (n : Nat) :
    b.alone p h (n + 1) = b.step p (b.alone p h n).1 (b.alone p h n).2 :=
  Function.iterate_succ_apply' _ _ _

namespace Crowd

variable {ι : Type}

/-- All of them are still to begin. -/
def start (h : Host) : Crowd ι :=
  ⟨h, fun _ => .waiting⟩

variable [DecidableEq ι] (p : Pipeline) (builds : ι → Build)

/-- One of them takes its next step. -/
def turn (s : Crowd ι) (i : ι) : Crowd ι :=
  let r := (builds i).step p (s.phases i) s.host
  ⟨r.2, Function.update s.phases i r.1⟩

/-- They take steps in some order. -/
def turns (s : Crowd ι) (schedule : List ι) : Crowd ι :=
  schedule.foldl (turn p builds) s

/-- What is known after some turns: every build has come as far as it has alone after as many steps
of its own. -/
structure Level (f : ToolFunction) (base : Tree) (cwd R : Place) (h : Host) (schedule : List ι)
    (s : Crowd ι) : Prop where
  sound : s.host.files.IsSound
  retains : base.Retains s.host.files
  root : RootAt base cwd p R s.host.files
  each : ∀ i, Paired f ((builds i).berth p.root cwd R) ((builds i).berth p.root cwd R)
    (Abreast base ((builds i).berth p.root cwd R) (s.phases i)
      ((builds i).alone p h (schedule.count i)).1)
    s.host ((builds i).alone p h (schedule.count i)).2

variable {p builds} {f : ToolFunction} {base : Tree} {cwd R : Place} {h : Host} {schedule : List ι}
  {s : Crowd ι}

/-- **At the beginning** nothing has been done. -/
theorem level_start (hcalls : h.CallsOnly f) (hsound : h.files.IsSound)
    (hroot : RootAt h.files h.cwd p R h.files) :
    Level p builds f h.files h.cwd R h [] (start h) where
  sound := hsound
  retains := .refl _
  root := hroot
  each _ := ⟨hcalls, ⟨hcalls.launch, hcalls.leftovers, hcalls.members⟩, rfl, rfl,
    .waiting fun _ _ _ => rfl⟩

omit [DecidableEq ι] in
/-- The workspaces of different builds have nothing in common. -/
theorem apart_of_ne (hids : Function.Injective fun i => (builds i).id) {i j : ι} (hne : j ≠ i)
    {q : Place} (hbelow : ((builds j).berth p.root cwd R).ws <+: q) :
    ¬ ((builds i).berth p.root cwd R).ws <+: q := by
  intro hbelow'
  have hsame := List.prefix_of_prefix_length_le hbelow hbelow' (by simp [Build.berth])
  have hnames := List.append_cancel_left (hsame.eq_of_length (by simp [Build.berth]))
  exact hne (hids (Workspace.nameOf_injective (List.singleton_inj.1 hnames)))

/-- **One turn** keeps it, and moves one workspace only. -/
theorem Level.turn (hlevel : Level p builds f base cwd R h schedule s) (hbase : base.IsSound)
    (hids : Function.Injective fun i => (builds i).id)
    (hkeeps : ∀ i, ((builds i).berth p.root cwd R).Lies base →
      f.KeepsInside p base ((builds i).berth p.root cwd R)) (i : ι) :
    Level p builds f base cwd R h (schedule ++ [i]) (s.turn p builds i) ∧
      ChangedBelow ((builds i).berth p.root cwd R).ws s.host.files
        (s.turn p builds i).host.files := by
  obtain ⟨⟨hpair, hmoves⟩, hroot⟩ := Abreast.step hbase (builds i) (hkeeps i) (hlevel.each i)
    hlevel.root hlevel.sound hlevel.retains
  refine ⟨⟨hmoves.sound, hmoves.retains, hroot, fun j => ?_⟩, hmoves.changed⟩
  by_cases hj : j = i
  · subst hj
    have hcount : (schedule ++ [j]).count j = schedule.count j + 1 := by simp
    have hphase : (s.turn p builds j).phases j = ((builds j).step p (s.phases j) s.host).1 :=
      Function.update_self _ _ _
    rw [hcount, Build.alone_succ, hphase]
    exact hpair
  · have hcount : (schedule ++ [i]).count j = schedule.count j := by
      simp [Ne.symm hj]
    have hphase : (s.turn p builds i).phases j = s.phases j := Function.update_of_ne hj _ _
    rw [hcount, hphase]
    obtain ⟨-, hcalls', -, hcwd', habreast⟩ := hlevel.each j
    exact ⟨hpair.calls, hcalls', hpair.cwd, hcwd',
      habreast.elsewhere hmoves.changed (fun q hq => apart_of_ne hids hj hq) hmoves.sound
        hmoves.retains⟩

/-- **Any turns** keep it. -/
theorem level_turns (hcalls : h.CallsOnly f) (hsound : h.files.IsSound)
    (hroot : RootAt h.files h.cwd p R h.files) (hids : Function.Injective fun i => (builds i).id)
    (hkeeps : ∀ i, ((builds i).berth p.root h.cwd R).Lies h.files →
      f.KeepsInside p h.files ((builds i).berth p.root h.cwd R)) (schedule : List ι) :
    Level p builds f h.files h.cwd R h schedule ((start h).turns p builds schedule) := by
  induction schedule using List.reverseRecOn with
  | nil => exact level_start hcalls hsound hroot
  | append_singleton schedule i ih =>
    rw [turns, List.foldl_append]
    exact (ih.turn hsound hids hkeeps i).1

/-- **A turn** of one build leaves the workspaces of all others as they are. -/
theorem Level.turn_others (hlevel : Level p builds f base cwd R h schedule s) (hbase : base.IsSound)
    (hids : Function.Injective fun i => (builds i).id)
    (hkeeps : ∀ i, ((builds i).berth p.root cwd R).Lies base →
      f.KeepsInside p base ((builds i).berth p.root cwd R)) {i j : ι} (hne : j ≠ i) {ws q : Place}
    (hleads : s.host.files.resolve cwd (Workspace.pathOf p.root (builds j).id) false = .ok ws)
    (hq : IsReal q) (hbelow : ws <+: q) :
    (s.turn p builds i).host.files.get? q = s.host.files.get? q := by
  have hchanged := (hlevel.turn hbase hids hkeeps i).2
  cases hlevel.root with
  | leads hroot =>
    obtain ⟨hsame, hplace⟩ := hroot.resolve_workspace (builds j).id hlevel.retains
    rw [hsame] at hleads
    obtain ⟨rfl, -⟩ := hplace ws hleads
    exact hchanged.off q hq (apart_of_ne hids hne hbelow)
  | nowhere hnever hsame =>
    rw [hsame] at hleads
    exact absurd hleads (hnever _ _)

variable (p builds h) in
/-- Builds do not disturb each other: whose turn it is does not matter for what each of them comes
to, and none of them touches the workspace of another one. -/
structure Undisturbed : Prop where
  /-- A build ends after some steps of its own, with what a server answers that has nothing else to
  do, and never in another way. -/
  comes : ∀ i, ∃ outcome n, (builds i).Answers p h outcome ∧ ∀ schedule : List ι,
    (n ≤ schedule.count i → ((start h).turns p builds schedule).phases i = .ended outcome) ∧
    ∀ outcome', ((start h).turns p builds schedule).phases i = .ended outcome' → outcome' = outcome
  /-- A step of one build changes nothing in the workspace of another one. -/
  others : ∀ (schedule : List ι) (i j : ι), j ≠ i → ∀ ws q,
    ((start h).turns p builds schedule).host.files.resolve h.cwd
      (Workspace.pathOf p.root (builds j).id) false = .ok ws → IsReal q → ws <+: q →
    ((start h).turns p builds (schedule ++ [i])).host.files.get? q =
      ((start h).turns p builds schedule).host.files.get? q

end Crowd

/-- A build that has ended stays so. -/
theorem Build.alone_of_ended {p : Pipeline} {b : Build} {h : Host} {n k : Nat}
    {outcome : Build.Outcome} (hle : n ≤ k) (hended : (b.alone p h n).1 = .ended outcome) :
    (b.alone p h k).1 = .ended outcome := by
  induction k, hle using Nat.le_induction with
  | base => exact hended
  | succ k _ ih => rw [alone_succ, ih, step]

/-- What a build that is left alone ends with was left to do from the beginning. -/
theorem Build.outcome_of_alone {p : Pipeline} {b : Build} {h : Host} {n : Nat}
    {outcome : Build.Outcome} (hended : (b.alone p h n).1 = .ended outcome) :
    outcome = b.rest p .waiting (b.drawnHost h) := by
  have hrest := rest_iterate p b n (.waiting, b.drawnHost h)
  change b.rest p (b.alone p h n).1 (b.alone p h n).2 = _ at hrest
  rw [hended, rest] at hrest
  exact hrest

/-- A place where a build works on a host. -/
structure Build.LiesAt (p : Pipeline) (h : Host) (build : Build) (b : Berth) : Prop where
  cwd : b.cwd = h.cwd
  path : b.path = Workspace.pathOf p.root build.id
  lies : b.Lies h.files

theorem Build.liesAt_berth {p : Pipeline} {h : Host} {R : Place} {b : Build}
    (hlies : (b.berth p.root h.cwd R).Lies h.files) : b.LiesAt p h (b.berth p.root h.cwd R) where
  cwd := by rw [Build.berth]
  path := by rw [Build.berth]
  lies := hlies

/-- **A build** that is left alone comes to an end, and to one end only. -/
theorem Build.exists_alone_ended (p : Pipeline) (b : Build) (h : Host) :
    ∃ outcome n, b.Answers p h outcome ∧ (∀ k, n ≤ k → (b.alone p h k).1 = .ended outcome) ∧
      ∀ k outcome', (b.alone p h k).1 = .ended outcome' → outcome' = outcome := by
  have hanswers := b.answers_rest p h
  obtain ⟨n, h', hn⟩ := b.exists_iterate_ended p (.waiting, b.drawnHost h)
  have honly (k : Nat) (outcome' : Build.Outcome) (hk : (b.alone p h k).1 = .ended outcome') :=
    outcome_of_alone hk
  generalize b.rest p .waiting (b.drawnHost h) = outcome at hanswers hn honly
  have hended : (b.alone p h n).1 = .ended outcome := congrArg Prod.fst hn
  exact ⟨outcome, n, hanswers, fun k hk => alone_of_ended hk hended, honly⟩

/-! ## Tools that write files -/

section
variable {base : Tree} {b : Berth} (hlies : b.Lies base)

theorem Lodges.shared {t : Tree} (h : Lodges base b t) : Shared base b t t :=
  ⟨h, h, rfl, fun _ _ _ _ => Iff.rfl⟩

variable {supply : Role → Supply} {names : List String} (hnames : names ∈ lookedAt supply)
include hlies hnames

/-- **A file** is written in the workspace. -/
theorem Lodges.write {t u : Tree} (h : Lodges base b t) {data : Bytes}
    (hwrite : t.write b.cwd (Path.below b.path names) data = .ok u) :
    Lodges base b u ∧ ChangedBelow b.ws t u := by
  obtain ⟨⟨sink, v⟩, hopen, hat⟩ := Tree.bind_eq_ok hwrite
  obtain ⟨⟨hopened, hchanged⟩, hinside, -⟩ := h.opened hlies (leadDown_of_mem_lookedAt hnames)
    (h.enclosed.stays supply names hnames) hopen
  obtain ⟨hwritten, hchanged'⟩ := hopened.written hlies hinside hat
  exact ⟨hwritten, hchanged.trans hchanged'⟩

/-- **The same** is written to a file in both trees, or nothing is. -/
theorem Shared.writeIfPossible {t t' : Tree} (h : Shared base b t t') (data : Bytes) :
    Shared base b (t.writeIfPossible b.cwd (Path.below b.path names) data)
        (t'.writeIfPossible b.cwd (Path.below b.path names) data) ∧
      ChangedBelow b.ws t (t.writeIfPossible b.cwd (Path.below b.path names) data) := by
  have hdown := leadDown_of_mem_lookedAt hnames
  have hbeside := h.beside hlies (h.left.enclosed.stays supply)
  have hleads := hbeside.resolve hlies.isOpen hlies.isOpen (fun _ => leadDown_of_mem_lookedAt) hnames
  unfold Files.Tree.writeIfPossible
  obtain ⟨u, u', hu, hu', htwins⟩ | ⟨fault, hu, hu'⟩ | ⟨hslack, -⟩ :=
    hbeside.twins.write hleads h.left.sound h.right.sound hdown.isOpen hdown.isOpen data
  · obtain ⟨hleft, hchanged⟩ := h.left.write hlies hnames hu
    obtain ⟨hright, -⟩ := h.right.write hlies hnames hu'
    rw [hu, hu']
    exact ⟨⟨hleft, hright, htwins⟩, hchanged⟩
  · rw [hu, hu']
    exact ⟨h, .refl _ _⟩
  · exact hslack.elim

end

section
variable {base : Tree} {b : Berth} (hlies : b.Lies base)
include hlies

/-- Files are written one after the other. -/
theorem Shared.written {t t' : Tree} (h : Shared base b t t') {files : List (String × Bytes)}
    (hfiles : ∀ file ∈ files, ∃ supply, [file.1] ∈ lookedAt supply) :
    Shared base b
        (files.foldl (fun t file => t.writeIfPossible b.cwd (Path.join b.path file.1) file.2) t)
        (files.foldl (fun t file => t.writeIfPossible b.cwd (Path.join b.path file.1) file.2) t') ∧
      ChangedBelow b.ws t
        (files.foldl (fun t file => t.writeIfPossible b.cwd (Path.join b.path file.1) file.2) t) := by
  induction files generalizing t t' with
  | nil => exact ⟨h, .refl _ _⟩
  | cons file rest ih =>
    obtain ⟨supply, hname⟩ := hfiles file List.mem_cons_self
    obtain ⟨hshared, hchanged⟩ := h.writeIfPossible hlies hname file.2
    obtain ⟨hshared', hchanged'⟩ :=
      ih hshared fun other hother => hfiles other (List.mem_cons_of_mem file hother)
    exact ⟨hshared', hchanged.trans hchanged'⟩

/-- **A tool that writes** what a build looks at keeps to the workspace. -/
theorem keepsInside_writer {p : Pipeline} {files : String → List (String × Bytes)}
    (hfiles : ∀ program, ∀ file ∈ files program, ∃ supply, [file.1] ∈ lookedAt supply) :
    (writer files).KeepsInside p base b where
  works := by
    refine ⟨fun t c d h _ hd => ?_, fun t t' c h h' _ htwins => ?_⟩
    · obtain rfl := Except.ok.inj hd
      obtain ⟨hshared, hchanged⟩ := h.shared.written hlies (hfiles c.program)
      exact ⟨hshared.left.sound, hchanged.off⟩
    · exact .done rfl rfl (Shared.written hlies ⟨h, h', htwins⟩ (hfiles c.program)).1.twins
  encloses t c d h _ hd := by
    obtain rfl := Except.ok.inj hd
    exact (h.shared.written hlies (hfiles c.program)).1.left.enclosed

end

/-! ## Builds do not disturb each other -/

/-- **Builds under one root** do not disturb each other, however their steps follow each other: with
tools that work below the directory they are called in and leave no way out of it, each build ends as
it does alone, and no step of one changes anything in the workspace of another one. -/
theorem undisturbed_of_worksBelow {ι : Type} [DecidableEq ι] {p : Pipeline} {f : ToolFunction}
    {h : Host} {builds : ι → Build} (hcalls : h.CallsOnly f) (hsound : h.files.IsSound)
    (hcwd : IsReal h.cwd) (hids : Function.Injective fun i => (builds i).id)
    (hworks : ∀ i b, (builds i).LiesAt p h b → f.WorksBelow p b (Lodges h.files b))
    (hencloses : ∀ i b, (builds i).LiesAt p h b → f.LeavesNoWayOut p h.files b) :
    Crowd.Undisturbed p builds h := by
  obtain ⟨R, -, hroot⟩ := exists_rootAt h.files p hcwd
  have hkeeps (i : ι) (hlies : ((builds i).berth p.root h.cwd R).Lies h.files) :
      f.KeepsInside p h.files ((builds i).berth p.root h.cwd R) :=
    ⟨hworks i _ (Build.liesAt_berth hlies), hencloses i _ (Build.liesAt_berth hlies)⟩
  have hlevel := Crowd.level_turns hcalls hsound hroot hids hkeeps
  constructor
  · intro i
    obtain ⟨outcome, n, hanswers, hended, honly⟩ := (builds i).exists_alone_ended p h
    refine ⟨outcome, n, hanswers, fun schedule => ⟨fun hle => ?_, fun outcome' ho => ?_⟩⟩
    · exact (((hlevel schedule).each i).files.ended_iff _).2 (hended _ hle)
    · exact honly _ _ ((((hlevel schedule).each i).files.ended_iff _).1 ho)
  · intro schedule i j hne ws q hleads hq hbelow
    rw [Crowd.turns, List.foldl_append]
    exact (hlevel schedule).turn_others hsound hids hkeeps hne hleads hq hbelow

/-- A field of an upload for each role, with one byte in it. -/
def usualFields : List Http.Field :=
  Role.all.map fun role => ⟨⟨some role.partName, none⟩, [[7]]⟩

/-- Two builds, of which the second one is sent a grammar only. -/
def twoBuilds (second : Bool) : Build where
  id := Uuid.ofBits second.toNat
  fields := if second then usualFields.take 1 else usualFields
  pieceSize := 1
  pieceSize_pos := Nat.one_pos

theorem injective_twoBuilds : Function.Injective fun second => (twoBuilds second).id := by
  have hne : (twoBuilds false).id ≠ (twoBuilds true).id := by decide +kernel
  rintro (_ | _) (_ | _) h
  · rfl
  · exact absurd h hne
  · exact absurd h.symm hne
  · rfl

/-- Two builds with tools that write what they have to. -/
theorem undisturbed_of_writer :
    (writingHost.CallsOnly writingTool ∧ writingHost.files.IsSound ∧ IsReal writingHost.cwd ∧
      (Function.Injective fun second => (twoBuilds second).id) ∧
      (∀ second b, (twoBuilds second).LiesAt ⟨"/", usualTools⟩ writingHost b →
        writingTool.WorksBelow ⟨"/", usualTools⟩ b (Lodges writingHost.files b)) ∧
      ∀ second b, (twoBuilds second).LiesAt ⟨"/", usualTools⟩ writingHost b →
        writingTool.LeavesNoWayOut ⟨"/", usualTools⟩ writingHost.files b) ∧
    Crowd.Undisturbed ⟨"/", usualTools⟩ twoBuilds writingHost := by
  have hcalls : writingHost.CallsOnly writingTool := Host.callsOnly_withTools _ _
  have hfiles (program : String) (file : String × Bytes) (hfile : file ∈ usualOutputs "precious") :
      ∃ supply, [file.1] ∈ lookedAt supply := by
    refine ⟨fun _ => ⟨some "precious", []⟩, ?_⟩
    revert file
    decide +kernel
  have hkeeps (second : Bool) (b : Berth)
      (hlies : (twoBuilds second).LiesAt ⟨"/", usualTools⟩ writingHost b) :
      writingTool.KeepsInside ⟨"/", usualTools⟩ writingHost.files b :=
    keepsInside_writer hlies.lies hfiles
  have hworks second b hlies := (hkeeps second b hlies).works
  have hencloses second b hlies := (hkeeps second b hlies).encloses
  exact ⟨⟨hcalls, isSound_precious, isReal_nil, injective_twoBuilds, hworks, hencloses⟩,
    undisturbed_of_worksBelow hcalls isSound_precious isReal_nil injective_twoBuilds hworks hencloses⟩

/-! ## A tool that makes links -/

/-- A directory has no entry of a name. -/
def Files.Tree.lacks (t : Tree) (ws : Place) (name : String) : Bool :=
  (t.get? ws).any Node.isDirectory && (t.get? (ws ++ [name])).isNone

/-- Makes a link in a directory that has no entry of its name. -/
def Files.Tree.layLink (t : Tree) (ws : Place) (name target : String) : Tree :=
  if t.lacks ws name then t.put (ws ++ [name]) (.link target) else t

namespace Files.Tree

section
variable {ws : Place} {name target : String} {t t' : Tree}

theorem lacks_iff : t.lacks ws name = true ↔
    (∃ mode, t.get? ws = some (.directory mode)) ∧ t.get? (ws ++ [name]) = none := by
  rw [lacks, Bool.and_eq_true, Option.any_eq_true, Option.isNone_iff_eq_none]
  refine and_congr_left fun _ => ⟨?_, ?_⟩
  · rintro ⟨n, hn, hdir⟩
    cases n <;> cases hdir
    exact ⟨_, hn⟩
  · rintro ⟨mode, hmode⟩
    exact ⟨_, hmode, rfl⟩

theorem get?_layLink (q : Place) : (t.layLink ws name target).get? q =
    if q = ws ++ [name] ∧ t.lacks ws name then some (.link target) else t.get? q := by
  rw [layLink]
  by_cases hlacks : t.lacks ws name = true
  · rw [if_pos hlacks]
    by_cases hq : q = ws ++ [name]
    · rw [if_pos ⟨hq, hlacks⟩, hq, get?_put_self t _ (by simp)]
    · rw [if_neg fun h => hq h.1, get?_put_of_ne t _ hq]
  · rw [if_neg hlacks, if_neg fun h => hlacks h.2]

theorem get?_layLink_off {q : Place} (hnot : ¬ ws <+: q) :
    (t.layLink ws name target).get? q = t.get? q := by
  rw [get?_layLink, if_neg]
  rintro ⟨rfl, -⟩
  exact hnot (List.prefix_append ws [name])

/-- A link is no file. -/
theorem serialAt?_layLink (q : Place) :
    (t.layLink ws name target).serialAt? q = t.serialAt? q := by
  rw [serialAt?, serialAt?, get?_layLink]
  split
  · next hlaid =>
    rw [hlaid.1, (lacks_iff.1 hlaid.2).2]
    rfl
  · rfl

variable (hname : '/' ∉ name.toList)
include hname

theorem IsSound.layLink (h : t.IsSound) (hws : IsReal ws) :
    (t.layLink ws name target).IsSound := by
  rw [Tree.layLink]
  split
  · next hlacks =>
    obtain ⟨⟨mode, hdir⟩, hnone⟩ := lacks_iff.1 hlacks
    exact h.insert (n := .link target) (hws.snoc hname) hnone ⟨ws, name, mode, rfl, hdir⟩
      (Nat.le_refl _) fun _ hserial => by cases hserial
  · exact h

/-- **The same link** is made in both trees, or in none. -/
theorem Twins.layLink (h : Twins ws ws t t') :
    Twins ws ws (t.layLink ws name target) (t'.layLink ws name target) where
  view := view_eq_iff.2 fun q hq => by
    have hlacks : t.lacks ws name = t'.lacks ws name := by
      have hdirectory : (t.get? ws).any Node.isDirectory = (t'.get? ws).any Node.isDirectory := by
        obtain ⟨hn, hn'⟩ | ⟨n, n', hn, hn', halike⟩ := h.nodes isReal_nil <;>
          rw [List.append_nil] at hn hn' <;> rw [hn, hn']
        cases halike <;> rfl
      have hnone : (t.get? (ws ++ [name])).isNone = (t'.get? (ws ++ [name])).isNone := by
        obtain ⟨hn, hn'⟩ | ⟨n, n', hn, hn', -⟩ := h.nodes (isReal_nil.snoc hname) <;>
          rw [List.nil_append] at hn hn' <;> rw [hn, hn']
        rfl
      rw [lacks, lacks, hdirectory, hnone]
    simp only [get?_layLink, List.append_cancel_left_eq, hlacks]
    split
    · rfl
    · exact h.bare hq
  names p q hp hq := by
    simp only [serialAt?_layLink]
    exact h.names p q hp hq

end

end Files.Tree

/-- The name of what is to become of the grammar of the second build, as it is seen from the workspace
of the first one. -/
def strangeGrammar : String :=
  "../" ++ Workspace.nameOf (twoBuilds true).id ++ "/inputs/grammar.y"

/-- A tool that lays links to that file in the place of what it has to leave, if it is called for a
grammar in the first workspace.  All other calls are refused. -/
def prowler : ToolFunction := fun t _ workdir program _ =>
  if workdir = Workspace.pathOf "/" (twoBuilds false).id ∧ program = usualTools.bison then .ok {
    said := []
    files := (t.layLink firstPlace Stage.parserSource strangeGrammar).layLink firstPlace
      Stage.parserHeader strangeGrammar
    ending := some (0, .exited 0) }
  else .error .notFound

def prowledHost : Host :=
  ({} : Host).withTools prowler

theorem worksBelow_prowler (second : Bool) {b : Berth}
    (hlies : (twoBuilds second).LiesAt ⟨"/", usualTools⟩ prowledHost b) :
    prowler.WorksBelow ⟨"/", usualTools⟩ b Tree.IsSound := by
  -- the tool does something in the first workspace only, which can be in one place only
  have hplace (hpath : b.path = Workspace.pathOf "/" (twoBuilds false).id) :
      b.ws = firstPlace ∧ IsReal firstPlace := by
    have hleads := hlies.lies.leads _ (.refl _)
    have hfirst : (prowledHost.files.resolve prowledHost.cwd
        (Workspace.pathOf "/" (twoBuilds false).id) false).toOption = some firstPlace := by
      decide +kernel
    rw [hlies.cwd, hpath] at hleads
    rw [hleads] at hfirst
    have hws : b.ws = firstPlace := Option.some.inj hfirst
    exact ⟨hws, hws ▸ hlies.lies.real⟩
  have hsource : '/' ∉ Stage.parserSource.toList := by decide
  have hheader : '/' ∉ Stage.parserHeader.toList := by decide
  refine ⟨fun t c d hsound _ hd => ?_, fun t t' c _ _ _ htwins => ?_⟩
  · rw [prowler] at hd
    split at hd
    · next hcall =>
      obtain ⟨hws, hreal⟩ := hplace hcall.1
      obtain rfl := Except.ok.inj hd
      rw [hws]
      refine ⟨(hsound.layLink hsource hreal).layLink hheader hreal, fun q _ hnot => ?_⟩
      rw [get?_layLink_off hnot, get?_layLink_off hnot]
    · cases hd
  · rw [prowler, prowler]
    split
    · next hcall =>
      rw [(hplace hcall.1).1] at htwins ⊢
      exact .done rfl rfl ((htwins.layLink hsource).layLink hheader)
    · exact .refused _

namespace Build

/-- What a build has come to, if it has ended. -/
def Phase.outcome? : Phase → Option Outcome
  | .ended outcome => some outcome
  | _ => none

/-- The stage at which a build has failed. -/
def Outcome.failedAt? : Outcome → Option Stage
  | .failed (.stage s _ _) => some s
  | _ => none

theorem Phase.eq_ended {phase : Phase} {outcome : Outcome} (h : phase.outcome? = some outcome) :
    phase = .ended outcome := by
  cases phase <;> cases h
  rfl

end Build

/-- Where the first build has failed after some turns of both, if it has ended so. -/
def prowledAt (schedule : List Bool) : Option Stage :=
  (((Crowd.start prowledHost).turns ⟨"/", usualTools⟩ twoBuilds schedule).phases
    false).outcome?.bind Build.Outcome.failedAt?

/-- Alone it fails because its tool has left nothing, and at the next tool if the grammar of the
second build has been stored in the meantime. -/
theorem prowledAt_eq :
    prowledAt (List.replicate 17 false ++ List.replicate 2 false) = some .grammar ∧
    prowledAt (List.replicate 17 false ++ (List.replicate 3 true ++ List.replicate 3 false)) =
      some .lexer := by
  decide +kernel

/-- **A link** that leads out of a workspace makes a build depend on others. -/
theorem not_undisturbed_of_prowler : ∃ (p : Pipeline) (f : ToolFunction) (h : Host)
    (builds : Bool → Build), h.CallsOnly f ∧ h.files.IsSound ∧ IsReal h.cwd ∧
      (Function.Injective fun i => (builds i).id) ∧
      (∀ i b, (builds i).LiesAt p h b → f.WorksBelow p b Tree.IsSound) ∧
      ¬ Crowd.Undisturbed p builds h := by
  have hcalls : prowledHost.CallsOnly prowler := Host.callsOnly_withTools _ _
  have hsound : prowledHost.files.IsSound := isSound_empty
  have hcwd : IsReal prowledHost.cwd := isReal_nil
  have hworks second b hlies := worksBelow_prowler second (b := b) hlies
  suffices hnot : ¬ Crowd.Undisturbed ⟨"/", usualTools⟩ twoBuilds prowledHost from
    ⟨_, prowler, prowledHost, twoBuilds, hcalls, hsound, hcwd, injective_twoBuilds, hworks, hnot⟩
  intro hundisturbed
  obtain ⟨outcome, n, -, hcomes⟩ := hundisturbed.comes false
  have hsame {schedule : List Bool} {s : Stage} (hs : prowledAt schedule = some s) :
      outcome.failedAt? = some s := by
    obtain ⟨outcome', hended, hs⟩ := Option.bind_eq_some_iff.1 hs
    rwa [← (hcomes schedule).2 outcome' (Build.Phase.eq_ended hended)]
  obtain ⟨halone, hbeside⟩ := prowledAt_eq
  have hends := (hsame halone).symm.trans (hsame hbeside)
  cases hends

end LangBundle
