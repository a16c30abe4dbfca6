import LangBundle.Proofs.FieldSequences
import LangBundle.Proofs.Ownership
import LangBundle.Proofs.SideBySide

/-!
# Workspaces with the same inputs

While inputs are stored things are only added, so what could be read before can still be read.  Two
workspaces in which the same inputs have been stored hold the same, wherever they are.

* `read_retained`: **what can be read** can still be read when things are added.
* `Stocked.view_eq`: **what is to be seen** of a workspace that holds the inputs.
* `beside_of_stocked`: **workspaces with the same inputs** hold the same.
* `Kept.stocked_all`: **a session** in which all roles were recorded has stocked its workspace.
-/

namespace LangBundle

open Files Files.Tree

/-! ## Files that are read while inputs are stored -/

namespace Files.Tree

section
variable {base t : Tree} {cwd p : Place} {path : String} (hretains : base.Retains t)
include hretains

/-- **Where a path leads** to something, it leads there when things are added. -/
theorem Walks.retained {follow : Bool} {links : Nat} {dir : Place} {todo : List String}
    (h : base.Walks follow links dir todo p) (hp : base.get? p ≠ none) (hdir : IsReal dir)
    (htodo : IsReal todo) : t.Walks follow links dir todo p := by
  induction h with
  | here => exact .here
  | stay hat hstay _ ih => exact .stay (hretains _ _ hdir hat) hstay (ih hp hdir htodo.tail)
  | up hat hsearch _ ih => exact .up (hretains _ _ hdir hat) hsearch (ih hp hdir.dropLast htodo.tail)
  | stop henter hlink hfollow =>
    exact .stop (henter.retained hretains hdir) (hretains _ _ (hdir.snoc htodo.head) hlink) hfollow
  | jump henter hlink hmore htarget _ ih =>
    exact .jump (henter.retained hretains hdir) (hretains _ _ (hdir.snoc htodo.head) hlink) hmore
      htarget (ih hp (hdir.origin _) ((isReal_split _).append htodo.tail))
  | @down _ dir _ name _ henter hlink hrest ih =>
    have hnext := hdir.snoc htodo.head
    rcases hn : base.get? (dir ++ [name]) with _ | n
    · obtain ⟨-, rfl⟩ := Walks.of_none hn hrest
      exact absurd hn hp
    · refine .down (henter.retained hretains hdir) (fun target hat => ?_) (ih hp hnext htodo.tail)
      rw [hretains _ _ hnext hn] at hat
      exact hlink target (hn.trans hat)

theorem resolve_retained {follow : Bool} (hcwd : IsReal cwd)
    (h : base.resolve cwd path follow = .ok p) (hp : base.get? p ≠ none) :
    t.resolve cwd path follow = .ok p := by
  obtain ⟨hfits, hwalk⟩ := resolve_eq_ok_iff.1 h
  exact resolve_eq_ok_iff.2 ⟨hfits, hwalk.retained hretains hp (hcwd.origin path) (isReal_split path)⟩

/-- **What can be read** can still be read. -/
theorem read_retained (hcwd : IsReal cwd) (hbase : base.IsSound) (hsound : t.IsSound)
    {data : Bytes} (h : base.read cwd path = .ok data) : t.read cwd path = .ok data := by
  obtain ⟨source, hopen, hread⟩ := Tree.bind_eq_ok h
  obtain ⟨n, hstat, hrest⟩ := Tree.bind_eq_ok hopen
  obtain ⟨q, hq, hn⟩ := stat_eq_ok_iff.1 hstat
  have hq' := resolve_retained hretains hcwd hq (by simp [hn])
  have hn' := hretains q n (isReal_of_resolve hcwd hq) hn
  have hstat' : t.stat cwd path = .ok n := stat_eq_ok_iff.2 ⟨q, hq', hn'⟩
  have hopen' : t.openRead cwd path = base.openRead cwd path := by
    simp only [openRead, hstat, hstat']
  have hsame : t.readAll source = base.readAll source := by
    obtain ⟨_, -, hsource⟩ := Tree.bind_eq_ok hrest
    cases n with
    | file serial mode data =>
      cases hsource
      simp only [readAll, hbase.dataOf?_of_get? hn, hsound.dataOf?_of_get? hn']
    | directory => cases hsource; rfl
    | link => cases hsource; rfl
    | pipe => cases hsource; rfl
    | program => cases hsource; rfl
    | device kind => cases kind <;> cases hsource <;> rfl
  rw [Tree.read, hopen', hopen]
  exact hsame.trans hread

end

/-! ## Workspaces with the same inputs -/

section
variable {base base' t t' : Tree} {cwd cwd' ws ws' : Place} {path path' : String}

/-- **Names** that lead down stay below a directory without links. -/
theorem staysIn_of_unlinked (h : Unlinked ws t) (hws : IsReal ws) {names : List String}
    (hplain : ∀ name ∈ names, Path.IsPlain name ∧ name ≠ "..") : StaysIn (t.view ws) names := by
  have hnone {r : Place} (hr : IsReal r) (target : String) : t.view ws r ≠ some (.link target) := by
    intro hlink
    have hat := get?_of_view_eq_link hr hlink
    rcases h.plain _ _ (hws.append hr) (List.prefix_append ws r) hat with hdir | ⟨_, _, _, heq⟩
    · cases hdir
    · cases heq
  have hall (onLink : Place → String → List String → Option (Except Fault Place)) {r : Place}
      (hr : IsReal r) : (walkWithinWith (t.view ws) true onLink r names).isSome := by
    induction names generalizing r with
    | nil => rfl
    | cons name rest ih =>
      obtain ⟨hname, hup⟩ := hplain name List.mem_cons_self
      have hnext := hr.snoc hname.noSlash
      have hrest := ih (fun n hn => hplain n (List.mem_cons_of_mem _ hn)) hnext
      rw [walkWithinWith]
      split
      · rfl
      · rw [if_neg hname.not_empty]
        split
        · rfl
        rw [if_neg hname.not_dot]
        split
        · rfl
        split
        · next hlink => exact absurd hlink (hnone hnext _)
        · exact hrest
      · rfl
  exact hall _ isReal_nil

/-- Where every file has one name, a file is known by its place. -/
theorem Unlinked.serialAt?_eq_iff (h : Unlinked ws t) (hws : IsReal ws) {p q : Place}
    (hp : IsReal p) (hq : IsReal q) : t.serialAt? (ws ++ p) = t.serialAt? (ws ++ q) ↔
      p = q ∨ t.serialAt? (ws ++ p) = none ∧ t.serialAt? (ws ++ q) = none := by
  constructor
  · intro heq
    rcases hserial : t.serialAt? (ws ++ p) with _ | serial
    · exact .inr ⟨rfl, heq ▸ hserial⟩
    · have hsame := h.sole (ws ++ p) (ws ++ q) serial (hws.append hp) (hws.append hq)
        (List.prefix_append ws p) hserial (heq ▸ hserial)
      exact .inl (List.append_cancel_left hsame).symm
  · rintro (rfl | ⟨hnone, hnone'⟩)
    · rfl
    · rw [hnone, hnone']

/-- It is enough then that the same is to be seen. -/
theorem twins_of_unlinked (hws : IsReal ws) (hws' : IsReal ws') (h : Unlinked ws t)
    (h' : Unlinked ws' t') (hview : t.view ws = t'.view ws') : Twins ws ws' t t' := by
  refine ⟨hview, fun p q hp hq => ?_⟩
  have hserial {r : Place} (hr : IsReal r) :
      t.serialAt? (ws ++ r) = none ↔ t'.serialAt? (ws' ++ r) = none := by
    have hbare := view_eq_iff.1 hview r hr
    unfold serialAt?
    generalize t.get? (ws ++ r) = here at hbare ⊢
    generalize t'.get? (ws' ++ r) = there at hbare ⊢
    rcases here with _ | n <;> rcases there with _ | n'
    · exact Iff.rfl
    · cases hbare
    · cases hbare
    · cases nodesAlike_of_bare (Option.some.inj hbare) with
      | file => simp [Node.serial?]
      | pipe => simp [Node.serial?]
      | same => exact Iff.rfl
  rw [h.serialAt?_eq_iff hws hp hq, h'.serialAt?_eq_iff hws' hp hq, hserial hp, hserial hq]

end

end Files.Tree

section
variable {base base' t t' : Tree} {cwd cwd' ws ws' : Place} {path path' : String}
  {supply : Role → Supply}

/-- **What is to be seen** of a workspace that holds the inputs, and nothing else. -/
theorem Stocked.view_eq (hws : IsReal ws) (hsound : t.IsSound)
    (h : Stocked ws supply (fun role => some (supply role).data) t) {r : Place} (hr : IsReal r) :
    (t.get? (ws ++ r)).map Node.bare =
      if r = [] then some (.directory Workspace.mode)
      else if r = [inputsDirectory] then some (.directory directoryMode)
      else (Role.all.find? (storedNames supply · = r)).map fun role =>
        .file 0 fileMode (supply role).data := by
  by_cases hroot : r = []
  · rw [if_pos hroot, hroot, List.append_nil, h.directory]
    rfl
  rw [if_neg hroot]
  by_cases hinputs : r = [inputsDirectory]
  · rw [if_pos hinputs, hinputs]
    obtain ⟨serial, hfile⟩ := h.file .grammar _ rfl
    have hreal : IsReal ((ws ++ [inputsDirectory]) ++ [Intake.fileName .grammar
        ((supply .grammar).entryName .grammar)]) := by
      rw [List.append_assoc]
      exact hws.append (isReal_storedNames .grammar)
    obtain ⟨mode, hdir⟩ := hsound.above _ _ hreal (by
      rw [List.append_assoc]
      exact fun hnone => nomatch hnone.symm.trans hfile)
    rw [hdir, h.inputs _ hdir]
    rfl
  rw [if_neg hinputs]
  rcases hfind : Role.all.find? (storedNames supply · = r) with _ | role
  · rw [h.nothing (ws ++ r) (hws.append hr) (List.prefix_append ws r) (by simpa using hroot)
      (by simpa using hinputs) fun role _ _ heq => ?_]
    · rfl
    · have hnot := List.find?_eq_none.1 hfind role role.mem_all
      simp only [decide_eq_true_eq] at hnot
      exact hnot (List.append_cancel_left heq).symm
  · obtain rfl : storedNames supply role = r := by simpa using List.find?_some hfind
    obtain ⟨serial, hfile⟩ := h.file role _ rfl
    rw [hfile]
    rfl

/-- **Workspaces with the same inputs** hold the same. -/
theorem beside_of_stocked (hsite : base.Site cwd path ws) (hsite' : base'.Site cwd' path' ws')
    (hprepared : Prepared ws base t) (hprepared' : Prepared ws' base' t')
    (h : Stocked ws supply (fun role => some (supply role).data) t)
    (h' : Stocked ws' supply (fun role => some (supply role).data) t') {names : List (List String)}
    (hnames : ∀ n ∈ names, Path.LeadDown n) :
    Beside True ⟨cwd, path, ws⟩ ⟨cwd', path', ws'⟩ names t t' := by
  have hreach {base t : Tree} {cwd ws : Place} {path : String} (hsite : base.Site cwd path ws)
      (hprepared : Prepared ws base t) : ∃ left, t.Reaches cwd path ws left := by
    obtain ⟨mode, hmode, -⟩ := hprepared.directory
    refine reaches_of_resolve (hsite.leads_of_off hprepared.off) fun target hlink => ?_
    exact nomatch hmode.symm.trans hlink
  obtain ⟨left, hleft⟩ := hreach hsite hprepared
  obtain ⟨left', hleft'⟩ := hreach hsite' hprepared'
  refine ⟨twins_of_unlinked hsite.isReal hsite'.isReal hprepared.toUnlinked
    hprepared'.toUnlinked ?_, hprepared.sound, hprepared'.sound,
    ⟨left, left', hleft, hleft', .inl trivial⟩,
    fun n hn => staysIn_of_unlinked hprepared.toUnlinked hsite.isReal (hnames n hn).2⟩
  refine view_eq_iff.2 fun r hr => ?_
  rw [h.view_eq hsite.isReal hprepared.sound hr, h'.view_eq hsite'.isReal hprepared'.sound hr]

end

namespace Intake.Session

/-- **A session** in which all roles were recorded has stocked its workspace. -/
theorem Kept.stocked_all {base : Tree} {cwd ws : Place} {path : String} {s : Session}
    (hws : IsReal ws) (h : Kept base cwd ws path s) (hall : ∀ role, .recorded role ∈ s.log) :
    Stocked ws s.supply (fun role => some (s.supply role).data) s.host.files := by
  obtain ⟨held, hstocked, -⟩ := h.stocked
  have hfile (role : Role) : ∃ serial, s.host.files.get? (ws ++ storedNames s.supply role) =
      some (.file serial fileMode (s.supply role).data) := by
    rcases hstored : s.intake.stored? role with _ | input
    · exact absurd (hall role) ((h.stored_iff role).1 hstored)
    · obtain ⟨-, -, -, -, hat⟩ := (h.phase role).of_stored hstored
      exact hat
  have hheld : held = fun role => some (s.supply role).data := by
    funext role
    obtain ⟨serial, hat⟩ := hfile role
    rcases hrole : held role with _ | data
    · refine absurd (hstocked.nothing (ws ++ storedNames s.supply role) ?_ (List.prefix_append _ _)
        (by simp [storedNames]) (by simp [storedNames]) fun other data hother heq => ?_) ?_
      · exact hws.append (isReal_storedNames role)
      · obtain rfl := storedNames_injective s.supply (List.append_cancel_left heq)
        rw [hrole] at hother
        cases hother
      · rw [hat]
        exact Option.some_ne_none _
    · obtain ⟨serial', hat'⟩ := hstocked.file role data hrole
      rw [hat] at hat'
      cases hat'
      rfl
  exact hheld ▸ hstocked

end Intake.Session

/-! ## Tools that write files -/

theorem Files.Tree.sameShape_of_write {t t' : Tree} {cwd : Place} {path : String} {data : Bytes}
    (hwrite : t.write cwd path data = .ok t') : t.SameShape t' := by
  obtain ⟨⟨sink, u⟩, hopen, hat⟩ := Tree.bind_eq_ok hwrite
  obtain ⟨p, -, hopened⟩ := openWrite_eq_ok hopen
  exact hopened.sameShape.trans (writeAt_sameShape hat)

section
variable {slack : Prop} {b b' : Berth} {names : List (List String)} {base base' t t' u u' : Tree}
  (hpath : Path.IsOpen b.path) (hpath' : Path.IsOpen b'.path)
  (hnames : ∀ n ∈ names, Path.LeadDown n)
include hpath hpath' hnames

/-- **The same write** in both workspaces. -/
theorem Files.Tree.Beside.write (h : Beside slack b b' names t t') {n : List String}
    (hn : n ∈ names) {data : Bytes} (hsound : u.IsSound) (hsound' : u'.IsSound)
    (hwrite : t.write b.cwd (Path.below b.path n) data = .ok u)
    (hwrite' : t'.write b'.cwd (Path.below b'.path n) data = .ok u') :
    Beside slack b b' names u u' := by
  have hwritten := h.twins.write (h.resolve hpath hpath' hnames hn) h.sound h.sound'
    (hnames n hn).isOpen (hnames n hn).isOpen data
  rw [hwrite, hwrite'] at hwritten
  have htwins : Twins b.ws b'.ws u u' := by
    obtain ⟨_, _, hu, hu', htwins⟩ | ⟨fault, hfault, -⟩ |
      ⟨-, ⟨fault, hfault, -⟩ | ⟨fault, hfault, -⟩⟩ := hwritten
    · cases hu
      cases hu'
      exact htwins
    · cases hfault
    · cases hfault
    · cases hfault
  exact h.of_sameShape htwins hsound hsound' (sameShape_of_write hwrite)
    (sameShape_of_write hwrite')

variable (hsite : base.Site b.cwd b.path b.ws) (hsite' : base'.Site b'.cwd b'.path b'.ws)
include hsite hsite'

/-- **Files that can be made** in both. -/
theorem Files.Tree.Beside.written {files : List (String × Bytes)}
    (hfiles : ∀ file ∈ files, [file.1] ∈ names) (h : Beside slack b b' names t t')
    (htidy : Tidy b.ws base t) (htidy' : Tidy b'.ws base' t')
    (hmake : ∀ file ∈ files, t.CanMake b.cwd (Path.join b.path file.1))
    (hmake' : ∀ file ∈ files, t'.CanMake b'.cwd (Path.join b'.path file.1)) :
    Beside slack b b' names
      (files.foldl (fun t file => t.writeIfPossible b.cwd (Path.join b.path file.1) file.2) t)
      (files.foldl (fun t file => t.writeIfPossible b'.cwd (Path.join b'.path file.1) file.2) t') := by
  induction files generalizing t t' with
  | nil => exact h
  | cons file rest ih =>
    have hmem := List.mem_cons_self (a := file) (l := rest)
    have hdown := hnames _ (hfiles file hmem)
    obtain ⟨u, hwrite, htidy₁, hgrows, -⟩ :=
      htidy.write_ok hsite (hdown.continues hpath) (hmake file hmem) file.2
    obtain ⟨u', hwrite', htidy₁', hgrows', -⟩ :=
      htidy'.write_ok hsite' (hdown.continues hpath') (hmake' file hmem) file.2
    have hbeside := h.write hpath hpath' hnames (hfiles file hmem) htidy₁.sound htidy₁'.sound
      hwrite hwrite'
    have hpossible : t.writeIfPossible b.cwd (Path.join b.path file.1) file.2 = u := by
      unfold Files.Tree.writeIfPossible
      rw [show Path.join b.path file.1 = Path.below b.path [file.1] from rfl, hwrite]
    have hpossible' : t'.writeIfPossible b'.cwd (Path.join b'.path file.1) file.2 = u' := by
      unfold Files.Tree.writeIfPossible
      rw [show Path.join b'.path file.1 = Path.below b'.path [file.1] from rfl, hwrite']
    rw [List.foldl_cons, List.foldl_cons, hpossible, hpossible']
    refine ih (fun other hother => hfiles other (List.mem_cons_of_mem file hother)) hbeside htidy₁
      htidy₁' (fun other hother => ?_) fun other hother => ?_
    · exact hgrows.canMake htidy.sound hsite.real (hmake other (List.mem_cons_of_mem file hother))
    · exact hgrows'.canMake htidy'.sound hsite'.real
        (hmake' other (List.mem_cons_of_mem file hother))

end

/-- Tools that say and end the same do the same. -/
theorem doAlike_of_same {f : ToolFunction} {limit : Nat} {b b' : Berth} {c c' : Stage.Command}
    {t t' : Tree} {d d' : Deed} (hd : f t b.cwd b.path c.program c.args = .ok d)
    (hd' : f t' b'.cwd b'.path c'.program c'.args = .ok d') (hsaid : d'.said = d.said)
    (hending : d'.ending = d.ending) : DoAlike f limit b b' c c' t t' := by
  have hstatus : d'.statusWithin limit = d.statusWithin limit := by
    rw [Deed.statusWithin, Deed.statusWithin, hending]
  have hheard : d'.heard limit = d.heard limit := by
    rw [Deed.heard, Deed.heard, hstatus, hsaid]
  rw [DoAlike, hd, hd']
  refine ⟨hstatus, ?_⟩
  rw [hheard]
  exact .refl _ _ _

/-- What can be made can be looked at. -/
theorem Files.Tree.CanMake.canLook {t : Tree} {cwd : Place} {path : String}
    (h : t.CanMake cwd path) : t.CanLook cwd path := by
  obtain ⟨-, p, hp, -⟩ := h
  rintro ⟨fault, hfault, hne⟩
  rw [Tree.stat, hp] at hfault
  rcases hn : t.get? p with _ | n
  · simp only [hn, bind, Except.bind] at hfault
    cases hfault
    exact hne rfl
  · simp only [hn, bind, Except.bind] at hfault
    cases hfault

theorem outNames_subset_outputNames {supply : Role → Supply} {s : Stage} {n : List String}
    (hn : n ∈ s.outNames supply) :
    ∃ name ∈ outputNames (Naming.ofSupplies supply).stem, n = [name] := by
  cases s with
  | grammar =>
    rcases List.mem_cons.1 hn with rfl | hn
    · exact ⟨_, by simp [outputNames], rfl⟩
    · exact ⟨_, by simp [outputNames], List.mem_singleton.1 hn⟩
  | lexer => exact ⟨_, by simp [outputNames], List.mem_singleton.1 hn⟩
  | link =>
    rcases List.mem_cons.1 hn with rfl | hn
    · exact ⟨_, by simp [outputNames], rfl⟩
    · exact ⟨_, by simp [outputNames], List.mem_singleton.1 hn⟩

/-- **Tools that write files** do the same in both workspaces. -/
theorem keepsBeside_writer {base base' : Tree} {b b' : Berth} {supply : Role → Supply}
    {files : List (String × Bytes)} {tools : Toolchain} (hsite : base.Site b.cwd b.path b.ws)
    (hsite' : base'.Site b'.cwd b'.path b'.ws) (hpath : Path.IsOpen b.path)
    (hpath' : Path.IsOpen b'.path) (hsuits : SuitsBuild b.path supply files)
    (hsuits' : SuitsBuild b'.path supply files) (hfiles : ∀ file ∈ files, [file.1] ∈ lookedAt supply)
    (hlimit : Deed.turnaround 0 < tools.stageTimeout * 1000) :
    KeepsBeside (writer fun _ => files) True tools supply b b' fun t t' =>
      Beside True b b' (lookedAt supply) t t' ∧
        ReadyFor b.ws base b.cwd b.path supply files t ∧
        ReadyFor b'.ws base' b'.cwd b'.path supply files t' where
  beside t t' h := h.1
  does t t' _ s := doAlike_of_same rfl rfl rfl rfl
  goes_on t t' h s := by
    obtain ⟨hbeside, hready, hready'⟩ := h
    refine ⟨?_, (hready.leftBy_writer hsite hpath hsuits hlimit _).1,
      (hready'.leftBy_writer hsite' hpath' hsuits' hlimit _).1⟩
    have hlimited : tools.stageTimeout ≠ 0 := by
      intro hzero
      rw [hzero, Nat.zero_mul] at hlimit
      exact Nat.not_lt_zero _ hlimit
    simp only [Berth.after, Stage.leftBy, writer, Deed.filesAfter, if_neg hlimited]
    exact hbeside.written hpath hpath' (fun _ => leadDown_of_mem_lookedAt) hsite hsite' hfiles
      hready.toTidy hready'.toTidy hready.makes hready'.makes
  clear _ t t' h s n hn := by
    obtain ⟨-, hready, hready'⟩ := h
    obtain ⟨name, hname, rfl⟩ := outNames_subset_outputNames hn
    obtain ⟨data, hfile, -⟩ := hsuits.outputs name hname
    exact ⟨(hready.makes _ hfile).canLook, (hready'.makes _ hfile).canLook⟩

end LangBundle
