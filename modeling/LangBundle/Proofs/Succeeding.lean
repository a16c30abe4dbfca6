import LangBundle.Proofs.Reaching
import LangBundle.Proofs.Stocking

/-!
# What goes through

When the operations of a build succeed: in a directory that may be searched and written to, behind a
path that is not too long, nothing stops them.

* `Path.HasRoom`, `Path.Takes`: names can be put behind a path.
* `LeadsDown.resolve`: **a path** that goes on behind that of a directory leads below it.
* `makeDirectories_ok`: **making** a directory.
* `takeAll_ok`: **five uploads**, each role once, are taken in.
* `Stocked.offers`, `Stocked.canMake`: what is stored can be read, and other files can be made.
-/

namespace LangBundle

/-- A path behind which names can stand that take some bytes together. -/
structure Path.HasRoom (path : String) (room : Nat) : Prop extends IsOpen path where
  noNul : '\x00' ∉ path.toList
  short : path.utf8ByteSize + room < Files.Tree.maxPath

namespace Path

theorem HasRoom.of_le {path : String} {room room' : Nat} (h : HasRoom path room)
    (hle : room' ≤ room) : HasRoom path room' :=
  ⟨h.toIsOpen, h.noNul, by have := h.short; omega⟩

/-- One name takes its bytes and a slash. -/
theorem HasRoom.join {path name : String} {room : Nat}
    (h : HasRoom path (1 + name.utf8ByteSize + room)) (hname : IsPlain name)
    (hnul : '\x00' ∉ name.toList) : HasRoom (Path.join path name) room := by
  have hjoin := join_of_isOpen h.toIsOpen (isAbsolute_eq_false hname.noSlash)
  refine ⟨isOpen_join hname path, ?_, ?_⟩
  · rw [hjoin, String.toList_append, String.toList_append]
    simp [h.noNul, hnul]
  · have hslash : "/".utf8ByteSize = 1 := by decide
    have hshort := h.short
    rw [hjoin, String.utf8ByteSize_append, String.utf8ByteSize_append, hslash]
    omega

/-- Behind a path without needless slashes and dots a name needs none. -/
theorem normal_join_of_normal {path name : String} (hpath : IsOpen path)
    (hnormal : normal path = path) (hname : IsPlain name) :
    normal (Path.join path name) = Path.join path name := by
  have habs := isAbsolute_eq_false hname.noSlash
  have hnames : names path ≠ [] := by
    intro hnil
    rw [normal, hnil] at hnormal
    by_cases h : isAbsolute path
    · rw [if_pos h] at hnormal
      exact hpath.last (by rw [← hnormal]; rfl)
    · rw [if_neg h] at hnormal
      exact hpath.not_empty hnormal.symm
  have hsplit := String.intercalate_append_of_ne_nil (s := "/") hnames (List.cons_ne_nil name [])
  rw [normal, isAbsolute_join habs, names_join hname, hsplit, String.intercalate_singleton,
    join_of_isOpen hpath habs, ← String.append_assoc, ← String.append_assoc, ← normal, hnormal]

/-- A name that can be put behind a path. -/
structure Takes (path name : String) : Prop where
  plain : IsPlain name ∧ name ≠ ".."
  short : name.utf8ByteSize ≤ Files.Tree.maxName
  room : HasRoom (join path name) 0

theorem HasRoom.takes {path name : String} (h : HasRoom path 30)
    (hname : IsPlain name ∧ name ≠ "..") (hnul : '\x00' ∉ name.toList)
    (hshort : name.utf8ByteSize ≤ 29) : Takes path name :=
  ⟨hname, Nat.le_trans hshort (by decide), (h.of_le (by omega)).join hname.1 hnul⟩

end Path

open Files Files.Tree

namespace Files.Tree

/-! ## Paths that lead somewhere -/

/-- Names lead straight down from a place: each one is looked up in a directory that may be searched,
and none is that of a link. -/
def LeadsDown (t : Tree) : Place → List String → Prop
  | _, [] => True
  | dir, name :: rest =>
    t.Enters dir name ∧ (∀ target, t.get? (dir ++ [name]) ≠ some (.link target)) ∧
      LeadsDown t (dir ++ [name]) rest

theorem LeadsDown.walk {t : Tree} {dir : Place} {names : List String} (h : t.LeadsDown dir names)
    (follow : Bool) (links : Nat) : t.walk follow links dir names = .ok (dir ++ names) := by
  induction names generalizing dir with
  | nil => rw [walk_nil, List.append_nil]
  | cons name rest ih =>
    obtain ⟨henter, hlink, hrest⟩ := h
    rw [walk_down follow links henter hlink, ih hrest, List.append_assoc]
    rfl

/-- **A path** that goes on behind that of a directory leads below it. -/
theorem LeadsDown.resolve {t : Tree} {cwd dir : Place} {path below : String} {names : List String}
    (h : t.LeadsDown dir names) (hpath : t.resolve cwd path false = .ok dir)
    (hbelow : Path.Continues path names below) (hroom : Path.HasRoom below 0) (follow : Bool) :
    t.resolve cwd below follow = .ok (dir ++ names) := by
  have hlink : ∀ target, t.get? dir ≠ some (.link target) := by
    intro target hnode
    obtain ⟨name, rest, rfl⟩ := List.exists_cons_of_ne_nil hbelow.ne_nil
    obtain ⟨mode, hmode, -⟩ := h.1.directory
    rw [hnode] at hmode
    cases hmode
  obtain ⟨left, hleft⟩ := (resolve_eq_ok_iff.1 hpath).2.append hlink
  have hwalk := hleft follow names hbelow.ne_nil
  rw [h.walk, walk_eq_ok_iff] at hwalk
  refine resolve_eq_ok_iff.2 ⟨⟨?_, ?_, hroom.short⟩, ?_⟩
  · simpa using hroom.noNul
  · simpa using hroom.not_empty
  · rw [hbelow.isAbsolute, hbelow.split]
    exact hwalk

section
variable {t : Tree} {cwd dir p : Place} {path name : String} {mode : Nat}

/-- **Making** one directory in another one. -/
theorem makeDirectory_ok (hname : Path.IsPlain name ∧ name ≠ "..")
    (hshort : name.utf8ByteSize ≤ maxName) (hpath : t.resolve cwd path false = .ok dir)
    (hroom : Path.HasRoom (Path.join path name) 0) (hopen : Path.IsOpen path)
    (hdir : t.get? dir = some (.directory mode)) (hadmits : AdmitsNames (.directory mode))
    (hlink : ∀ target, t.get? (dir ++ [name]) ≠ some (.link target)) :
    (∀ follow, t.resolve cwd (Path.join path name) follow = .ok (dir ++ [name])) ∧
      t.makeDirectory cwd (Path.join path name) =
        if t.get? (dir ++ [name]) = none then
          .ok (t.put (dir ++ [name]) (.directory directoryMode))
        else .error .alreadyExists := by
  have hsearch : mode &&& Permission.execute.bit ≠ 0 := by
    simpa [Node.allows, Node.mode] using hadmits.2
  have hdown : t.LeadsDown dir [name] :=
    ⟨⟨⟨mode, hdir, hsearch⟩, hname.1.not_empty, hname.1.not_dot, hname.2, hshort⟩, hlink, trivial⟩
  have hresolve := hdown.resolve hpath (Path.continues_join hopen hname) hroom
  refine ⟨hresolve, ?_⟩
  simp only [makeDirectory, withoutSlashes_of_isOpen hroom.toIsOpen, hresolve, bind, Except.bind]
  rcases hnode : t.get? (dir ++ [name]) with _ | n
  · rw [requireAbove_ok hdir hadmits]
    rfl
  · rfl

/-- **Making** a directory in another one, unless something else is there. -/
theorem makeDirectories_ok (hname : Path.IsPlain name ∧ name ≠ "..")
    (hshort : name.utf8ByteSize ≤ maxName) (hpath : t.resolve cwd path false = .ok dir)
    (hroom : Path.HasRoom (Path.join path name) 0) (hopen : Path.IsOpen path)
    (hnormal : Path.normal path = path) (hdir : t.get? dir = some (.directory mode))
    (hadmits : AdmitsNames (.directory mode))
    (hthere : ∀ n, t.get? (dir ++ [name]) = some n → n.isDirectory = true) :
    t.makeDirectories cwd (Path.join path name) = (.ok (),
      if t.get? (dir ++ [name]) = none then t.put (dir ++ [name]) (.directory directoryMode)
      else t) := by
  have hlink : ∀ target, t.get? (dir ++ [name]) ≠ some (.link target) := by
    intro target hnode
    cases hthere _ hnode
  obtain ⟨hresolve, hmake⟩ := makeDirectory_ok hname hshort hpath hroom hopen hdir hadmits hlink
  have hjoin := Path.normal_join_of_normal hopen hnormal hname.1
  rw [Path.normal, Path.names_join hname.1] at hjoin
  have hnul : (Path.join path name).toList.contains '\x00' = false := by simpa using hroom.noNul
  rw [makeDirectories, hnul, if_neg Bool.false_ne_true, Path.names_join hname.1,
    List.reverse_append, List.reverse_singleton, List.singleton_append, makeDirectoriesUp]
  simp only [List.reverse_cons, List.reverse_reverse, hjoin, makeDirectoryOver, hmake]
  by_cases hnone : t.get? (dir ++ [name]) = none
  · rw [if_pos hnone, if_pos hnone]
  · obtain ⟨n, hn⟩ := Option.ne_none_iff_exists'.1 hnone
    have hstat : t.isDirectory cwd (Path.join path name) = true := by
      rw [isDirectory, stat_eq_ok_iff.2 ⟨_, hresolve true, hn⟩]
      exact hthere n hn
    simp only [if_neg hnone, hstat, if_true]

end

end Files.Tree

/-! ## A new workspace -/

/-- **A workspace** is made where one can be made. -/
theorem acquireWorkspace_ok {p : Pipeline} {h : Host} {ws : Place}
    (hsite : h.files.Site h.cwd (p.nextWorkspace h) ws) :
    ∃ w h', p.acquireWorkspace h = .ok w h' := by
  have hopen := isOpen_nextWorkspace p h
  have hdraw : Service.drawId h = .ok (h.ids h.drawn) { h with drawn := h.drawn + 1 } := rfl
  rw [Pipeline.acquireWorkspace, Service.bind_of_ok hdraw, Workspace.acquire]
  rw [Pipeline.nextWorkspace] at hsite hopen
  generalize Workspace.pathOf p.root (h.ids h.drawn) = path at hsite hopen ⊢
  have hmake : h.files.makeDirectory h.cwd path Workspace.mode =
      .ok (h.files.put ws (.directory Workspace.mode)) := by
    simp only [makeDirectory, withoutSlashes_of_isOpen hopen, hsite.leads, bind, Except.bind,
      hsite.empty, hsite.above]
    rfl
  have hfiles : (Service.onFiles path fun t cwd =>
      return ((), ← t.makeDirectory cwd path Workspace.mode)) { h with drawn := h.drawn + 1 } =
        .ok () { h with
          drawn := h.drawn + 1, files := h.files.put ws (.directory Workspace.mode) } := by
    simp only [Service.onFiles, hmake]
    rfl
  exact ⟨_, _, by rw [Service.bind_of_ok hfiles]; rfl⟩

/-! ## The intake -/

theorem utf8ByteSize_fileName_le (role : Role) (entry : String) :
    (Intake.fileName role entry).utf8ByteSize ≤ 22 := by
  have hpart : (role.partName ++ ".").utf8ByteSize ≤ 14 := by
    cases role <;> decide
  have hextension : ((EntryName.safeExtension? entry).getD role.defaultExtension).utf8ByteSize ≤
      8 := by
    rcases hext : EntryName.safeExtension? entry with _ | ext
    · cases role <;> decide
    · obtain ⟨-, hsafe⟩ := Option.filter_eq_some_iff.1 hext
      simp only [Bool.and_eq_true, decide_eq_true_eq] at hsafe
      exact hsafe.1.2
  rw [Intake.fileName, String.utf8ByteSize_append]
  omega

theorem noNul_fileName (role : Role) (supply : Role → Supply) :
    '\x00' ∉ (Intake.fileName role ((supply role).entryName role)).toList := by
  rw [fileName_eq, String.toList_append, List.mem_append]
  rintro (h | h)
  · revert h
    cases role <;> decide
  · have hsafe := ((Naming.isSafe_ofSupplies supply).extension role).2.2 _ h
    revert hsafe
    decide

/-- The names of a stored file lead straight down. -/
theorem Stocked.leadsDown {t : Tree} {ws : Place} {supply : Role → Supply}
    {held : Role → Option Bytes} (h : Stocked ws supply held t) (hws : IsReal ws)
    (hunlinked : Unlinked ws t)
    (hdir : t.get? (ws ++ [inputsDirectory]) = some (.directory directoryMode)) (role : Role) :
    t.LeadsDown ws (storedNames supply role) := by
  have hinputs := isPlain_inputsDirectory
  have hname := isPlain_fileName role (supply role).declared
  refine ⟨⟨⟨_, h.directory, by decide⟩, hinputs.1.not_empty, hinputs.1.not_dot, hinputs.2,
    by decide⟩, by simp [hdir], ⟨⟨_, hdir, by decide⟩, hname.1.not_empty, hname.1.not_dot,
    hname.2, ?_⟩, fun target hlink => ?_, trivial⟩
  · exact Nat.le_trans (utf8ByteSize_fileName_le role _) (by decide)
  · obtain hdir | ⟨_, _, _, hfile⟩ := hunlinked.plain _ _
      ((hws.snoc hinputs.1.noSlash).snoc hname.1.noSlash)
      ((List.prefix_append ws _).trans (List.prefix_append _ _)) hlink
    · cases hdir
    · cases hfile

/-- The file of a role has a path that is not too long. -/
theorem hasRoom_stored {path : String} (hroom : Path.HasRoom path 30) (supply : Role → Supply)
    (role : Role) : Path.HasRoom ((supply role).input path role).path 0 := by
  have hinputs : Path.HasRoom (Path.join path inputsDirectory) 23 :=
    (hroom.of_le (by decide)).join isPlain_inputsDirectory.1 (by decide)
  refine (hinputs.of_le ?_).join (isPlain_fileName role (supply role).declared).1
    (noNul_fileName role supply)
  have := utf8ByteSize_fileName_le role ((supply role).entryName role)
  omega

/-- An upload is begun when its file has been made. -/
theorem Intake.begin_of_made {i : Intake} {h : Host} {role : Role} {declared : Option String}
    {t t' : Tree} {sink : Sink} (hrole : role ∉ i.claimed)
    (hmake : h.files.makeDirectories h.cwd (Path.join i.workspace inputsDirectory) = (.ok (), t))
    (hopen : t.openWrite h.cwd (Path.join (Path.join i.workspace inputsDirectory)
      (fileName role (entryName role declared))) = .ok (sink, t')) :
    ∃ u s, begin role declared (i, h) = .ok u s ∧ u.sink = sink := by
  have hnot : ¬ i.claimed.contains role = true := by simpa using hrole
  simp only [begin, if_neg hnot, Host.note, hmake, hopen]
  exact ⟨_, _, rfl, rfl⟩

/-- **A file** can be made for a role. -/
theorem Stocked.canBegin {base t : Tree} {cwd ws : Place} {path : String} {supply : Role → Supply}
    {held : Role → Option Bytes} (h : Stocked ws supply held t) (hsite : base.Site cwd path ws)
    (hprepared : Prepared ws base t) (hroom : Path.HasRoom path 30)
    (hnormal : Path.normal path = path) (role : Role) : ∃ t₁ sink t₂,
      t.makeDirectories cwd (Path.join path inputsDirectory) = (.ok (), t₁) ∧
      t₁.openWrite cwd ((supply role).input path role).path = .ok (sink, t₂) := by
  have hinputs := isPlain_inputsDirectory
  have hpath := hsite.leads_of_off hprepared.off
  have hinputsRoom : Path.HasRoom (Path.join path inputsDirectory) 23 :=
    (hroom.of_le (by decide)).join hinputs.1 (by decide)
  have hmake := makeDirectories_ok hinputs (by decide) hpath (hinputsRoom.of_le (by decide))
    hroom.toIsOpen hnormal h.directory ⟨by decide, by decide⟩
    fun n hn => by rw [h.inputs n hn]; rfl
  generalize ht : (if t.get? (ws ++ [inputsDirectory]) = none then
    t.put (ws ++ [inputsDirectory]) (.directory directoryMode) else t) = t₁ at hmake
  have hmade : Prepared ws base t₁ :=
    hprepared.makeDirectories hsite hinputs.1 hinputs.2 (by decide) hmake
  obtain ⟨hstocked, hdir⟩ : Stocked ws supply held t₁ ∧
      t₁.get? (ws ++ [inputsDirectory]) = some (.directory directoryMode) := by
    rw [← ht]
    split
    · exact ⟨h.makeDirectory, get?_put_self _ _ (by simp)⟩
    · next hsome =>
      obtain ⟨n, hn⟩ := Option.ne_none_iff_exists'.1 hsome
      exact ⟨h, h.inputs n hn ▸ hn⟩
  have hdown := hstocked.leadsDown hsite.isReal hmade.toUnlinked hdir role
  have hfileRoom := hasRoom_stored hroom supply role
  have hresolve := hdown.resolve (hsite.leads_of_off hmade.off)
    (continues_stored hroom.toIsOpen role) hfileRoom true
  have hcan : t₁.CanMake cwd ((supply role).input path role).path := by
    refine ⟨hfileRoom.toIsOpen, _, hresolve, ?_⟩
    rcases hnode : t₁.get? (ws ++ storedNames supply role) with _ | n
    · refine .inl ⟨rfl, ?_⟩
      rw [storedNames, List.append_cons]
      exact requireAbove_ok hdir ⟨by decide, by decide⟩ _
    · obtain ⟨serial, data, rfl⟩ := hstocked.eq_file hsite.isReal hnode
      exact .inr ⟨serial, fileMode, data, rfl, by rw [Node.allows, Node.mode]; decide,
        by rw [Node.allows, Node.mode]; decide⟩
  obtain ⟨serial, t₂, hopen⟩ := hcan.openWrite_ok
  exact ⟨t₁, .file serial, t₂, hmake, hopen⟩

section
variable {f : ToolFunction} {base : Tree} {cwd ws : Place} {path : String} {before : List Event}
  {supply : Role → Supply} {held : Role → Option Bytes} (hsite : base.Site cwd path ws)
  (hroom : Path.HasRoom path 30) (hnormal : Path.normal path = path)
include hsite hroom hnormal

/-- **Beginning** an upload for a role that is not claimed. -/
theorem begin_ok {role : Role} {s : Intake × Host}
    (hstocks : Stocks f base cwd ws path before supply held s) (hrole : role ∉ s.1.claimed) :
    ∃ u s', Intake.begin role (supply role).declared s = .ok u s' := by
  obtain ⟨i, h⟩ := s
  obtain rfl : i.workspace = path := hstocks.workspace
  have hcwd : h.cwd = cwd := hstocks.works.cwd
  obtain ⟨t, sink, t', hmake, hopen⟩ :=
    hstocks.stocked.canBegin hsite hstocks.prepared hroom hnormal role
  rw [← hcwd] at hmake hopen
  obtain ⟨u, s', hbegin, -⟩ := Intake.begin_of_made hrole hmake hopen
  exact ⟨u, s', hbegin⟩

omit hsite hroom hnormal in
/-- **Writing** a piece of an upload. -/
theorem write_ok {role : Role} {data : Bytes} {u : Upload} {s : Intake × Host}
    (hfills : Fills f base cwd ws path before supply held role data u s) (piece : Bytes) :
    ∃ u' s', Intake.write u piece s = .ok u' s' := by
  obtain ⟨serial, hsink, -⟩ := hfills.isOpenAt
  simp only [Intake.write, hsink, writeAt]
  exact ⟨_, _, rfl⟩

omit hroom hnormal in
theorem writeAll_ok {role : Role} {data : Bytes} {u : Upload} {s : Intake × Host}
    (hfills : Fills f base cwd ws path before supply held role data u s) (pieces : List Bytes) :
    ∃ u' s', Intake.writeAll u pieces s = .ok u' s' := by
  induction pieces generalizing data u s with
  | nil => exact ⟨u, s, rfl⟩
  | cons piece rest ih =>
    obtain ⟨u₁, s₁, hwrite⟩ := write_ok hfills piece
    obtain ⟨u₂, s₂, hrest⟩ := ih ((ensures_write_stocks hsite role u data piece).of_ok hfills hwrite)
    exact ⟨u₂, s₂, by rw [Intake.writeAll, Service.bind_of_ok hwrite, hrest]⟩

/-- **One upload.** -/
theorem take_ok {role : Role} {s : Intake × Host}
    (hstocks : Stocks f base cwd ws path before supply held s) (hrole : role ∉ s.1.claimed) :
    ∃ s', Intake.take role (supply role) s = .ok () s' ∧ s'.1.claimed = role :: s.1.claimed := by
  obtain ⟨u₁, ⟨i₁, h₁⟩, hbegin⟩ := begin_ok hsite hroom hnormal hstocks hrole
  have hfills := (ensures_begin_stocks hsite hroom.toIsOpen role).of_ok hstocks hbegin
  obtain ⟨u₂, ⟨i₂, h₂⟩, hwrite⟩ := writeAll_ok hsite hfills (supply role).pieces
  obtain ⟨rfl, -⟩ := Intake.begin_eq_ok hbegin
  obtain ⟨rfl, -⟩ := Intake.writeAll_eq_ok hwrite
  exact ⟨_, by rw [Intake.take, Service.bind_of_ok hbegin, Service.bind_of_ok hwrite]; rfl, rfl⟩

/-- **Uploads** for roles that are not claimed, each once. -/
theorem takeAll_ok {order : List Role} (hnodup : order.Nodup) {s : Intake × Host}
    (hstocks : Stocks f base cwd ws path before supply held s)
    (hrole : ∀ role ∈ order, role ∉ s.1.claimed) :
    ∃ s', Intake.takeAll supply order s = .ok () s' := by
  induction order generalizing held s with
  | nil => exact ⟨s, rfl⟩
  | cons first rest ih =>
    obtain ⟨hfirst, hrest⟩ := List.nodup_cons.1 hnodup
    obtain ⟨s₁, htake, hclaimed⟩ := take_ok hsite hroom hnormal hstocks
      (hrole first List.mem_cons_self)
    have hstocks₁ := (ensures_take_stocks hsite hroom.toIsOpen first).of_ok hstocks htake
    obtain ⟨s₂, hall⟩ := ih hrest hstocks₁ fun role hmem => by
      rw [hclaimed, List.mem_cons, not_or]
      exact ⟨fun heq => hfirst (heq ▸ hmem), hrole role (List.mem_cons_of_mem first hmem)⟩
    exact ⟨s₂, by rw [Intake.takeAll, Service.bind_of_ok htake, hall]⟩

end

section
variable {base t : Tree} {cwd ws : Place} {path : String} {supply : Role → Supply}
  {held : Role → Option Bytes} (h : Stocked ws supply held t) (hsite : base.Site cwd path ws)
  (htidy : Tidy ws base t)
include h hsite htidy

/-- **The path** of a stored file leads to it. -/
theorem Stocked.resolve_stored (hpath : Path.IsOpen path) {role : Role}
    (hroom : Path.HasRoom ((supply role).input path role).path 0)
    (hfile : t.get? (ws ++ storedNames supply role) ≠ none) :
    t.resolve cwd ((supply role).input path role).path =
      .ok (ws ++ storedNames supply role) := by
  have hreal := hsite.isReal.snoc isPlain_inputsDirectory.1.noSlash
  have hname := isPlain_fileName role (supply role).declared
  have hdir : t.get? (ws ++ [inputsDirectory]) = some (.directory directoryMode) := by
    have hsome : t.get? ((ws ++ [inputsDirectory]) ++
        [Intake.fileName role ((supply role).entryName role)]) ≠ none := by
      rw [List.append_assoc]
      exact hfile
    obtain ⟨mode, hmode⟩ := htidy.sound.above _ _ (hreal.snoc hname.1.noSlash) hsome
    rw [hmode, h.inputs _ hmode]
  exact (h.leadsDown hsite.isReal htidy.toUnlinked hdir role).resolve
    (hsite.leads_of_off htidy.off) (continues_stored hpath role) hroom true

/-- **What is stored** can be read. -/
theorem Stocked.offers (hroom : Path.HasRoom path 30) {role : Role} {data : Bytes}
    (hheld : held role = some data) : t.Offers cwd ((supply role).input path role).path data := by
  obtain ⟨serial, hfile⟩ := h.file role data hheld
  have hresolve := h.resolve_stored hsite htidy hroom.toIsOpen
    (hasRoom_stored hroom supply role) (by simp [hfile])
  exact ⟨serial, fileMode, stat_eq_ok_iff.2 ⟨_, hresolve, hfile⟩,
    by rw [Node.allows, Node.mode]; decide⟩

/-- **Other files** can be made. -/
theorem Stocked.canMake (hpath : Path.IsOpen path) {name : String} (hname : Path.Takes path name)
    (hne : name ≠ inputsDirectory) : t.CanMake cwd (Path.join path name) := by
  have hreal := hsite.isReal.snoc hname.plain.1.noSlash
  have hnone : t.get? (ws ++ [name]) = none :=
    h.nothing _ hreal (List.prefix_append ws [name]) (by simp) (by simpa using hne)
      fun role data _ => by simp [storedNames]
  have hdown : t.LeadsDown ws [name] :=
    ⟨⟨⟨_, h.directory, by decide⟩, hname.plain.1.not_empty, hname.plain.1.not_dot, hname.plain.2,
      hname.short⟩, by simp [hnone], trivial⟩
  exact ⟨hname.room.toIsOpen, _, hdown.resolve (hsite.leads_of_off htidy.off)
    (Path.continues_join hpath hname.plain) hname.room true,
    .inl ⟨hnone, requireAbove_ok h.directory ⟨by decide, by decide⟩ name⟩⟩

end

end LangBundle
