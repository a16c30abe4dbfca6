import Mathlib.Logic.Function.Basic
import LangBundle.Proofs.TidyFiles
import LangBundle.Proofs.WorkspaceLifetime

/-!
# What the intake stores

While five uploads are taken in, the workspace holds the files of the roles that have been begun, each
with the bytes that have been written to it, and nothing else.

* `Stocked`: what the workspace holds, role by role.
* `Stocked.set`: one file is made or changed.
* `ensures_begin_stocks`, `ensures_write_stocks`: **one step** of the intake.
* `ensures_takeAll_stocks`: **all uploads**, in any order and in any pieces.
-/

namespace LangBundle

open Files Files.Tree

/-- The names of the file of a role behind the path of the workspace. -/
def storedNames (supply : Role → Supply) (role : Role) : List String :=
  [inputsDirectory, Intake.fileName role ((supply role).entryName role)]

/-- The workspace holds some bytes for some roles, and nothing else. -/
structure Stocked (ws : Place) (supply : Role → Supply) (held : Role → Option Bytes) (t : Tree) :
    Prop where
  directory : t.get? ws = some (.directory Workspace.mode)
  inputs : ∀ n, t.get? (ws ++ [inputsDirectory]) = some n → n = .directory directoryMode
  file : ∀ role data, held role = some data →
    ∃ serial, t.get? (ws ++ storedNames supply role) = some (.file serial fileMode data)
  nothing : ∀ q, IsReal q → ws <+: q → q ≠ ws → q ≠ ws ++ [inputsDirectory] →
    (∀ role data, held role = some data → q ≠ ws ++ storedNames supply role) → t.get? q = none

section
variable {supply : Role → Supply} {role : Role}

theorem fileName_eq (role : Role) :
    Intake.fileName role ((supply role).entryName role) =
      role.partName ++ "." ++ (Naming.ofSupplies supply).extension role :=
  rfl

/-- No two roles have the same file. -/
theorem storedNames_injective (supply : Role → Supply) : (storedNames supply).Injective := by
  intro role other heq
  have hname := (List.cons.inj (List.cons.inj heq).2).1
  rw [fileName_eq, fileName_eq] at hname
  exact partName_of_stored_eq hname

theorem isPlain_storedNames {name : String} (hname : name ∈ storedNames supply role) :
    Path.IsPlain name ∧ name ≠ ".." := by
  rw [storedNames, List.mem_cons, List.mem_singleton] at hname
  obtain rfl | rfl := hname
  · exact isPlain_inputsDirectory
  · exact isPlain_fileName role (supply role).declared

theorem isReal_storedNames (role : Role) : IsReal (storedNames supply role) :=
  fun _ hname => (isPlain_storedNames hname).1.noSlash

/-- The path of a stored input goes on behind that of the workspace. -/
theorem continues_stored {path : String} (hpath : Path.IsOpen path) (role : Role) :
    Path.Continues path (storedNames supply role) ((supply role).input path role).path :=
  (Path.continues_join hpath isPlain_inputsDirectory).join
    (Path.isOpen_join isPlain_inputsDirectory.1 path)
    (isPlain_fileName role (supply role).declared)

end

namespace Stocked

variable {base t t' : Tree} {cwd ws : Place} {path : String} {supply : Role → Supply}
  {held : Role → Option Bytes} {role : Role}

/-- **A new workspace** holds nothing. -/
theorem of_put (hsite : base.Site cwd path ws) (supply : Role → Supply) :
    Stocked ws supply (fun _ => none) (base.put ws (.directory Workspace.mode)) where
  directory := get?_put_self base _ hsite.ne_nil
  inputs n hn := by
    have hreal : IsReal (ws ++ [inputsDirectory]) :=
      hsite.isReal.snoc isPlain_inputsDirectory.1.noSlash
    rw [get?_put_of_ne base _ (by simp), hsite.nothing hreal (List.prefix_append _ _)] at hn
    cases hn
  file _ _ hheld := nomatch hheld
  nothing q hq hbelow hne _ _ := by
    rw [get?_put_of_ne base _ hne, hsite.nothing hq hbelow]

/-- The directory of the inputs does not count. -/
theorem makeDirectory (h : Stocked ws supply held t) :
    Stocked ws supply held (t.put (ws ++ [inputsDirectory]) (.directory directoryMode)) where
  directory := by rw [get?_put_of_ne t _ (by simp), h.directory]
  inputs n hn := by
    rw [get?_put_self t _ (by simp)] at hn
    exact (Option.some.inj hn).symm
  file role data hheld := by
    obtain ⟨serial, hfile⟩ := h.file role data hheld
    exact ⟨serial, by rw [get?_put_of_ne t _ (by simp [storedNames]), hfile]⟩
  nothing q hq hbelow hne hinputs hnone := by
    rw [get?_put_of_ne t _ hinputs, h.nothing q hq hbelow hne hinputs hnone]

/-- **One file** is made or changed. -/
theorem set (h : Stocked ws supply held t) (hws : IsReal ws) {serial : Nat} {data : Bytes}
    (hfile : t'.get? (ws ++ storedNames supply role) = some (.file serial fileMode data))
    (hagree : t.AgreesOff t' (ws ++ storedNames supply role)) :
    Stocked ws supply (Function.update held role (some data)) t' where
  directory := by rw [hagree ws hws (by simp [storedNames]), h.directory]
  inputs n hn := by
    have hreal := hws.snoc isPlain_inputsDirectory.1.noSlash
    rw [hagree _ hreal (by simp [storedNames])] at hn
    exact h.inputs n hn
  file other data' hheld := by
    by_cases hother : other = role
    · subst hother
      rw [Function.update_self] at hheld
      cases hheld
      exact ⟨serial, hfile⟩
    · rw [Function.update_of_ne hother] at hheld
      obtain ⟨serial', hfile'⟩ := h.file other data' hheld
      have hne : ws ++ storedNames supply other ≠ ws ++ storedNames supply role :=
        fun heq => hother (storedNames_injective supply (List.append_cancel_left heq))
      exact ⟨serial', by rw [hagree _ (hws.append (isReal_storedNames other)) hne, hfile']⟩
  nothing q hq hbelow hne hinputs hnone := by
    have hrole : q ≠ ws ++ storedNames supply role := hnone role data (Function.update_self _ _ _)
    rw [hagree q hq hrole]
    refine h.nothing q hq hbelow hne hinputs fun other data' hheld => ?_
    by_cases hother : other = role
    · rwa [hother]
    · exact hnone other data' (by rwa [Function.update_of_ne hother])

/-- What is at the place of a role is a file with the usual mode. -/
theorem eq_file (h : Stocked ws supply held t) (hws : IsReal ws) {n : Node}
    (hn : t.get? (ws ++ storedNames supply role) = some n) :
    ∃ serial data, n = .file serial fileMode data := by
  rcases hheld : held role with _ | data
  · -- nothing is there that is not held
    have hnone := h.nothing _ (hws.append (isReal_storedNames role)) (List.prefix_append ws _)
      (by simp [storedNames]) (by simp [storedNames]) fun other data' hother heq => by
        rw [storedNames_injective supply (List.append_cancel_left heq), hother] at hheld
        cases hheld
    rw [hnone] at hn
    cases hn
  · obtain ⟨serial, hfile⟩ := h.file role data hheld
    rw [hn] at hfile
    exact ⟨serial, data, Option.some.inj hfile⟩

/-- The file of a role is made with the usual mode. -/
theorem opened (h : Stocked ws supply held t) (hunlinked : Unlinked ws t) (hws : IsReal ws)
    {sink : Sink} (hopen : t.Opened (ws ++ storedNames supply role) sink t') :
    Stocked ws supply (Function.update held role (some [])) t' ∧
      t'.IsOpenAt (ws ++ storedNames supply role) sink fileMode [] := by
  have hreal : IsReal (ws ++ storedNames supply role) := hws.append (isReal_storedNames role)
  have hbelow := List.prefix_append ws (storedNames supply role)
  obtain ⟨⟨mode, hopenAt, hmode⟩, hagree⟩ := hunlinked.opened_eq hreal hbelow hopen
  have husual : mode = fileMode := by
    obtain ⟨-, husual⟩ | ⟨serial, data, hfile⟩ := hmode
    · exact husual
    · obtain ⟨serial', data', heq⟩ := h.eq_file hws hfile
      cases heq
      rfl
  subst husual
  obtain ⟨serial, -, hfile⟩ := id hopenAt
  exact ⟨h.set hws hfile hagree, hopenAt⟩

/-- Only the names of what is held count. -/
theorem congr (h : Stocked ws supply held t) {supply' : Role → Supply}
    (hnames : ∀ role, held role ≠ none → storedNames supply' role = storedNames supply role) :
    Stocked ws supply' held t where
  directory := h.directory
  inputs := h.inputs
  file role data hheld := by
    rw [hnames role (by simp [hheld])]
    exact h.file role data hheld
  nothing q hq hbelow hne hinputs hnone := by
    refine h.nothing q hq hbelow hne hinputs fun role data hheld => ?_
    rw [← hnames role (by simp [hheld])]
    exact hnone role data hheld

/-- **The directory of the inputs** is made, or it was there. -/
theorem makeDirectories (h : Stocked ws supply held t) (hsite : base.Site cwd path ws)
    (hprepared : Prepared ws base t) {r : Except Fault Unit}
    (hmake : t.makeDirectories cwd (Path.join path inputsDirectory) = (r, t')) :
    Prepared ws base t' ∧ Stocked ws supply held t' ∧
      ∀ q, q ≠ ws ++ [inputsDirectory] → t'.get? q = t.get? q := by
  obtain ⟨hplain, hup⟩ := isPlain_inputsDirectory
  refine ⟨hprepared.makeDirectories hsite hplain hup (by decide) hmake, ?_⟩
  obtain ⟨mode, hmode, hsearch⟩ := hprepared.directory
  obtain rfl | ⟨-, -, rfl⟩ := makeDirectories_join hplain hup (by decide)
    (hsite.leads_of_off hprepared.off) hmode hsearch hmake
  · exact ⟨h, fun _ _ => rfl⟩
  · exact ⟨h.makeDirectory, fun _ hq => get?_put_of_ne t _ hq⟩

/-- **Beginning** an upload makes its file, and nothing else but the directory of the inputs. -/
theorem begun (role : Role) (h : Stocked ws supply held t) (hsite : base.Site cwd path ws)
    (hpath : Path.IsOpen path) (hprepared : Prepared ws base t) {t₁ : Tree} {sink : Sink}
    (hmake : t.makeDirectories cwd (Path.join path inputsDirectory) = (.ok (), t₁))
    (hopen : t₁.openWrite cwd ((supply role).input path role).path = .ok (sink, t')) :
    (Prepared ws base t' ∧ Stocked ws supply (Function.update held role (some [])) t' ∧
      t'.IsOpenAt (ws ++ storedNames supply role) sink fileMode []) ∧
    ∀ q, IsReal q → q ≠ ws ++ [inputsDirectory] → q ≠ ws ++ storedNames supply role →
      t'.get? q = t.get? q := by
  obtain ⟨hmade, hstocked, hother⟩ := h.makeDirectories hsite hprepared hmake
  obtain ⟨p, hp, hopened⟩ := openWrite_eq_ok hopen
  have hinside := leadsInside_fileName hsite hpath hmade (isPlain_fileName role (supply role).declared)
  obtain rfl : p = ws ++ storedNames supply role :=
    hmade.tidy.resolve_continues hsite (continues_stored hpath role) hp
  obtain ⟨hstocked', hopenAt⟩ := hstocked.opened hmade.toUnlinked hsite.isReal hopened
  have hreal : IsReal (ws ++ storedNames supply role) := hsite.isReal.append (isReal_storedNames role)
  obtain ⟨-, hagree⟩ := hmade.toUnlinked.opened_eq hreal (List.prefix_append ws _) hopened
  refine ⟨⟨hmade.opened hsite hp hopened hinside, hstocked', hopenAt⟩, fun q hq hinputs hne => ?_⟩
  rw [hagree q hq hne, hother q hinputs]

/-- **Writing** to the file of a role changes nothing else. -/
theorem wrote (h : Stocked ws supply held t) (hws : IsReal ws) (hprepared : Prepared ws base t)
    {sink : Sink} {data new : Bytes} {offset : Nat}
    (hopen : t.IsOpenAt (ws ++ storedNames supply role) sink fileMode data)
    (hwrite : t.writeAt sink offset new = .ok t') :
    (Prepared ws base t' ∧
      Stocked ws supply (Function.update held role (some (overwrite data offset new))) t' ∧
      t'.IsOpenAt (ws ++ storedNames supply role) sink fileMode (overwrite data offset new)) ∧
    t.AgreesOff t' (ws ++ storedNames supply role) := by
  have hreal : IsReal (ws ++ storedNames supply role) := hws.append (isReal_storedNames role)
  have hbelow := List.prefix_append ws (storedNames supply role)
  have hinside := hprepared.toUnlinked.staysInside hreal hbelow hopen
  obtain ⟨hopenAt, hagree⟩ := hprepared.toUnlinked.writeAt_eq hreal hbelow hopen hwrite
  obtain ⟨serial, -, hfile⟩ := id hopenAt
  exact ⟨⟨hprepared.writeAt hinside hwrite, h.set hws hfile hagree, hopenAt⟩, hagree⟩

end Stocked

/-! ## The steps of the intake -/

/-- What beginning an upload does to the files. -/
theorem Intake.files_of_begin {role : Role} {declared : Option String} {i i' : Intake}
    {h h' : Host} {u : Upload} (hbegin : begin role declared (i, h) = .ok u (i', h')) :
    ∃ t, h.files.makeDirectories h.cwd (Path.join i.workspace inputsDirectory) = (.ok (), t) ∧
      t.openWrite h.cwd (Path.join (Path.join i.workspace inputsDirectory)
        (fileName role (entryName role declared))) = .ok (u.sink, h'.files) := by
  simp only [begin, Host.note] at hbegin
  split at hbegin
  · cases hbegin
  · split at hbegin
    · cases hbegin
    · next t hmake =>
      split at hbegin
      · cases hbegin
      · next hopen =>
        cases hbegin
        exact ⟨t, hmake, hopen⟩

section
variable {f : ToolFunction} {base : Tree} {cwd ws : Place} {path : String} {before : List Event}
  {supply : Role → Supply} {held : Role → Option Bytes}

variable (f base cwd ws path before supply held) in
/-- The intake has stored some bytes for some roles. -/
structure Stocks (s : Intake × Host) : Prop extends TakesIn f base cwd ws path before s where
  stocked : Stocked ws supply held s.2.files

variable (f base cwd ws path before supply held) in
/-- The intake is at the file of a role, to which it has written some bytes. -/
structure Fills (role : Role) (data : Bytes) (u : Upload) (s : Intake × Host) : Prop extends
    Stocks f base cwd ws path before supply (Function.update held role (some data)) s where
  written : u.written = data.length
  isOpenAt : s.2.files.IsOpenAt (ws ++ storedNames supply role) u.sink fileMode data

variable (hsite : base.Site cwd path ws)
include hsite

/-- **Beginning** an upload. -/
theorem ensures_begin_stocks (hpath : Path.IsOpen path) (role : Role) :
    Ensures (Stocks f base cwd ws path before supply held)
      (Intake.begin role (supply role).declared)
      (Fills f base cwd ws path before supply held role []) fun _ => True := by
  refine ⟨fun (i, h) hstocks => ?_⟩
  rcases hbegin : Intake.begin role (supply role).declared (i, h) with ⟨u, i', h'⟩ | ⟨e, i', h'⟩
  · dsimp only
    have htakes := ((ensures_begin hsite hpath role _).of_ok hstocks.toTakesIn hbegin).1
    obtain ⟨-, -, hwritten, -, -⟩ := Intake.begin_eq_ok hbegin
    obtain ⟨t, hmake, hopen⟩ := Intake.files_of_begin hbegin
    obtain ⟨rfl : i.workspace = path⟩ := hstocks.workspace
    have hcwd : h.cwd = cwd := hstocks.works.cwd
    rw [hcwd] at hmake hopen
    obtain ⟨⟨-, hstocked, hopenAt⟩, -⟩ :=
      hstocks.stocked.begun role hsite hpath hstocks.prepared hmake hopen
    exact ⟨⟨htakes, hstocked⟩, hwritten, hopenAt⟩
  · trivial

/-- **Writing** a piece of an upload. -/
theorem ensures_write_stocks (role : Role) (u : Upload) (data piece : Bytes) :
    Ensures (Fills f base cwd ws path before supply held role data u) (Intake.write u piece)
      (Fills f base cwd ws path before supply held role (data ++ piece)) fun _ => True := by
  refine ⟨fun (i, h) hfills => ?_⟩
  rcases hwrite : Intake.write u piece (i, h) with ⟨u', i', h'⟩ | ⟨e, i', h'⟩
  · dsimp only
    have hprepared : Prepared ws base h.files := hfills.prepared
    have hreal : IsReal (ws ++ storedNames supply role) :=
      hsite.isReal.append (isReal_storedNames role)
    have hbelow := List.prefix_append ws (storedNames supply role)
    have hinside := hprepared.toUnlinked.staysInside hreal hbelow hfills.isOpenAt
    have htakes := ((ensures_write u piece).of_ok ⟨hfills.toTakesIn, hinside⟩ hwrite).1
    simp only [Intake.write] at hwrite
    split at hwrite
    · cases hwrite
    · next t hat =>
      cases hwrite
      obtain ⟨⟨-, hstocked, hopenAt⟩, -⟩ :=
        hfills.stocked.wrote hsite.isReal hprepared hfills.isOpenAt hat
      rw [hfills.written, overwrite_end] at hstocked hopenAt
      rw [Function.update_idem] at hstocked
      exact ⟨⟨htakes, hstocked⟩, by simp [hfills.written], hopenAt⟩
  · trivial

theorem ensures_writeAll_stocks (role : Role) (u : Upload) (data : Bytes) (pieces : List Bytes) :
    Ensures (Fills f base cwd ws path before supply held role data u)
      (Intake.writeAll u pieces)
      (Fills f base cwd ws path before supply held role (data ++ pieces.flatten))
      fun _ => True := by
  induction pieces generalizing u data with
  | nil => exact .pure fun _ h => by rwa [List.flatten_nil, List.append_nil]
  | cons piece rest ih =>
    refine (ensures_write_stocks hsite role u data piece).bind fun u' => ?_
    rw [List.flatten_cons, ← List.append_assoc]
    exact ih u' (data ++ piece)

variable (hpath : Path.IsOpen path)
include hpath

/-- **One upload.** -/
theorem ensures_take_stocks (role : Role) :
    Ensures (Stocks f base cwd ws path before supply held) (Intake.take role (supply role))
      (fun _ => Stocks f base cwd ws path before supply
        (Function.update held role (some (supply role).data)))
      fun _ => True :=
  (ensures_begin_stocks hsite hpath role).bind fun u =>
    (ensures_writeAll_stocks hsite role u [] (supply role).pieces).bind fun _ =>
      ⟨fun _ hfills => ⟨⟨hfills.workspace, hfills.works, hfills.prepared⟩, hfills.stocked⟩⟩

/-- **All uploads**, in any order. -/
theorem ensures_takeAll_stocks (order : List Role) :
    Ensures (Stocks f base cwd ws path before supply held) (Intake.takeAll supply order)
      (fun _ => Stocks f base cwd ws path before supply
        fun role => if role ∈ order then some (supply role).data else held role)
      fun _ => True := by
  induction order generalizing held with
  | nil => exact .pure fun _ h => by simpa using h
  | cons first rest ih =>
    refine (ensures_take_stocks hsite hpath first).bind fun _ => ?_
    refine ih.imp (fun _ h => h) (fun _ s hstocks => ?_) fun _ h => h
    have hheld : (fun role => if role ∈ first :: rest then some (supply role).data else held role) =
        fun role => if role ∈ rest then some (supply role).data
          else Function.update held first (some (supply first).data) role := by
      funext role
      by_cases hrole : role = first
      · subst hrole
        simp
      · simp [hrole]
    rwa [hheld]

end

/-! ## A new workspace -/

/-- **Making** a workspace is making its directory. -/
theorem acquireWorkspace_eq (p : Pipeline) (h : Host) :
    p.acquireWorkspace h =
      match h.files.makeDirectory h.cwd (p.nextWorkspace h) Workspace.mode with
      | .ok t => .ok ⟨h.ids h.drawn, p.nextWorkspace h, false⟩
          (Host.note { h with drawn := h.drawn + 1, files := t } (.acquired (p.nextWorkspace h)))
      | .error fault => .error (.io (p.nextWorkspace h) fault.message)
          { h with drawn := h.drawn + 1 } := by
  rcases hmake : h.files.makeDirectory h.cwd (p.nextWorkspace h) Workspace.mode with fault | t
  all_goals
    simp only [Pipeline.nextWorkspace] at hmake
    simp only [Pipeline.acquireWorkspace, Service.drawId, Workspace.acquire, Service.onFiles, bind,
      EStateM.bind, Except.bind, hmake]
    rfl

/-- **A workspace that is made** is an empty directory where nothing was. -/
theorem site_of_acquireWorkspace {p : Pipeline} {w : Workspace} {h h' : Host}
    (hsound : h.files.IsSound) (hcwd : IsReal h.cwd) (hacquire : p.acquireWorkspace h = .ok w h') :
    (w.path = p.nextWorkspace h ∧ w.released = false) ∧ Path.IsOpen w.path ∧ h'.cwd = h.cwd ∧
      ∃ ws, h.files.Site h.cwd w.path ws ∧
        h'.files = h.files.put ws (.directory Workspace.mode) := by
  have hopen := isOpen_nextWorkspace p h
  rw [acquireWorkspace_eq] at hacquire
  split at hacquire
  · next t hmake =>
    cases hacquire
    obtain ⟨ws, hws, hnone, habove, rfl⟩ := makeDirectory_eq_ok hmake
    rw [withoutSlashes_of_isOpen hopen] at hws
    exact ⟨⟨rfl, rfl⟩, hopen, rfl, ws, ⟨hsound, hcwd, hws, hnone, habove⟩, rfl⟩
  · cases hacquire

section
variable {p : Pipeline} {f : ToolFunction} {h h₀ : Host} {w : Workspace} (supply : Role → Supply)
  (hcalls : h.CallsOnly f) (hsound : h.files.IsSound) (hcwd : IsReal h.cwd)
  (hacquire : p.acquireWorkspace h = .ok w h₀)
include hcalls hsound hcwd hacquire

/-- **A workspace without inputs.** -/
theorem stocks_of_acquireWorkspace :
    Path.IsOpen w.path ∧ ∃ ws, h.files.Site h.cwd w.path ws ∧
      Stocks f h.files h.cwd ws w.path (h.journal ++ [Event.acquired w.path]) supply
        (fun _ => none) ({ workspace := w.path }, h₀) := by
  obtain ⟨-, hopen, ws, hsite, hworks, hprepared⟩ :=
    acquireWorkspace_eq_ok hcalls hsound hcwd hacquire
  obtain ⟨-, -, -, ws', hsite', hfiles⟩ := site_of_acquireWorkspace hsound hcwd hacquire
  obtain rfl := Except.ok.inj (hsite.leads.symm.trans hsite'.leads)
  exact ⟨hopen, ws, hsite, ⟨rfl, hworks, hprepared⟩, hfiles ▸ Stocked.of_put hsite supply⟩

/-- **A workspace with all five inputs.** -/
theorem stocks_of_takeAll {h₁ : Host} {supply : Role → Supply} {order : List Role} {i : Intake}
    (horder : order.Perm Role.all)
    (htake : Intake.takeAll supply order ({ workspace := w.path }, h₀) = .ok () (i, h₁)) :
    Path.IsOpen w.path ∧ ∃ ws, h.files.Site h.cwd w.path ws ∧
      Stocks f h.files h.cwd ws w.path (h.journal ++ [Event.acquired w.path]) supply
        (fun role => some (supply role).data) (i, h₁) := by
  obtain ⟨hopen, ws, hsite, hstart⟩ :=
    stocks_of_acquireWorkspace supply hcalls hsound hcwd hacquire
  have hend := (ensures_takeAll_stocks hsite hopen order).of_ok hstart htake
  have hall : (fun role => if role ∈ order then some (supply role).data else none) =
      fun role => some (supply role).data := by
    funext role
    rw [if_pos (horder.mem_iff.2 role.mem_all)]
  rw [hall] at hend
  exact ⟨hopen, ws, hsite, hend⟩

end

end LangBundle
