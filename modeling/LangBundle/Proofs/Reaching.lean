import LangBundle.Proofs.TidyFiles

/-!
# What can be read and made

When files can be opened, and that writing a file takes nothing away.

* `Offers`: a path names a file that can be read, with its data.
* `CanMake`: a path names a file that can be written, or one that can be made.
* `Grows`: a tree has all that another one has; what could be read and made still can.
* `Tidy.openWrite_ok`, `Tidy.write_ok`: **a file** that can be made is made.
-/

namespace LangBundle.Files.Tree

variable {base t t' t'' : Tree} {cwd ws p : Place} {path below : String} {data : Bytes}

/-- A path names a regular file that can be read, with some data. -/
def Offers (t : Tree) (cwd : Place) (path : String) (data : Bytes) : Prop :=
  ∃ serial mode, t.stat cwd path = .ok (.file serial mode data) ∧
    (Node.file serial mode data).allows .read = true

/-- A path names a regular file that can be read. -/
def CanRead (t : Tree) (cwd : Place) (path : String) : Prop :=
  ∃ data, t.Offers cwd path data

/-- A path names a regular file that can be read and written, or one that can be made. -/
def CanMake (t : Tree) (cwd : Place) (path : String) : Prop :=
  Path.IsOpen path ∧ ∃ p, t.resolve cwd path = .ok p ∧
    (t.get? p = none ∧ t.requireAbove p = .ok () ∨ ∃ serial mode data,
      t.get? p = some (.file serial mode data) ∧
        (Node.file serial mode data).allows .read = true ∧
        (Node.file serial mode data).allows .write = true)

/-! ## Reading -/

theorem Offers.shows (h : t.Offers cwd path data) : t.Shows cwd path data := by
  obtain ⟨serial, mode, hstat, -⟩ := h
  exact ⟨serial, mode, hstat⟩

theorem Offers.read_ok (h : t.Offers cwd path data) (hsound : t.IsSound) :
    ∃ source, t.openRead cwd path = .ok source ∧ t.readAll source = .ok data := by
  obtain ⟨serial, mode, hstat, hallow⟩ := h
  obtain ⟨q, -, hfile⟩ := stat_eq_ok_iff.1 hstat
  refine ⟨.file serial, ?_, ?_⟩
  · simp only [openRead, hstat, bind, Except.bind, require, if_pos hallow]
    rfl
  · rw [readAll, hsound.dataOf?_of_get? hfile]
    rfl

/-- A file that stays as it is can still be read. -/
theorem Offers.of_kept (h : t.Offers cwd path data) (hshape : t.SameShape t')
    (hkept : ∀ p, t.resolve cwd path = .ok p → t'.get? p = t.get? p) : t'.Offers cwd path data := by
  obtain ⟨serial, mode, hstat, hallow⟩ := h
  obtain ⟨q, hq, hfile⟩ := stat_eq_ok_iff.1 hstat
  refine ⟨serial, mode, stat_eq_ok_iff.2 ⟨q, resolve_of_sameShape hshape hq, ?_⟩, hallow⟩
  rw [hkept q hq, hfile]

/-- A file below a tidy directory can still be read if another one changes. -/
theorem Offers.of_agree (h : t.Offers cwd below data) (hsite : base.Site cwd path ws)
    (htidy : Tidy ws base t) (hshape : t.SameShape t') {names : List String}
    (hbelow : Path.Continues path names below) {name : String}
    (hagree : t.AgreesOff t' (ws ++ [name])) (hne : names ≠ [name]) : t'.Offers cwd below data := by
  refine h.of_kept hshape fun q hq => ?_
  have hreal := isReal_of_resolve hsite.real hq
  obtain rfl := htidy.resolve_continues hsite hbelow hq
  exact hagree _ hreal fun heq => hne (List.append_cancel_left heq)

/-! ## Making -/

theorem requireAbove_ok {dir : Place} {mode : Nat} (hdir : t.get? dir = some (.directory mode))
    (hadmits : AdmitsNames (.directory mode)) (name : String) :
    t.requireAbove (dir ++ [name]) = .ok () := by
  rw [requireAbove, List.dropLast_concat, hdir]
  simp [require, hadmits.1, hadmits.2, bind, Except.bind]

theorem CanMake.openWrite_ok (h : t.CanMake cwd path) :
    ∃ serial t', t.openWrite cwd path = .ok (.file serial, t') := by
  obtain ⟨hopen, p, hp, ⟨hnone, habove⟩ | ⟨serial, mode, data, hfile, -, hallow⟩⟩ := h
  · refine ⟨t.nextSerial, t.newFile p, ?_⟩
    simp only [openWrite, hopen.last, decide_false, if_false, Bool.not_false, hp, hnone, habove]
    rfl
  · refine ⟨serial, t.modifyFile serial fun _ => [], ?_⟩
    simp only [openWrite, hopen.last, decide_false, if_false, Bool.not_false, hp, hfile, require,
      if_pos hallow]
    rfl

theorem CanMake.write_ok (h : t.CanMake cwd path) (data : Bytes) :
    ∃ t', t.write cwd path data = .ok t' := by
  obtain ⟨serial, u, hopen⟩ := h.openWrite_ok
  refine ⟨u.modifyFile serial fun old => overwrite old 0 data, ?_⟩
  rw [Tree.write, hopen]
  rfl

/-- A tree has all that another one has, and perhaps some more files. -/
structure Grows (t t' : Tree) : Prop where
  shape : t.SameShape t'
  file : ∀ q serial mode data, t.get? q = some (.file serial mode data) →
    ∃ data', t'.get? q = some (.file serial mode data')
  new : ∀ q, t.get? q = none → t'.get? q = none ∨
    ∃ serial data, t'.get? q = some (.file serial fileMode data)

namespace Grows

theorem refl (t : Tree) : t.Grows t :=
  ⟨.refl t, fun _ _ _ data h => ⟨data, h⟩, fun _ h => .inl h⟩

theorem trans (h : t.Grows t') (h' : t'.Grows t'') : t.Grows t'' where
  shape := h.shape.trans h'.shape
  file q serial mode data hfile := by
    obtain ⟨data', hfile'⟩ := h.file q serial mode data hfile
    exact h'.file q serial mode data' hfile'
  new q hnone := by
    obtain hnone' | ⟨serial, data, hfile⟩ := h.new q hnone
    · exact h'.new q hnone'
    · obtain ⟨data', hfile'⟩ := h'.file q serial fileMode data hfile
      exact .inr ⟨serial, data', hfile'⟩

theorem modifyFile (t : Tree) (serial : Nat) (f : Bytes → Bytes) :
    t.Grows (t.modifyFile serial f) where
  shape := sameShape_modifyFile t serial f
  file q s mode data hfile := ⟨_, by rw [get?_modifyFile, hfile]; rfl⟩
  new q hnone := .inl (by rw [get?_modifyFile, hnone]; rfl)

theorem of_opened {sink : Sink} (h : t.Opened p sink t') : t.Grows t' := by
  cases h with
  | made hnone _ =>
    refine ⟨sameShape_newFile hnone fileMode, fun q s mode data hfile => ⟨data, ?_⟩,
      fun q hnone' => ?_⟩
    · rwa [get?_newFile_of_ne t fun heq => by simp [heq, hnone] at hfile]
    · by_cases hq : q = p
      · rw [hq, get?_newFile_self t (ne_nil_of_get?_eq_none hnone)]
        exact .inr ⟨_, _, rfl⟩
      · exact .inl (by rw [get?_newFile_of_ne t hq, hnone'])
  | emptied _ => exact modifyFile t _ _
  | same _ _ _ _ => exact .refl t

theorem of_writeAt {sink : Sink} {offset : Nat} {new : Bytes}
    (h : t.writeAt sink offset new = .ok t') : t.Grows t' := by
  obtain ⟨serial, -, rfl⟩ | ⟨-, rfl⟩ := writeAt_eq_ok h
  · exact modifyFile t _ _
  · exact .refl _

theorem canRead (h : t.Grows t') (hread : t.CanRead cwd path) : t'.CanRead cwd path := by
  obtain ⟨data, serial, mode, hstat, hallow⟩ := hread
  obtain ⟨p, hp, hfile⟩ := stat_eq_ok_iff.1 hstat
  obtain ⟨data', hfile'⟩ := h.file p serial mode data hfile
  exact ⟨data', serial, mode, stat_eq_ok_iff.2 ⟨p, resolve_of_sameShape h.shape hp, hfile'⟩, hallow⟩

theorem canMake (h : t.Grows t') (hsound : t.IsSound) (hcwd : IsReal cwd)
    (hmake : t.CanMake cwd path) : t'.CanMake cwd path := by
  obtain ⟨hopen, p, hp, ⟨hnone, habove⟩ | ⟨serial, mode, data, hfile, hallow⟩⟩ := hmake
  · refine ⟨hopen, p, resolve_of_sameShape h.shape hp, ?_⟩
    obtain hnone' | ⟨serial, data, hfile⟩ := h.new p hnone
    · refine .inl ⟨hnone', ?_⟩
      rw [requireAbove_of_sameShape h.shape (hsound.hasAbove_of_resolve hcwd hp hnone), habove]
    · exact .inr ⟨serial, fileMode, data, hfile, by rw [Node.allows, Node.mode]; decide,
        by rw [Node.allows, Node.mode]; decide⟩
  · obtain ⟨data', hfile'⟩ := h.file p serial mode data hfile
    exact ⟨hopen, p, resolve_of_sameShape h.shape hp, .inr ⟨serial, mode, data', hfile', hallow⟩⟩

end Grows

/-! ## Files below a tidy directory -/

section
variable {names : List String} (hsite : base.Site cwd path ws) (h : Tidy ws base t)
  (hbelow : Path.Continues path names below) (hmake : t.CanMake cwd below)
include hsite h hbelow hmake

/-- **Opening** a file that can be made. -/
theorem Tidy.openWrite_ok : t.resolve cwd below = .ok (ws ++ names) ∧
    ∃ sink t' mode, t.openWrite cwd below = .ok (sink, t') ∧ t.Opened (ws ++ names) sink t' ∧
      t'.IsOpenAt (ws ++ names) sink mode [] ∧ (Node.file 0 mode []).allows .read = true := by
  obtain ⟨serial, t', hopen⟩ := hmake.openWrite_ok
  generalize Sink.file serial = sink at hopen
  obtain ⟨-, q, hq, hnode⟩ := hmake
  have hreal := isReal_of_resolve hsite.real hq
  obtain ⟨q', hq', hopened⟩ := openWrite_eq_ok hopen
  rw [hq] at hq'
  cases hq'
  obtain rfl := h.resolve_continues hsite hbelow hq
  obtain ⟨⟨mode, hopenAt, hnew⟩, -⟩ :=
    h.toUnlinked.opened_eq hreal (List.prefix_append ws names) hopened
  refine ⟨hq, sink, t', mode, hopen, hopened, hopenAt, ?_⟩
  obtain ⟨-, rfl⟩ | ⟨serial, data, hfile⟩ := hnew
  · decide
  · obtain ⟨hnone, -⟩ | ⟨serial', mode', data', hfile', hallow, -⟩ := hnode
    · rw [hfile] at hnone
      cases hnone
    · rw [hfile] at hfile'
      cases hfile'
      exact hallow

/-- **Writing** a file that can be made. -/
theorem Tidy.write_ok (data : Bytes) : ∃ t', t.write cwd below data = .ok t' ∧ Tidy ws base t' ∧
    t.Grows t' ∧ t.AgreesOff t' (ws ++ names) ∧ t'.Offers cwd below data := by
  obtain ⟨hp, sink, t₁, mode, hopen, hopened, hopenAt, hallow⟩ :=
    h.openWrite_ok hsite hbelow hmake
  have hreal := isReal_of_resolve hsite.real hp
  have hinside := List.prefix_append ws names
  have htidy := h.opened hsite.real hp hinside hopened
  have hagree := (h.toUnlinked.opened_eq hreal hinside hopened).2
  obtain ⟨t₂, hwrite⟩ : ∃ t₂, t₁.writeAt sink 0 data = .ok t₂ := by
    obtain ⟨serial, rfl, -⟩ := hopenAt
    exact ⟨_, rfl⟩
  obtain ⟨⟨serial, -, hfile⟩, hagree'⟩ := htidy.toUnlinked.writeAt_eq hreal hinside hopenAt hwrite
  rw [overwrite_start] at hfile
  have hgrows : t.Grows t₂ := (Grows.of_opened hopened).trans (.of_writeAt hwrite)
  refine ⟨t₂, ?_, htidy.writeAt hreal hinside hopenAt hwrite, hgrows, hagree.trans hagree', serial,
    mode, stat_eq_ok_iff.2 ⟨_, resolve_of_sameShape hgrows.shape hp, hfile⟩, hallow⟩
  simp only [Tree.write, hopen, bind, Except.bind]
  exact hwrite

end

end LangBundle.Files.Tree
