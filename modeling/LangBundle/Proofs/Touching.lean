import LangBundle.Proofs.Reaching

/-!
# Writing some files

Whether a path can be read or written depends on where it leads and on what is there, its data apart.
Whoever opens and writes files at some places makes at most the files that are missing there, and
changes nothing that has no name at one of the places.

* `read_isOk_iff`, `openWrite_isOk_iff`: **what can be read**, and what can be written.
* `Touched`: a tree in which files at some places were made and written.
* `Touched.read_isOk`, `Touched.openWrite_isOk`: **the same paths** can be read and written then.
* `Touched.of_opened`, `Touched.of_writeAt`: opening and writing a file.
-/

namespace LangBundle.Files

/-! ## What a file is without its data -/

namespace Node

/-- A node without its data. -/
def blank : Node → Node
  | .file serial mode _ => .file serial mode []
  | n => n

/-- Whether a node gives its bytes to a reader. -/
def gives : Node → Bool
  | .directory _ => false
  | .device kind => kind != .terminal
  | _ => true

/-- Whether a node takes bytes from a writer. -/
def takes : Node → Bool
  | .file .. | .pipe .. => true
  | .device kind => kind != .terminal
  | _ => false

/-- Whether something can be read. -/
def isReadable (n : Node) : Bool :=
  n.allows .read && n.gives

/-- Whether something can be written. -/
def isWritable (n : Node) : Bool :=
  n.allows .write && n.takes

@[simp]
theorem isReadable_blank (n : Node) : n.blank.isReadable = n.isReadable := by
  cases n <;> rfl

@[simp]
theorem isWritable_blank (n : Node) : n.blank.isWritable = n.isWritable := by
  cases n <;> rfl

@[simp]
theorem allows_blank (n : Node) (p : Permission) : n.blank.allows p = n.allows p := by
  cases n <;> rfl

@[simp]
theorem shape?_blank (n : Node) : n.blank.shape? = n.shape? := by
  cases n <;> rfl

@[simp]
theorem blank_modified (serial : Nat) (f : Bytes → Bytes) (n : Node) :
    (n.modified serial f).blank = n.blank := by
  cases n <;> rfl

theorem gives_of_takes {n : Node} (h : n.takes = true) : n.gives = true := by
  cases n <;> first | exact h | rfl

/-- What can be written can be read if that is permitted. -/
theorem isReadable_of_isWritable {n : Node} (h : n.isWritable = true) :
    n.isReadable = n.allows .read := by
  rw [isReadable, gives_of_takes (Bool.and_eq_true_iff.1 h).2, Bool.and_true]

/-- A file as it is made can be read and written. -/
theorem isReadable_new (serial : Nat) (data : Bytes) :
    (Node.file serial Tree.fileMode data).isReadable = true := by
  have hallow : (Node.file serial Tree.fileMode data).allows .read = true := by
    rw [allows, mode]
    decide
  rw [isReadable, hallow]
  rfl

@[inherit_doc isReadable_new]
theorem isWritable_new (serial : Nat) (data : Bytes) :
    (Node.file serial Tree.fileMode data).isWritable = true := by
  have hallow : (Node.file serial Tree.fileMode data).allows .write = true := by
    rw [allows, mode]
    decide
  rw [isWritable, hallow]
  rfl

/-- What does not depend on the data is the same for nodes that differ in their data only. -/
theorem exists_iff_of_blank {o o' : Option Node} (h : o'.map blank = o.map blank)
    {R : Node → Prop} (hR : ∀ n, R n.blank ↔ R n) :
    (∃ n, o' = some n ∧ R n) ↔ ∃ n, o = some n ∧ R n := by
  have hblank (o : Option Node) : (∃ n, o = some n ∧ R n) ↔ ∃ n, o.map blank = some n ∧ R n := by
    simp [hR]
  rw [hblank, h, ← hblank]

end Node

namespace Tree

variable {t t' t'' : Tree} {cwd : Place} {path : String} {P Q : Place → Prop}

/-- **What can be read** is there, and may be read. -/
theorem read_isOk_iff : (t.read cwd path).isOk = true ↔
    ∃ n, t.stat cwd path = .ok n ∧ n.isReadable = true := by
  constructor
  · intro hok
    rcases hread : t.read cwd path with fault | data
    · rw [hread] at hok
      cases hok
    obtain ⟨source, hopen, hall⟩ := bind_eq_ok hread
    obtain ⟨n, hstat, hopen⟩ := bind_eq_ok hopen
    obtain ⟨_, hrequire, hsource⟩ := bind_eq_ok hopen
    refine ⟨n, hstat, ?_⟩
    rw [Node.isReadable, require_eq_ok_iff.1 hrequire, Bool.true_and]
    rcases n with _ | _ | _ | _ | (_ | _ | _ | _) | _
    case directory =>
      cases hsource
      cases hall
    case device.terminal => cases hsource
    all_goals rfl
  · rintro ⟨n, hstat, hreadable⟩
    obtain ⟨hallow, hgives⟩ := Bool.and_eq_true_iff.1 hreadable
    rw [read, openRead, hstat]
    simp only [bind, Except.bind, require, if_pos hallow]
    rcases n with _ | _ | _ | _ | (_ | _ | _ | _) | _
    case directory => cases hgives
    case device.terminal => cases hgives
    all_goals rfl

/-- **What can be written** is there and may be written, or can be made. -/
theorem openWrite_isOk_iff : (t.openWrite cwd path).isOk = true ↔
    path.toList.getLast? ≠ some '/' ∧ ∃ p, t.resolve cwd path = .ok p ∧
      (t.get? p = none ∧ t.requireAbove p = .ok () ∨
        ∃ n, t.get? p = some n ∧ n.isWritable = true) := by
  unfold openWrite
  by_cases hslash : path.toList.getLast? = some '/'
  · simp only [hslash, decide_true, if_true, ne_eq, not_true_eq_false, false_and, iff_false,
      Bool.not_eq_true]
    split <;> rfl
  · simp only [hslash, decide_false, if_false, Bool.not_false, ne_eq, not_false_eq_true, true_and]
    rcases t.resolve cwd path with fault | p
    · refine iff_of_false (fun h => nomatch h) ?_
      rintro ⟨p, hp, -⟩
      cases hp
    have hplace {R : Place → Prop} : (∃ q, (.ok p : Except Fault Place) = .ok q ∧ R q) ↔ R p :=
      ⟨fun ⟨q, hq, hR⟩ => Except.ok.inj hq ▸ hR, fun hR => ⟨p, rfl, hR⟩⟩
    rw [hplace]
    dsimp only
    rcases t.get? p with _ | n
    · rcases t.requireAbove p with fault | _
      · refine iff_of_false (fun h => nomatch h) ?_
        rintro (⟨-, h⟩ | ⟨n, h, -⟩) <;> cases h
      · exact iff_of_true rfl (.inl ⟨rfl, rfl⟩)
    · have hnode : (some n = none ∧ t.requireAbove p = .ok () ∨
          ∃ m, some n = some m ∧ m.isWritable = true) ↔ n.isWritable = true := by
        simp
      rw [hnode, Node.isWritable]
      rcases hallow : n.allows .write with _ | _
      · rcases n with _ | _ | _ | _ | (_ | _ | _ | _) | _ <;>
          simp [bind, Except.bind, require, hallow, Except.isOk, Except.toBool, throw, throwThe,
            MonadExceptOf.throw]
      · rcases n with _ | _ | _ | _ | (_ | _ | _ | _) | _ <;>
          simp [bind, Except.bind, require, hallow, Except.isOk, Except.toBool, throw, throwThe,
            MonadExceptOf.throw, Node.takes, pure, Except.pure]

/-! ## Trees in which some files were written -/

/-- A tree in which files at some places were made and written. -/
structure Touched (P : Place → Prop) (t t' : Tree) : Prop where
  sound : t'.IsSound
  /-- Everything is there as before, its data apart, but for new files at the places. -/
  alike : ∀ q, (t'.get? q).map Node.blank = (t.get? q).map Node.blank ∨
    P q ∧ t.get? q = none ∧ t.requireAbove q = .ok () ∧
      ∃ serial data, t'.get? q = some (.file serial fileMode data)
  /-- No two places have become names of one file. -/
  aliases : ∀ p q, t'.Aliases p q → t.Aliases p q
  /-- What has no name at one of the places is as before, its data too. -/
  off : ∀ q, (∀ p, P p → ¬ t.Aliases p q) → t'.get? q = t.get? q

namespace Touched

theorem refl (hsound : t.IsSound) : Touched P t t :=
  ⟨hsound, fun _ => .inl rfl, fun _ _ h => h, fun _ _ => rfl⟩

theorem mono (h : Touched P t t') (hsub : ∀ p, P p → Q p) : Touched Q t t' where
  sound := h.sound
  alike q := (h.alike q).imp_right fun ⟨hP, hnew⟩ => ⟨hsub q hP, hnew⟩
  aliases := h.aliases
  off q hq := h.off q fun p hP => hq p (hsub p hP)

/-- Directories and links are as before. -/
theorem sameShape (h : Touched P t t') : t.SameShape t' := by
  have hshape (n : Option Node) : n.bind Node.shape? = (n.map Node.blank).bind Node.shape? := by
    cases n with
    | none => rfl
    | some n => exact n.shape?_blank.symm
  intro q
  obtain halike | ⟨-, hnone, -, serial, data, hfile⟩ := h.alike q
  · rw [hshape, halike, ← hshape]
  · rw [hnone, hfile]
    rfl

/-- Paths lead where they led. -/
theorem resolve_eq_ok_iff (h : Touched P t t') {p : Place} :
    t'.resolve cwd path = .ok p ↔ t.resolve cwd path = .ok p :=
  ⟨resolve_of_sameShape h.sameShape.symm, resolve_of_sameShape h.sameShape⟩

/-- **Names can be made** in the same directories. -/
theorem requireAbove_eq_ok_iff (h : Touched P t t') (p : Place) :
    t'.requireAbove p = .ok () ↔ t.requireAbove p = .ok () := by
  have hnode (u : Tree) : u.requireAbove p = .ok () ↔ ∃ n, u.get? p.dropLast = some n ∧
      n.allows .write = true ∧ n.allows .execute = true := by
    constructor
    · exact requireAbove_eq_ok
    · rintro ⟨n, hn, hwrite, hexecute⟩
      simp [requireAbove, hn, require, hwrite, hexecute, bind, Except.bind]
  rw [hnode, hnode]
  obtain halike | ⟨-, hnone, -, serial, data, hfile⟩ := h.alike p.dropLast
  · exact Node.exists_iff_of_blank halike fun n => by rw [n.allows_blank, n.allows_blank]
  · -- a new file is no directory to make names in
    refine iff_of_false ?_ ?_
    · rintro ⟨n, hn, -, hexecute⟩
      rw [hfile] at hn
      obtain rfl := Option.some.inj hn
      rw [Node.allows, Node.mode] at hexecute
      exact absurd hexecute (by decide)
    · rintro ⟨n, hn, -⟩
      rw [hnone] at hn
      cases hn

theorem trans (h : Touched P t t') (h' : Touched P t' t'') : Touched P t t'' where
  sound := h'.sound
  alike q := by
    obtain halike | ⟨hP, hnone, habove, serial, data, hfile⟩ := h.alike q
    · obtain halike' | ⟨hP, hnone', habove, hnew⟩ := h'.alike q
      · exact .inl (halike'.trans halike)
      · refine .inr ⟨hP, ?_, (h.requireAbove_eq_ok_iff q).1 habove, hnew⟩
        rw [hnone'] at halike
        exact Option.map_eq_none_iff.1 halike.symm
    · obtain halike' | ⟨-, hnone', -⟩ := h'.alike q
      · refine .inr ⟨hP, hnone, habove, ?_⟩
        rw [hfile] at halike'
        obtain ⟨n, hn, hblank⟩ := Option.map_eq_some_iff.1 halike'
        cases n with
        | file serial' mode data' =>
          cases hblank
          exact ⟨_, _, hn⟩
        | _ => cases hblank
      · rw [hfile] at hnone'
        cases hnone'
  aliases p q halias := h.aliases p q (h'.aliases p q halias)
  off q hq := (h'.off q fun p hP halias => hq p hP (h.aliases p q halias)).trans (h.off q hq)

/-- **The same paths can be read**, but for those that lead to a new file. -/
theorem read_isOk (h : Touched P t t')
    (hplace : ∀ p, t.resolve cwd path = .ok p → P p → t.get? p ≠ none) :
    (t'.read cwd path).isOk = (t.read cwd path).isOk := by
  have hreadable (u : Tree) : (u.read cwd path).isOk = true ↔ ∃ p, u.resolve cwd path = .ok p ∧
      ∃ n, u.get? p = some n ∧ n.isReadable = true := by
    rw [read_isOk_iff]
    simp only [stat_eq_ok_iff, ← exists_and_right, ← exists_and_left, and_assoc]
    exact exists_comm
  rw [Bool.eq_iff_iff, hreadable, hreadable]
  refine exists_congr fun p => ?_
  rw [h.resolve_eq_ok_iff]
  refine and_congr_right fun hp => ?_
  obtain halike | ⟨hP, hnone, -⟩ := h.alike p
  · exact Node.exists_iff_of_blank halike fun n => by rw [n.isReadable_blank]
  · exact absurd hnone (hplace p hp hP)

/-- **The same paths can be written.** -/
theorem openWrite_isOk (h : Touched P t t') :
    (t'.openWrite cwd path).isOk = (t.openWrite cwd path).isOk := by
  rw [Bool.eq_iff_iff, openWrite_isOk_iff, openWrite_isOk_iff]
  refine and_congr_right fun _ => exists_congr fun p => ?_
  have hnone (u : Tree) : u.get? p = none ↔ (u.get? p).map Node.blank = none :=
    Option.map_eq_none_iff.symm
  rw [h.resolve_eq_ok_iff, h.requireAbove_eq_ok_iff]
  refine and_congr_right fun _ => ?_
  obtain halike | ⟨-, hmissing, habove, serial, data, hfile⟩ := h.alike p
  · rw [hnone, halike, ← hnone,
      Node.exists_iff_of_blank halike fun n => by rw [n.isWritable_blank]]
  · -- what was made could be made, and can be written now
    exact iff_of_true (.inr ⟨_, hfile, Node.isWritable_new serial data⟩) (.inl ⟨hmissing, habove⟩)

end Touched

/-! ## Opening and writing -/

section
variable {p : Place} {sink : Sink}

/-- What is opened has the number by which it is open. -/
theorem Opened.serialAt?_self (h : t.Opened p sink t') {serial : Nat} (hsink : sink = .file serial) :
    t'.serialAt? p = some serial := by
  cases h with
  | made hnone _ =>
    cases hsink
    exact serialAt?_newFile_self t (ne_nil_of_get?_eq_none hnone) fileMode
  | emptied hfile =>
    cases hsink
    rw [serialAt?_modifyFile, Tree.serialAt?, hfile]
    rfl
  | same _ _ _ hnot => exact absurd hsink (hnot serial)

/-- What is opened is there. -/
theorem Opened.get?_ne_none (h : t.Opened p sink t') : t'.get? p ≠ none := by
  cases h with
  | made hnone _ =>
    rw [get?_newFile_self t (ne_nil_of_get?_eq_none hnone)]
    exact Option.some_ne_none _
  | emptied hfile =>
    rw [get?_modifyFile, hfile]
    exact Option.some_ne_none _
  | same hnode _ _ _ =>
    rw [hnode]
    exact Option.some_ne_none _

/-- Writing into an open file fails only if its device is full. -/
theorem writeAt_eq_error {offset : Nat} {new : Bytes} {fault : Fault}
    (h : t.writeAt sink offset new = .error fault) : fault = .noSpace := by
  unfold writeAt at h
  split at h
  · cases h
  · split at h <;> cases h
    rfl
  · cases h
  · cases h

/-- Opening makes no two places names of one file. -/
theorem Opened.aliases_before (hsound : t.IsSound) (h : t.Opened p sink t') {q r : Place}
    (halias : t'.Aliases q r) : t.Aliases q r := by
  -- the number of a new file is nobody's before
  have hnew {q : Place} (hq : t.serialAt? q = some t.nextSerial) : False :=
    Nat.lt_irrefl _ (hsound.serialAt?_lt hq)
  obtain rfl | ⟨serial, hq, hr⟩ := halias
  · exact .inl rfl
  obtain hold | ⟨rfl, hq', -⟩ := h.serialAt? q <;> obtain hold' | ⟨rfl, hr', -⟩ := h.serialAt? r
  · exact .inr ⟨serial, hold ▸ hq, hold' ▸ hr⟩
  · rw [hold, ← hr, hr'] at hq
    exact (hnew hq).elim
  · rw [hold', ← hq, hq'] at hr
    exact (hnew hr).elim
  · exact .inl rfl

/-- Changing the data of a file leaves what has no name of it as it is. -/
theorem Touched.of_modifyFile (hsound : t.IsSound) {serial : Nat}
    (hserial : t.serialAt? p = some serial) (f : Bytes → Bytes) :
    Touched (· = p) t (t.modifyFile serial f) where
  sound := hsound.modifyFile serial f
  alike q := by
    rw [get?_modifyFile, Option.map_map]
    exact .inl (congrArg (Option.map · _) (funext (Node.blank_modified serial f)))
  aliases q r := by
    simp only [Aliases, serialAt?_modifyFile]
    exact id
  off q hq := get?_modifyFile_of_ne (fun hs => hq p rfl (.inr ⟨serial, hserial, hs⟩)) f

/-- **Opening** a file for writing. -/
theorem Touched.of_opened (hsound : t.IsSound) (hcwd : IsReal cwd)
    (hp : t.resolve cwd path = .ok p) (h : t.Opened p sink t') : Touched (· = p) t t' := by
  refine ⟨h.isSound hsound hcwd hp, ?_, fun _ _ => h.aliases_before hsound,
    fun q hq => h.get?_of_not_aliases (hq p rfl)⟩
  cases h with
  | made hnone habove =>
    intro q
    by_cases hq : q = p
    · subst hq
      exact .inr ⟨rfl, hnone, habove, _, _,
        get?_newFile_self t (ne_nil_of_get?_eq_none hnone) fileMode⟩
    · exact .inl (by rw [get?_newFile_of_ne t hq])
  | emptied hfile => exact (of_modifyFile hsound (by rw [Tree.serialAt?, hfile]; rfl) _).alike
  | same _ _ _ _ => exact fun _ => .inl rfl

/-- **Writing** into a file that is open. -/
theorem Touched.of_writeAt (hsound : t.IsSound)
    (hopen : ∀ serial, sink = .file serial → t.serialAt? p = some serial) {offset : Nat} {new : Bytes}
    (h : t.writeAt sink offset new = .ok t') : Touched (· = p) t t' := by
  obtain ⟨serial, hsink, rfl⟩ | ⟨-, rfl⟩ := writeAt_eq_ok h
  · exact of_modifyFile hsound (hopen serial hsink) _
  · exact .refl hsound

/-- What is there stays there. -/
theorem Touched.get?_ne_none (h : Touched P t t') {q : Place} (hq : t.get? q ≠ none) :
    t'.get? q ≠ none := by
  obtain halike | ⟨-, hnone, -⟩ := h.alike q
  · intro hnone
    rw [hnone] at halike
    exact hq (Option.map_eq_none_iff.1 halike.symm)
  · exact absurd hnone hq

end

end Tree

end LangBundle.Files
