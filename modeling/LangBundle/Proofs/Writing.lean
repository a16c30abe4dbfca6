import LangBundle.Proofs.Resolving

/-!
# What writing does to a tree

The operations that change files, each with all that it can do to the places of the tree.

* `Tree.Aliases`: the names of what is at a place.
* `openWrite_eq_ok`: **opening** makes a file or empties one.
* `get?_writeAt`: **writing** changes the names of the open file only.
* `makeDirectory_eq_ok`, `makeDirectories_join`: **directories**.
-/

namespace LangBundle.Files

open Text

namespace Tree

/-- A place is a name of what is at another one. -/
def Aliases (t : Tree) (p q : Place) : Prop :=
  q = p ∨ ∃ serial, t.serialAt? p = some serial ∧ t.serialAt? q = some serial

/-- What opening for writing does at the place that a path leads to. -/
inductive Opened (t : Tree) (p : Place) : Sink → Tree → Prop
  | made (hnone : t.get? p = none) (habove : t.requireAbove p = .ok ()) :
      Opened t p (.file t.nextSerial) (t.newFile p)
  | emptied {serial mode : Nat} {data : Bytes} (hfile : t.get? p = some (.file serial mode data)) :
      Opened t p (.file serial) (t.modifyFile serial fun _ => [])
  | same {sink : Sink} {n : Node} (hnode : t.get? p = some n) (hdir : n.isDirectory = false)
      (hfile : ∀ serial mode data, n ≠ .file serial mode data)
      (hsink : ∀ serial, sink ≠ .file serial) : Opened t p sink t

/-- An operation of two parts succeeds if both do. -/
theorem bind_eq_ok {α β : Type} {x : Except Fault α} {f : α → Except Fault β} {b : β}
    (h : (x >>= f) = .ok b) : ∃ a, x = .ok a ∧ f a = .ok b := by
  cases x with
  | error fault => cases h
  | ok a => exact ⟨a, rfl, h⟩

/-- **Opening** for writing. -/
theorem openWrite_eq_ok {t t' : Tree} {cwd : Place} {path : String} {sink : Sink}
    (h : t.openWrite cwd path = .ok (sink, t')) :
    ∃ p, t.resolve cwd path = .ok p ∧ t.Opened p sink t' := by
  unfold openWrite at h
  by_cases hslash : path.toList.getLast? = some '/'
  · simp only [hslash, decide_true, if_true] at h
    split at h <;> cases h
  · simp only [hslash, decide_false, if_false, Bool.not_false] at h
    split at h
    · cases h
    · next p hp =>
      refine ⟨p, hp, ?_⟩
      split at h
      · next hnone =>
        obtain ⟨_, habove, h⟩ := bind_eq_ok h
        cases h
        exact .made hnone habove
      · cases h
      · next n _ hn =>
        obtain ⟨_, -, h⟩ := bind_eq_ok h
        have hsame {sink : Sink} (hdir : n.isDirectory = false)
            (hfile : ∀ serial mode data, n ≠ .file serial mode data)
            (hsink : ∀ serial, sink ≠ .file serial) : t.Opened p sink t :=
          .same hn hdir hfile hsink
        split at h
        · cases h
          exact .emptied hn
        · cases h
          exact hsame rfl (fun _ _ _ hfile => nomatch hfile) fun _ hsink => nomatch hsink
        · cases h
        · cases h
          exact hsame rfl (fun _ _ _ hfile => nomatch hfile) fun _ hsink => nomatch hsink
        · cases h

theorem Opened.sameShape {t t' : Tree} {p : Place} {sink : Sink} (h : t.Opened p sink t') :
    t.SameShape t' := by
  cases h with
  | made hnone _ => exact sameShape_newFile hnone fileMode
  | emptied _ => exact sameShape_modifyFile t _ _
  | same _ _ _ _ => exact .refl t

theorem Opened.nextSerial_le {t t' : Tree} {p : Place} {sink : Sink} (h : t.Opened p sink t') :
    t.nextSerial ≤ t'.nextSerial := by
  cases h with
  | made _ _ => exact Nat.le_succ _
  | emptied _ => exact Nat.le_refl _
  | same _ _ _ _ => exact Nat.le_refl _

/-- Opening leaves all else as it is. -/
theorem Opened.get?_of_not_aliases {t t' : Tree} {p q : Place} {sink : Sink}
    (h : t.Opened p sink t') (hq : ¬ t.Aliases p q) : t'.get? q = t.get? q := by
  have hne : q ≠ p := fun e => hq (.inl e)
  cases h with
  | made _ _ => exact get?_newFile_of_ne t hne fileMode
  | emptied hfile =>
    exact get?_modifyFile_of_ne (fun hs => hq (.inr ⟨_, by rw [serialAt?, hfile]; rfl, hs⟩)) _
  | same _ _ _ _ => rfl

/-- Writing into an open file. -/
theorem writeAt_eq_ok {t t' : Tree} {sink : Sink} {offset : Nat} {new : Bytes}
    (h : t.writeAt sink offset new = .ok t') :
    (∃ serial, sink = .file serial ∧
      t' = t.modifyFile serial fun data => overwrite data offset new) ∨
    (∀ serial, sink ≠ .file serial) ∧ t' = t := by
  cases sink with
  | file serial =>
    cases h
    exact .inl ⟨serial, rfl, rfl⟩
  | device kind =>
    refine .inr ⟨fun _ hfile => (nomatch hfile), ?_⟩
    cases kind with
    | full =>
      simp only [writeAt] at h
      split at h
      · cases h
        rfl
      · cases h
    | _ =>
      cases h
      rfl
  | pipe serial =>
    cases h
    exact .inr ⟨fun _ hfile => (nomatch hfile), rfl⟩

theorem writeAt_sameShape {t t' : Tree} {sink : Sink} {offset : Nat} {new : Bytes}
    (h : t.writeAt sink offset new = .ok t') : t.SameShape t' := by
  obtain ⟨serial, -, rfl⟩ | ⟨-, hsame⟩ := writeAt_eq_ok h
  · exact sameShape_modifyFile t _ _
  · rw [hsame]
    exact .refl t

/-- **Writing** leaves all names but those of the open file as they are. -/
theorem get?_writeAt {t t' : Tree} {sink : Sink} {offset : Nat} {new : Bytes}
    (h : t.writeAt sink offset new = .ok t') {q : Place}
    (hq : ∀ serial, sink = .file serial → t.serialAt? q ≠ some serial) :
    t'.get? q = t.get? q := by
  obtain ⟨serial, rfl, rfl⟩ | ⟨-, rfl⟩ := writeAt_eq_ok h
  · exact get?_modifyFile_of_ne (hq serial rfl) _
  · rfl

theorem serialAt?_writeAt {t t' : Tree} {sink : Sink} {offset : Nat} {new : Bytes}
    (h : t.writeAt sink offset new = .ok t') (q : Place) : t'.serialAt? q = t.serialAt? q := by
  obtain ⟨serial, -, rfl⟩ | ⟨-, hsame⟩ := writeAt_eq_ok h
  · exact serialAt?_modifyFile t _ _ q
  · rw [hsame]

theorem nextSerial_writeAt {t t' : Tree} {sink : Sink} {offset : Nat} {new : Bytes}
    (h : t.writeAt sink offset new = .ok t') : t'.nextSerial = t.nextSerial := by
  obtain ⟨serial, -, rfl⟩ | ⟨-, hsame⟩ := writeAt_eq_ok h
  · rfl
  · rw [hsame]

/-! ## Directories -/

theorem withoutSlashes_of_isOpen {path : String} (h : Path.IsOpen path) :
    withoutSlashes path = path := by
  obtain ⟨cs, c, hcs⟩ : ∃ cs c, path.toList = cs ++ [c] := by
    obtain h' | ⟨cs, c, hcs⟩ := List.eq_nil_or_concat path.toList
    · exact absurd (by simpa using h') h.not_empty
    · exact ⟨cs, c, by simpa using hcs⟩
  have hc : c ≠ '/' := by
    rintro rfl
    exact h.last (by rw [hcs, List.getLast?_concat])
  have hdrop : path.toList.reverse.dropWhile (· == '/') = c :: cs.reverse := by
    rw [hcs, List.reverse_append, List.reverse_singleton, List.singleton_append]
    exact List.dropWhile_cons_of_neg (by simpa using hc)
  rw [withoutSlashes, hdrop]
  dsimp only
  rw [List.reverse_cons, List.reverse_reverse, ← hcs, String.ofList_toList]

theorem makeDirectory_eq_ok {t t' : Tree} {cwd : Place} {path : String} {mode : Nat}
    (h : t.makeDirectory cwd path mode = .ok t') :
    ∃ p, t.resolve cwd (withoutSlashes path) false = .ok p ∧ t.get? p = none ∧
      t.requireAbove p = .ok () ∧ t' = t.put p (.directory mode) := by
  obtain ⟨p, hp, h⟩ := bind_eq_ok h
  refine ⟨p, hp, ?_⟩
  split at h
  · cases h
  · next hnone =>
    obtain ⟨_, habove, h⟩ := bind_eq_ok h
    cases h
    exact ⟨hnone, habove, rfl⟩

/-- The fault of a text that cannot be a path. -/
def pathFault? (path : String) : Option Fault :=
  if path.toList.contains '\x00' then some .nulInPath
  else if maxPath ≤ path.utf8ByteSize then some .nameTooLong
  else none

theorem pathFault?_ne_notFound (path : String) : pathFault? path ≠ some .notFound := by
  unfold pathFault?
  split
  · decide
  · split
    · decide
    · exact Option.some_ne_none _ |>.symm

section
variable {t : Tree} {cwd dir : Place} {base name : String} {mode : Nat}

theorem require_eq_error {n : Node} {p : Permission} {fault : Fault}
    (h : require n p = .error fault) : fault = .permissionDenied := by
  unfold require at h
  split at h
  · cases h
  · cases h
    rfl

theorem requireAbove_eq_error {p : Place} {n : Node} {fault : Fault}
    (hn : t.get? p.dropLast = some n) (h : t.requireAbove p = .error fault) :
    fault = .permissionDenied := by
  simp only [requireAbove, hn] at h
  rcases hwrite : require n .write with fault' | _
  · rw [hwrite] at h
    cases h
    exact require_eq_error hwrite
  · rw [hwrite] at h
    exact require_eq_error h

section
variable (hname : Path.IsPlain name) (hup : name ≠ "..") (hshort : name.utf8ByteSize ≤ maxName)
  (hbase : t.resolve cwd base false = .ok dir) (hdir : t.get? dir = some (.directory mode))
  (hsearch : mode &&& Permission.execute.bit ≠ 0)
include hname hup hshort hbase hdir hsearch

/-- **The path of the names** leads where the path does, unless it cannot be a path. -/
theorem resolve_normal_join {follow : Bool}
    (hlink : follow = false ∨ ∀ target, t.get? (dir ++ [name]) ≠ some (.link target)) :
    t.resolve cwd (Path.normal (Path.join base name)) follow =
      (pathFault? (Path.normal (Path.join base name))).elim (.ok (dir ++ [name])) .error := by
  have henter : t.Enters dir name :=
    ⟨⟨mode, hdir, hsearch⟩, hname.not_empty, hname.not_dot, hup, hshort⟩
  have hlast (links : Nat) : t.Walks follow links dir [name] (dir ++ [name]) := by
    by_cases hnot : ∀ target, t.get? (dir ++ [name]) ≠ some (.link target)
    · exact .down henter hnot .here
    · obtain ⟨target, hnode⟩ := Classical.not_forall.1 hnot
      exact .stop henter (Classical.not_not.1 hnode) (hlink.resolve_right hnot)
  obtain ⟨left, hleft⟩ := (resolve_eq_ok_iff.1 hbase).2.append (by simp [hdir])
  have hwalk : t.Walks follow maxLinks (if Path.isAbsolute base then [] else cwd)
      (Path.names base ++ [name]) (dir ++ [name]) := by
    refine Walks.thin (thinner_filter (split '/' base)) ?_
    rw [← walk_eq_ok_iff, hleft follow [name] (by simp), walk_eq_ok_iff]
    exact hlast left
  have hnormal : t.Walks follow maxLinks
      (if Path.isAbsolute (Path.normal (Path.join base name)) then [] else cwd)
      (split '/' (Path.normal (Path.join base name))) (dir ++ [name]) := by
    rw [Path.isAbsolute_normal_join hname, Path.split_normal_join hname]
    by_cases habs : Path.isAbsolute base
    · rw [if_pos habs] at hwalk
      rw [if_pos habs, if_pos habs]
      exact .stay (get?_root t) (.inl rfl) hwalk
    · rw [if_neg habs] at hwalk
      rw [if_neg habs, if_neg habs]
      exact hwalk
  have hopen : Path.IsOpen (Path.normal (Path.join base name)) := by
    obtain ⟨front, hfront⟩ := Path.normal_join hname base
    rw [hfront]
    exact Path.isOpen_append hname front
  generalize Path.normal (Path.join base name) = path at hnormal hopen
  have hempty : ¬ path.isEmpty = true := by simpa using hopen.not_empty
  by_cases hnul : path.toList.contains '\x00' = true
  · rw [resolve, pathFault?, if_pos hnul, if_pos hnul]
    rfl
  by_cases hlong : maxPath ≤ path.utf8ByteSize
  · rw [resolve, pathFault?, if_neg hnul, if_neg hnul, if_neg hempty, if_pos hlong, if_pos hlong]
    rfl
  · rw [pathFault?, if_neg hnul, if_neg hlong]
    refine resolve_eq_ok_iff.2 ⟨⟨by simpa using hnul, ?_, Nat.lt_of_not_le hlong⟩, hnormal⟩
    simpa using hopen.not_empty

/-- **One directory** under the path of the names. -/
theorem makeDirectory_normal_join :
    t.makeDirectory cwd (Path.normal (Path.join base name)) =
      match pathFault? (Path.normal (Path.join base name)), t.get? (dir ++ [name]) with
      | some fault, _ => .error fault
      | none, some _ => .error .alreadyExists
      | none, none => match t.requireAbove (dir ++ [name]) with
        | .error fault => .error fault
        | .ok () => .ok (t.put (dir ++ [name]) (.directory directoryMode)) := by
  have hopen : Path.IsOpen (Path.normal (Path.join base name)) := by
    obtain ⟨front, hfront⟩ := Path.normal_join hname base
    rw [hfront]
    exact Path.isOpen_append hname front
  rw [makeDirectory, withoutSlashes_of_isOpen hopen,
    resolve_normal_join hname hup hshort hbase hdir hsearch (.inl rfl)]
  rcases pathFault? (Path.normal (Path.join base name)) with _ | fault
  · rcases hn : t.get? (dir ++ [name]) with _ | n
    · rcases habove : t.requireAbove (dir ++ [name]) with fault | _
      · simp [bind, Except.bind, hn, habove]
      · simp [bind, Except.bind, hn, habove, Pure.pure, Except.pure]
    · simp [bind, Except.bind, hn, throw, throwThe, MonadExceptOf.throw]
  · rfl

/-- The directory above is there, so it is not asked for. -/
theorem makeDirectory_normal_join_ne_notFound :
    t.makeDirectory cwd (Path.normal (Path.join base name)) ≠ .error .notFound := by
  rw [makeDirectory_normal_join hname hup hshort hbase hdir hsearch]
  rcases hfault : pathFault? (Path.normal (Path.join base name)) with _ | fault
  · rcases t.get? (dir ++ [name]) with _ | n
    · rcases habove : t.requireAbove (dir ++ [name]) with fault | _
      · have hdenied := requireAbove_eq_error (by rw [List.dropLast_concat]; exact hdir) habove
        simp [hdenied]
      · simp
    · simp
  · simp only [ne_eq, Except.error.injEq]
    rintro rfl
    exact pathFault?_ne_notFound _ hfault

/-- Making a directory with all over it is making that one. -/
theorem makeDirectories_join_over :
    t.makeDirectories cwd (Path.join base name) =
      if (Path.join base name).toList.contains '\x00' then (.error .nulInPath, t)
      else match t.makeDirectory cwd (Path.normal (Path.join base name)) with
        | .ok t' => (.ok (), t')
        | .error fault =>
          (if t.isDirectory cwd (Path.normal (Path.join base name)) then .ok () else .error fault,
            t) := by
  unfold makeDirectories
  split
  · rfl
  have hnames := Path.names_join hname base
  have hpath : (if Path.isAbsolute (Path.join base name) then "/" else "") ++
      "/".intercalate (name :: (Path.names base).reverse).reverse =
      Path.normal (Path.join base name) := by
    rw [Path.normal, hnames, List.reverse_cons, List.reverse_reverse]
  rw [hnames, List.reverse_append, List.reverse_singleton, List.singleton_append,
    makeDirectoriesUp]
  rw [hpath, makeDirectoryOver]
  have hnot := makeDirectory_normal_join_ne_notFound hname hup hshort hbase hdir hsearch
  generalize Path.normal (Path.join base name) = path at hnot ⊢
  rcases hmake : t.makeDirectory cwd path with fault | t'
  · cases fault with
    | notFound => exact absurd hmake hnot
    | _ => simp only
  · simp only

/-- **Directories** below a directory: making one with all over it makes that one, or nothing. -/
theorem makeDirectories_join {t' : Tree} {r : Except Fault Unit}
    (h : t.makeDirectories cwd (Path.join base name) = (r, t')) :
    t' = t ∨ t.get? (dir ++ [name]) = none ∧ t.requireAbove (dir ++ [name]) = .ok () ∧
      t' = t.put (dir ++ [name]) (.directory directoryMode) := by
  rw [makeDirectories_join_over hname hup hshort hbase hdir hsearch,
    makeDirectory_normal_join hname hup hshort hbase hdir hsearch] at h
  split at h
  · cases h
    exact .inl rfl
  generalize t.isDirectory cwd (Path.normal (Path.join base name)) = there at h
  rcases hfault : pathFault? (Path.normal (Path.join base name)) with _ | fault
  · rcases hn : t.get? (dir ++ [name]) with _ | n
    · rcases habove : t.requireAbove (dir ++ [name]) with fault | _
      · simp only [hfault, hn, habove, Prod.mk.injEq] at h
        exact .inl h.2.symm
      · simp only [hfault, hn, habove, Prod.mk.injEq] at h
        exact .inr ⟨rfl, rfl, h.2.symm⟩
    · simp only [hfault, hn, Prod.mk.injEq] at h
      exact .inl h.2.symm
  · simp only [hfault, Prod.mk.injEq] at h
    exact .inl h.2.symm

/-- **What becomes of it**, if the name is that of no link. -/
theorem makeDirectories_join_eq
    (hlink : ∀ target, t.get? (dir ++ [name]) ≠ some (.link target)) :
    t.makeDirectories cwd (Path.join base name) =
      if (Path.join base name).toList.contains '\x00' then (.error .nulInPath, t)
      else match pathFault? (Path.normal (Path.join base name)), t.get? (dir ++ [name]) with
        | some fault, _ => (.error fault, t)
        | none, some n => (if n.isDirectory then .ok () else .error .alreadyExists, t)
        | none, none => match t.requireAbove (dir ++ [name]) with
          | .error fault => (.error fault, t)
          | .ok () => (.ok (), t.put (dir ++ [name]) (.directory directoryMode)) := by
  rw [makeDirectories_join_over hname hup hshort hbase hdir hsearch,
    makeDirectory_normal_join hname hup hshort hbase hdir hsearch, isDirectory, stat,
    resolve_normal_join hname hup hshort hbase hdir hsearch (.inr hlink)]
  split
  · rfl
  generalize Path.normal (Path.join base name) = path
  rcases pathFault? path with _ | fault
  · rcases hn : t.get? (dir ++ [name]) with _ | n
    · rcases habove : t.requireAbove (dir ++ [name]) with fault | _
      · simp [bind, Except.bind, hn, throw, throwThe, MonadExceptOf.throw]
      · simp
    · simp [bind, Except.bind, hn, Pure.pure, Except.pure]
  · simp [bind, Except.bind]

end

end

end Tree

end LangBundle.Files
