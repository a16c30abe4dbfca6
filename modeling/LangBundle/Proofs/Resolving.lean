import LangBundle.Proofs.PathNames
import LangBundle.Proofs.Places

/-!
# Where paths lead

The walks along a path as a relation, and what of the tree a walk depends on.

* `walk_eq_ok_iff`: **the relation** `Walks` holds of exactly the walks that succeed.
* `Walks.of_sameShape`: directories and links decide where a path leads.
* `Walks.of_agree`: a path that leads to a place where nothing is still leads there when only that
  place and those below it have changed.
* `Passes.walk_append`: names behind a path are walked from the place that it leads to.
* `Walks.thin`: empty names and dots that are left out change nothing.
-/

namespace LangBundle.Files

open Text

/-- What a link's target is walked from. -/
theorem IsReal.origin {dir : Place} (h : IsReal dir) (target : String) :
    IsReal (if Path.isAbsolute target then [] else dir) := by
  split
  · exact isReal_nil
  · exact h

namespace Tree

/-- A name is looked up in a directory that may be searched. -/
structure Enters (t : Tree) (dir : Place) (name : String) : Prop where
  directory : ∃ mode, t.get? dir = some (.directory mode) ∧ mode &&& Permission.execute.bit ≠ 0
  not_empty : name ≠ ""
  not_dot : name ≠ "."
  not_up : name ≠ ".."
  short : name.utf8ByteSize ≤ maxName

/-- The walks along names that succeed. -/
inductive Walks (t : Tree) (follow : Bool) : Nat → Place → List String → Place → Prop
  | here {links : Nat} {dir : Place} : Walks t follow links dir [] dir
  | stay {links mode : Nat} {dir p : Place} {name : String} {rest : List String}
      (hdir : t.get? dir = some (.directory mode))
      (hname : name = "" ∨ name = "." ∧ mode &&& Permission.execute.bit ≠ 0)
      (hrest : Walks t follow links dir rest p) : Walks t follow links dir (name :: rest) p
  | up {links mode : Nat} {dir p : Place} {rest : List String}
      (hdir : t.get? dir = some (.directory mode)) (hsearch : mode &&& Permission.execute.bit ≠ 0)
      (hrest : Walks t follow links dir.dropLast rest p) :
      Walks t follow links dir (".." :: rest) p
  | stop {links : Nat} {dir : Place} {name target : String} (henter : t.Enters dir name)
      (hlink : t.get? (dir ++ [name]) = some (.link target)) (hfollow : follow = false) :
      Walks t follow links dir [name] (dir ++ [name])
  | jump {links : Nat} {dir p : Place} {name target : String} {rest : List String}
      (henter : t.Enters dir name) (hlink : t.get? (dir ++ [name]) = some (.link target))
      (hmore : rest ≠ [] ∨ follow = true) (htarget : target ≠ "")
      (hrest : Walks t follow links (if Path.isAbsolute target then [] else dir)
        (split '/' target ++ rest) p) :
      Walks t follow (links + 1) dir (name :: rest) p
  | down {links : Nat} {dir p : Place} {name : String} {rest : List String}
      (henter : t.Enters dir name) (hlink : ∀ target, t.get? (dir ++ [name]) ≠ some (.link target))
      (hrest : Walks t follow links (dir ++ [name]) rest p) :
      Walks t follow links dir (name :: rest) p

section
variable {t : Tree} {follow : Bool} {links : Nat} {dir p : Place} {todo : List String}

theorem walks_of_walkWith {onLink : Place → String → List String → Except Fault Place}
    (hjump : ∀ dir target rest p, onLink dir target rest = .ok p → ∃ left, links = left + 1 ∧
      target ≠ "" ∧ t.Walks follow left (if Path.isAbsolute target then [] else dir)
        (split '/' target ++ rest) p)
    (h : t.walkWith follow onLink dir todo = .ok p) : t.Walks follow links dir todo p := by
  fun_induction t.walkWith follow onLink dir todo with
  | case1 dir =>
    cases h
    exact .here
  | case2 => cases h
  | case3 dir rest mode hdir ih => exact .stay hdir (.inl rfl) (ih h)
  | case4 => cases h
  | case5 dir rest mode hdir hsearch hname ih => exact .stay hdir (.inr ⟨rfl, hsearch⟩) (ih h)
  | case6 dir rest mode hdir hsearch hname hdot ih => exact .up hdir hsearch (ih h)
  | case7 => cases h
  | case8 dir name rest mode hdir hname hsearch hdot hup hlong target hlink hstop =>
    cases h
    obtain ⟨hrest, hfollow⟩ : rest = [] ∧ follow = false := by simpa using hstop
    subst hrest
    exact .stop ⟨⟨mode, hdir, hsearch⟩, hname, hdot, hup, Nat.le_of_not_lt hlong⟩ hlink hfollow
  | case9 dir name rest mode hdir hname hsearch hdot hup hlong target hlink hmore =>
    obtain ⟨left, rfl, htarget, hwalk⟩ := hjump dir target rest p h
    refine .jump ⟨⟨mode, hdir, hsearch⟩, hname, hdot, hup, Nat.le_of_not_lt hlong⟩ hlink ?_ htarget
      hwalk
    by_cases hrest : rest = []
    · exact .inr (by simpa [hrest] using hmore)
    · exact .inl hrest
  | case10 dir name rest mode hdir hname hsearch hdot hup hlong hlink ih =>
    exact .down ⟨⟨mode, hdir, hsearch⟩, hname, hdot, hup, Nat.le_of_not_lt hlong⟩
      (fun target h => hlink target h) (ih h)
  | case11 => cases h

theorem walks_of_walk (h : t.walk follow links dir todo = .ok p) :
    t.Walks follow links dir todo p := by
  induction links generalizing dir todo p with
  | zero => exact walks_of_walkWith (fun _ _ _ _ h => by cases h) h
  | succ links ih =>
    refine walks_of_walkWith (fun dir target rest p h => ⟨links, rfl, ?_⟩) h
    split at h
    · cases h
    · next hempty => exact ⟨by simpa using hempty, ih h⟩

end

section
variable {t : Tree} {dir : Place} (follow : Bool) (links : Nat)

theorem walk_nil (dir : Place) : t.walk follow links dir [] = .ok dir := by
  cases links <;> rfl

/-- What is done with a name. -/
theorem walk_cons (name : String) (rest : List String) :
    t.walk follow links dir (name :: rest) = match t.get? dir with
      | none => .error .notFound
      | some (.directory mode) =>
        if name = "" then t.walk follow links dir rest
        else if mode &&& Permission.execute.bit = 0 then .error .permissionDenied
        else if name = "." then t.walk follow links dir rest
        else if name = ".." then t.walk follow links dir.dropLast rest
        else if maxName < name.utf8ByteSize then .error .nameTooLong
        else match t.get? (dir ++ [name]) with
          | some (.link target) =>
            if rest.isEmpty && !follow then .ok (dir ++ [name])
            else match links with
              | 0 => .error .tooManyLinks
              | links + 1 =>
                if target.isEmpty then .error .notFound
                else t.walk follow links (if Path.isAbsolute target then [] else dir)
                  (split '/' target ++ rest)
          | _ => t.walk follow links (dir ++ [name]) rest
      | some _ => .error .notDirectory := by
  cases links <;> rfl

theorem walk_stay {mode : Nat} {name : String} (hdir : t.get? dir = some (.directory mode))
    (hname : name = "" ∨ name = "." ∧ mode &&& Permission.execute.bit ≠ 0) (rest : List String) :
    t.walk follow links dir (name :: rest) = t.walk follow links dir rest := by
  rw [walk_cons, hdir]
  dsimp only
  obtain rfl | ⟨rfl, hsearch⟩ := hname
  · rw [if_pos rfl]
  · rw [if_neg (by decide), if_neg hsearch, if_pos rfl]

theorem walk_up {mode : Nat} (hdir : t.get? dir = some (.directory mode))
    (hsearch : mode &&& Permission.execute.bit ≠ 0) (rest : List String) :
    t.walk follow links dir (".." :: rest) = t.walk follow links dir.dropLast rest := by
  rw [walk_cons, hdir]
  dsimp only
  rw [if_neg (by decide), if_neg hsearch, if_neg (by decide), if_pos rfl]

/-- The step of a walk into a name. -/
theorem walk_enter {name : String} (h : t.Enters dir name) (rest : List String) :
    t.walk follow links dir (name :: rest) = match t.get? (dir ++ [name]) with
      | some (.link target) =>
        if rest.isEmpty && !follow then .ok (dir ++ [name])
        else match links with
          | 0 => .error .tooManyLinks
          | links + 1 =>
            if target.isEmpty then .error .notFound
            else t.walk follow links (if Path.isAbsolute target then [] else dir)
              (split '/' target ++ rest)
      | _ => t.walk follow links (dir ++ [name]) rest := by
  obtain ⟨mode, hdir, hsearch⟩ := h.directory
  rw [walk_cons, hdir]
  dsimp only
  rw [if_neg h.not_empty, if_neg hsearch, if_neg h.not_dot, if_neg h.not_up,
    if_neg (Nat.not_lt_of_le h.short)]

theorem walk_jump {name target : String} {rest : List String} (h : t.Enters dir name)
    (hlink : t.get? (dir ++ [name]) = some (.link target)) (hmore : rest ≠ [] ∨ follow = true)
    (htarget : target ≠ "") :
    t.walk follow (links + 1) dir (name :: rest) =
      t.walk follow links (if Path.isAbsolute target then [] else dir)
        (split '/' target ++ rest) := by
  have hmore : ¬ (rest.isEmpty && !follow) = true := by
    obtain h | h := hmore <;> simp [h]
  rw [walk_enter follow (links + 1) h, hlink]
  dsimp only
  rw [if_neg hmore, if_neg (by simpa using htarget)]

theorem walk_down {name : String} (h : t.Enters dir name)
    (hlink : ∀ target, t.get? (dir ++ [name]) ≠ some (.link target)) (rest : List String) :
    t.walk follow links dir (name :: rest) = t.walk follow links (dir ++ [name]) rest := by
  rw [walk_enter follow links h]
  split
  · next target h => exact absurd h (hlink target)
  · rfl

end

theorem walk_of_walks {t : Tree} {follow : Bool} {links : Nat} {dir p : Place}
    {todo : List String} (h : t.Walks follow links dir todo p) :
    t.walk follow links dir todo = .ok p := by
  induction h with
  | here => exact walk_nil _ _ _
  | stay hdir hname _ ih => rw [walk_stay _ _ hdir hname, ih]
  | up hdir hsearch _ ih => rw [walk_up _ _ hdir hsearch, ih]
  | stop henter hlink hfollow =>
    rw [walk_enter _ _ henter, hlink, hfollow]
    rfl
  | jump henter hlink hmore htarget _ ih => rw [walk_jump _ _ henter hlink hmore htarget, ih]
  | down henter hlink _ ih => rw [walk_down _ _ henter hlink, ih]

/-- **The relation** is what the walks come to. -/
theorem walk_eq_ok_iff {t : Tree} {follow : Bool} {links : Nat} {dir p : Place}
    {todo : List String} :
    t.walk follow links dir todo = .ok p ↔ t.Walks follow links dir todo p :=
  ⟨walks_of_walk, walk_of_walks⟩

/-! ## What a walk depends on -/

theorem SameShape.directory {t t' : Tree} (h : t.SameShape t') {p : Place} {mode : Nat}
    (hp : t.get? p = some (.directory mode)) : t'.get? p = some (.directory mode) := by
  have hshape := h p
  rw [hp] at hshape
  rcases hn : t'.get? p with _ | n
  · rw [hn] at hshape
    cases hshape
  · rw [hn] at hshape
    cases n <;> simp_all [Node.shape?]

theorem SameShape.link {t t' : Tree} (h : t.SameShape t') {p : Place} {target : String}
    (hp : t.get? p = some (.link target)) : t'.get? p = some (.link target) := by
  have hshape := h p
  rw [hp] at hshape
  rcases hn : t'.get? p with _ | n
  · rw [hn] at hshape
    cases hshape
  · rw [hn] at hshape
    cases n <;> simp_all [Node.shape?]

theorem Enters.of_sameShape {t t' : Tree} (h : t.SameShape t') {dir : Place} {name : String}
    (henter : t.Enters dir name) : t'.Enters dir name := by
  obtain ⟨mode, hdir, hsearch⟩ := henter.directory
  exact { henter with directory := ⟨mode, h.directory hdir, hsearch⟩ }

/-- Directories and links decide where a path leads. -/
theorem Walks.of_sameShape {t t' : Tree} (h : t.SameShape t') {follow : Bool} {links : Nat}
    {dir p : Place} {todo : List String} (hwalk : t.Walks follow links dir todo p) :
    t'.Walks follow links dir todo p := by
  induction hwalk with
  | here => exact .here
  | stay hdir hname hrest ih => exact .stay (h.directory hdir) hname ih
  | up hdir hsearch hrest ih => exact .up (h.directory hdir) hsearch ih
  | stop henter hlink hfollow => exact .stop (henter.of_sameShape h) (h.link hlink) hfollow
  | jump henter hlink hmore htarget hrest ih =>
    exact .jump (henter.of_sameShape h) (h.link hlink) hmore htarget ih
  | down henter hlink hrest ih =>
    exact .down (henter.of_sameShape h) (fun target ht => hlink target (h.symm.link ht)) ih

/-- A path leads to a place if it can be a path and the walk along its names does. -/
theorem resolve_eq_ok_iff {t : Tree} {cwd p : Place} {path : String} {follow : Bool} :
    t.resolve cwd path follow = .ok p ↔
      (path.toList.contains '\x00' = false ∧ path.isEmpty = false ∧
        path.utf8ByteSize < maxPath) ∧
      t.Walks follow maxLinks (if Path.isAbsolute path then [] else cwd) (split '/' path) p := by
  rw [← walk_eq_ok_iff, resolve]
  by_cases hnul : '\x00' ∈ path.toList
  · simp [hnul]
  by_cases hempty : path = ""
  · simp [hempty]
  by_cases hlong : maxPath ≤ path.utf8ByteSize
  · simp [hempty, hnul, hlong, Nat.not_lt_of_le hlong]
  · simp [hempty, hnul, hlong, Nat.lt_of_not_le hlong]

theorem resolve_of_sameShape {t t' : Tree} (h : t.SameShape t') {cwd p : Place} {path : String}
    {follow : Bool} (hp : t.resolve cwd path follow = .ok p) :
    t'.resolve cwd path follow = .ok p := by
  rw [resolve_eq_ok_iff] at hp ⊢
  exact ⟨hp.1, hp.2.of_sameShape h⟩

/-- The pieces of a path have no slash in them. -/
theorem isReal_split (path : String) : IsReal (split '/' path) := by
  intro name hname
  obtain ⟨piece, hpiece, rfl⟩ := List.mem_map.1 hname
  rw [String.toList_ofList]
  exact fun h => by simpa using not_divides_of_mem_piecesAt hpiece h

theorem Walks.isReal {t : Tree} {follow : Bool} {links : Nat} {dir p : Place}
    {todo : List String} (hwalk : t.Walks follow links dir todo p) (hdir : IsReal dir)
    (htodo : IsReal todo) : IsReal p := by
  induction hwalk with
  | here => exact hdir
  | stay _ _ _ ih => exact ih hdir htodo.tail
  | up _ _ _ ih => exact ih hdir.dropLast htodo.tail
  | stop _ _ _ => exact hdir.snoc htodo.head
  | jump _ _ _ _ _ ih => exact ih (hdir.origin _) ((isReal_split _).append htodo.tail)
  | down _ _ _ ih => exact ih (hdir.snoc htodo.head) htodo.tail

/-- A walk that is where nothing is has come to its end. -/
theorem Walks.of_none {t : Tree} {follow : Bool} {links : Nat} {dir p : Place}
    {todo : List String} (hnone : t.get? dir = none) (hwalk : t.Walks follow links dir todo p) :
    todo = [] ∧ p = dir := by
  have hnot {name : String} (henter : t.Enters dir name) : False := by
    obtain ⟨mode, hmode, -⟩ := henter.directory
    rw [hnone] at hmode
    cases hmode
  cases hwalk with
  | here => exact ⟨rfl, rfl⟩
  | stay hdir => simp [hnone] at hdir
  | up hdir => simp [hnone] at hdir
  | stop henter => exact (hnot henter).elim
  | jump henter => exact (hnot henter).elim
  | down henter => exact (hnot henter).elim

/-- A path that leads to a place where nothing is still leads there when directories and links have
changed at that place and below it only. -/
theorem Walks.of_agree {base t : Tree} {ws : Place}
    (hempty : ∀ p, IsReal p → ws <+: p → base.get? p = none)
    (hoff : ∀ p, IsReal p → ¬ ws <+: p →
      (t.get? p).bind Node.shape? = (base.get? p).bind Node.shape?) {links : Nat} {dir : Place}
    {todo : List String} (hdir : IsReal dir) (htodo : IsReal todo)
    (hwalk : base.Walks false links dir todo ws) : t.Walks false links dir todo ws := by
  have hsame {p : Place} {n : Node} (hp : IsReal p) (hn : base.get? p = some n)
      (hshape : n.shape? = some n) : t.get? p = some n := by
    have hagree := hoff p hp fun hws => by simp [hempty p hp hws] at hn
    rw [hn, Option.bind_some, hshape] at hagree
    obtain ⟨m, hm, hshape⟩ := Option.bind_eq_some_iff.1 hagree
    rw [hm, Node.eq_of_shape? hshape]
  have henters {dir : Place} {name : String} (hreal : IsReal dir) (h : base.Enters dir name) :
      t.Enters dir name := by
    obtain ⟨mode, hmode, hsearch⟩ := h.directory
    exact { h with directory := ⟨mode, hsame hreal hmode rfl, hsearch⟩ }
  generalize hp : ws = p at hwalk
  -- `p` stands for the end of the walk, which all its parts share
  induction hwalk with
  | here => exact .here
  | stay hmode hname _ ih => exact .stay (hsame hdir hmode rfl) hname (ih hdir htodo.tail hp)
  | up hmode hsearch _ ih =>
    exact .up (hsame hdir hmode rfl) hsearch (ih hdir.dropLast htodo.tail hp)
  | stop henter hlink hfollow =>
    exact .stop (henters hdir henter) (hsame (hdir.snoc htodo.head) hlink rfl) hfollow
  | jump henter hlink hmore htarget _ ih =>
    exact .jump (henters hdir henter) (hsame (hdir.snoc htodo.head) hlink rfl) hmore htarget
      (ih (hdir.origin _) ((isReal_split _).append htodo.tail) hp)
  | @down links dir p name rest henter hlink hrest ih =>
    subst hp
    have hreal := hdir.snoc htodo.head
    by_cases hbelow : ws <+: dir ++ [name]
    · -- nothing is there, so the walk has arrived
      obtain ⟨rfl, rfl⟩ := hrest.of_none (hempty _ hreal hbelow)
      have henter := henters hdir henter
      rcases hnode : t.get? (dir ++ [name]) with _ | n
      · exact .down henter (by simp [hnode]) .here
      · cases n with
        | link target => exact .stop henter hnode rfl
        | _ => exact .down henter (by simp [hnode]) .here
    · refine .down (henters hdir henter) (fun target ht => ?_) (ih hreal htodo.tail rfl)
      have hagree := hoff _ hreal hbelow
      rw [ht, Option.bind_some, Node.shape?] at hagree
      obtain ⟨m, hm, hshape⟩ := Option.bind_eq_some_iff.1 hagree.symm
      exact hlink target (by rw [hm, Node.eq_of_shape? hshape])

/-! ## Longer and shorter paths -/

/-- The walks along names that come through a place, which is no link, with `left` links left. -/
inductive Passes (t : Tree) (left : Nat) : Nat → Place → List String → Place → Prop
  | here {dir : Place} : Passes t left left dir [] dir
  | stay {links mode : Nat} {dir p : Place} {name : String} {rest : List String}
      (hdir : t.get? dir = some (.directory mode))
      (hname : name = "" ∨ name = "." ∧ mode &&& Permission.execute.bit ≠ 0)
      (hrest : Passes t left links dir rest p) : Passes t left links dir (name :: rest) p
  | up {links mode : Nat} {dir p : Place} {rest : List String}
      (hdir : t.get? dir = some (.directory mode)) (hsearch : mode &&& Permission.execute.bit ≠ 0)
      (hrest : Passes t left links dir.dropLast rest p) :
      Passes t left links dir (".." :: rest) p
  | jump {links : Nat} {dir p : Place} {name target : String} {rest : List String}
      (henter : t.Enters dir name) (hlink : t.get? (dir ++ [name]) = some (.link target))
      (htarget : target ≠ "")
      (hrest : Passes t left links (if Path.isAbsolute target then [] else dir)
        (split '/' target ++ rest) p) :
      Passes t left (links + 1) dir (name :: rest) p
  | down {links : Nat} {dir p : Place} {name : String} {rest : List String}
      (henter : t.Enters dir name) (hlink : ∀ target, t.get? (dir ++ [name]) ≠ some (.link target))
      (hrest : Passes t left links (dir ++ [name]) rest p) :
      Passes t left links dir (name :: rest) p

theorem Walks.passes {t : Tree} {links : Nat} {dir p : Place} {todo : List String}
    (hwalk : t.Walks false links dir todo p) (hp : ∀ target, t.get? p ≠ some (.link target)) :
    ∃ left ≤ links, t.Passes left links dir todo p := by
  induction hwalk with
  | @here links => exact ⟨links, Nat.le_refl _, .here⟩
  | stay hdir hname _ ih =>
    obtain ⟨left, hle, hrest⟩ := ih hp
    exact ⟨left, hle, .stay hdir hname hrest⟩
  | up hdir hsearch _ ih =>
    obtain ⟨left, hle, hrest⟩ := ih hp
    exact ⟨left, hle, .up hdir hsearch hrest⟩
  | stop _ hlink _ => exact absurd hlink (hp _)
  | jump henter hlink _ htarget _ ih =>
    obtain ⟨left, hle, hrest⟩ := ih hp
    exact ⟨left, Nat.le_succ_of_le hle, .jump henter hlink htarget hrest⟩
  | down henter hlink _ ih =>
    obtain ⟨left, hle, hrest⟩ := ih hp
    exact ⟨left, hle, .down henter hlink hrest⟩

/-- **Names behind a path** are walked from the place that it leads to. -/
theorem Passes.walk_append {t : Tree} {left links : Nat} {dir p : Place} {todo : List String}
    (h : t.Passes left links dir todo p) (follow : Bool) {more : List String} (hmore : more ≠ []) :
    t.walk follow links dir (todo ++ more) = t.walk follow left p more := by
  induction h with
  | here => rfl
  | stay hdir hname _ ih => rw [List.cons_append, walk_stay follow _ hdir hname, ih]
  | up hdir hsearch _ ih => rw [List.cons_append, walk_up follow _ hdir hsearch, ih]
  | jump henter hlink htarget _ ih =>
    rw [List.cons_append, walk_jump follow _ henter hlink (.inl (by simp [hmore])) htarget,
      ← List.append_assoc, ih]
  | down henter hlink _ ih => rw [List.cons_append, walk_down follow _ henter hlink, ih]

theorem Passes.of_sameShape {t t' : Tree} (h : t.SameShape t') {left links : Nat} {dir p : Place}
    {todo : List String} (hwalk : t.Passes left links dir todo p) :
    t'.Passes left links dir todo p := by
  induction hwalk with
  | here => exact .here
  | stay hdir hname _ ih => exact .stay (h.directory hdir) hname ih
  | up hdir hsearch _ ih => exact .up (h.directory hdir) hsearch ih
  | jump henter hlink htarget _ ih => exact .jump (henter.of_sameShape h) (h.link hlink) htarget ih
  | down henter hlink _ ih =>
    exact .down (henter.of_sameShape h) (fun target ht => hlink target (h.symm.link ht)) ih

theorem Walks.append {t : Tree} {links : Nat} {dir p : Place} {todo : List String}
    (hwalk : t.Walks false links dir todo p) (hp : ∀ target, t.get? p ≠ some (.link target)) :
    ∃ left, ∀ follow more, more ≠ [] →
      t.walk follow links dir (todo ++ more) = t.walk follow left p more := by
  obtain ⟨left, -, h⟩ := hwalk.passes hp
  exact ⟨left, fun follow _ hmore => h.walk_append follow hmore⟩

/-- Names with some empty ones and some dots left out. -/
inductive Thinner : List String → List String → Prop
  | nil : Thinner [] []
  | keep (name : String) {long short : List String} (h : Thinner long short) :
      Thinner (name :: long) (name :: short)
  | drop {name : String} (hname : name = "" ∨ name = ".") {long short : List String}
      (h : Thinner long short) : Thinner (name :: long) short

theorem Thinner.refl (names : List String) : Thinner names names := by
  induction names with
  | nil => exact .nil
  | cons name names ih => exact .keep name ih

theorem Thinner.append {long short long' short' : List String} (h : Thinner long short)
    (h' : Thinner long' short') : Thinner (long ++ long') (short ++ short') := by
  induction h with
  | nil => exact h'
  | keep name _ ih => exact .keep name ih
  | drop hname _ ih => exact .drop hname ih

theorem thinner_filter (names : List String) :
    Thinner names (names.filter fun n => n != "" && n != ".") := by
  induction names with
  | nil => exact .nil
  | cons name names ih =>
    by_cases hname : name = "" ∨ name = "."
    · have hnot : (name != "" && name != ".") = false := by
        obtain rfl | rfl := hname <;> decide
      rw [List.filter_cons_of_neg (by simp [hnot])]
      exact .drop hname ih
    · rw [not_or] at hname
      rw [List.filter_cons_of_pos (by simp [hname])]
      exact .keep name ih

/-- **Empty names and dots** in front of a last name make no difference. -/
theorem Walks.thin {t : Tree} {follow : Bool} {links : Nat} {dir p : Place}
    {long short : List String} {name : String} (h : Thinner long short)
    (hwalk : t.Walks follow links dir (long ++ [name]) p) :
    t.Walks follow links dir (short ++ [name]) p := by
  generalize htodo : long ++ [name] = todo at hwalk
  induction hwalk generalizing long short with
  | here => simp at htodo
  | stay hdir hname hrest ih =>
    cases h with
    | nil =>
      obtain ⟨rfl, rfl⟩ := List.cons.inj htodo
      exact .stay hdir hname hrest
    | keep n h =>
      obtain ⟨rfl, htail⟩ := List.cons.inj htodo
      exact .stay hdir hname (ih h htail)
    | drop _ h => exact ih h (List.cons.inj htodo).2
  | up hdir hsearch hrest ih =>
    cases h with
    | nil =>
      obtain ⟨rfl, rfl⟩ := List.cons.inj htodo
      exact .up hdir hsearch hrest
    | keep n h =>
      obtain ⟨rfl, htail⟩ := List.cons.inj htodo
      exact .up hdir hsearch (ih h htail)
    | drop hname h =>
      obtain ⟨rfl, -⟩ := List.cons.inj htodo
      exact absurd hname (by decide)
  | stop henter hlink hfollow =>
    cases h with
    | nil =>
      obtain ⟨rfl, -⟩ := List.cons.inj htodo
      exact .stop henter hlink hfollow
    | keep n h => simp at htodo
    | drop hname h => simp at htodo
  | @jump links dir p n target rest henter hlink hmore htarget hrest ih =>
    have hthin {long short : List String} (h : Thinner long short)
        (htail : long ++ [name] = rest) :
        t.Walks follow (links + 1) dir (n :: (short ++ [name])) p := by
      refine .jump henter hlink (.inl (by simp)) htarget ?_
      rw [← List.append_assoc]
      exact ih ((Thinner.refl _).append h) (by rw [List.append_assoc, htail])
    cases h with
    | nil =>
      obtain ⟨rfl, rfl⟩ := List.cons.inj htodo
      exact .jump henter hlink hmore htarget hrest
    | keep n h =>
      obtain ⟨rfl, htail⟩ := List.cons.inj htodo
      exact hthin h htail
    | drop hname h =>
      obtain ⟨rfl, -⟩ := List.cons.inj htodo
      obtain hname | hname := hname
      · exact absurd hname henter.not_empty
      · exact absurd hname henter.not_dot
  | down henter hlink hrest ih =>
    cases h with
    | nil =>
      obtain ⟨rfl, rfl⟩ := List.cons.inj htodo
      exact .down henter hlink hrest
    | keep n h =>
      obtain ⟨rfl, htail⟩ := List.cons.inj htodo
      exact .down henter hlink (ih h htail)
    | drop hname h =>
      obtain ⟨rfl, -⟩ := List.cons.inj htodo
      obtain hname | hname := hname
      · exact absurd hname henter.not_empty
      · exact absurd hname henter.not_dot

/-! ## Paths below a path -/

/-- Plain names that meet no link lead straight down. -/
theorem Walks.eq_append {t : Tree} {follow : Bool} {links : Nat} {dir p : Place}
    {names : List String} (hplain : ∀ name ∈ names, Path.IsPlain name ∧ name ≠ "..")
    (hlink : ∀ q target, dir <+: q → IsReal q → t.get? q ≠ some (.link target)) (hdir : IsReal dir)
    (hwalk : t.Walks follow links dir names p) : p = dir ++ names := by
  induction hwalk with
  | here => exact (List.append_nil _).symm
  | @stay _ _ _ _ name _ _ hname _ _ =>
    have h := (hplain name List.mem_cons_self).1
    obtain rfl | ⟨rfl, -⟩ := hname
    · exact absurd rfl h.not_empty
    · exact absurd rfl h.not_dot
  | up _ _ _ _ => exact absurd rfl (hplain ".." List.mem_cons_self).2
  | @stop _ dir name target _ hat _ =>
    have hreal := hdir.snoc (hplain name List.mem_cons_self).1.noSlash
    exact absurd hat (hlink _ target (List.prefix_append dir [name]) hreal)
  | @jump _ dir _ name target _ _ hat _ _ _ _ =>
    have hreal := hdir.snoc (hplain name List.mem_cons_self).1.noSlash
    exact absurd hat (hlink _ target (List.prefix_append dir [name]) hreal)
  | @down _ dir _ name rest _ _ _ ih =>
    have hreal := hdir.snoc (hplain name List.mem_cons_self).1.noSlash
    rw [ih (fun n hn => hplain n (List.mem_cons_of_mem name hn))
      (fun q target hq => hlink q target ((List.prefix_append dir [name]).trans hq)) hreal,
      List.append_assoc]
    rfl

/-- A path that goes on from another one, which leads to a directory. -/
theorem resolve_below {t : Tree} {cwd dir p : Place} {base path : String} {names : List String}
    {follow : Bool} (hbase : t.resolve cwd base false = .ok dir)
    (hdir : ∀ target, t.get? dir ≠ some (.link target)) (hnames : names ≠ [])
    (hsplit : split '/' path = split '/' base ++ names)
    (habs : Path.isAbsolute path = Path.isAbsolute base)
    (hp : t.resolve cwd path follow = .ok p) : ∃ left, t.Walks follow left dir names p := by
  obtain ⟨-, hwalk⟩ := resolve_eq_ok_iff.1 hp
  obtain ⟨left, hleft⟩ := (resolve_eq_ok_iff.1 hbase).2.append hdir
  rw [habs, hsplit, ← walk_eq_ok_iff, hleft follow names hnames, walk_eq_ok_iff] at hwalk
  exact ⟨left, hwalk⟩

end Tree

end LangBundle.Files
