import LangBundle.Proofs.TidyFiles

/-!
# What is to be seen below a directory

A walk that begins in a directory and is not led out of it by a link depends on what is to be seen
there, and on nothing else: not on where the directory is, nor on the serial numbers of its files.

* `Tree.view`: what is to be seen at and below a place.
* `walkWithin`: the walk through a view, which is nothing where it would leave it.
* `walk_of_within`: **a walk that stays** goes the way of the view.
* `resolve_within`: so does **a path** that goes on behind the one of the directory.
-/

namespace LangBundle.Files

open Text

instance : DecidablePred IsReal := fun p =>
  inferInstanceAs (Decidable (∀ name ∈ p, '/' ∉ name.toList))

/-- A node without its serial number. -/
def Node.bare : Node → Node
  | .file _ mode data => .file 0 mode data
  | .pipe _ mode => .pipe 0 mode
  | n => n

theorem Node.bare_eq_directory_iff {n : Node} {mode : Nat} :
    n.bare = .directory mode ↔ n = .directory mode := by
  cases n <;> simp [bare]

theorem Node.bare_eq_link_iff {n : Node} {target : String} :
    n.bare = .link target ↔ n = .link target := by
  cases n <;> simp [bare]

namespace Tree

/-- What is to be seen at the places below `ws`. -/
def view (t : Tree) (ws : Place) : Place → Option Node := fun r =>
  if IsReal r then (t.get? (ws ++ r)).map Node.bare else none

theorem view_of_isReal (t : Tree) (ws : Place) {r : Place} (hr : IsReal r) :
    t.view ws r = (t.get? (ws ++ r)).map Node.bare :=
  if_pos hr

theorem view_eq_iff {t t' : Tree} {ws ws' : Place} :
    t.view ws = t'.view ws' ↔ ∀ r, IsReal r →
      (t.get? (ws ++ r)).map Node.bare = (t'.get? (ws' ++ r)).map Node.bare := by
  constructor
  · intro h r hr
    rw [← view_of_isReal t ws hr, ← view_of_isReal t' ws' hr, h]
  · intro h
    funext r
    by_cases hr : IsReal r
    · rw [view_of_isReal t ws hr, view_of_isReal t' ws' hr, h r hr]
    · simp only [view, if_neg hr]

section
variable {t : Tree} {ws r : Place} (hr : IsReal r)
include hr

theorem get?_of_view_eq_none (h : t.view ws r = none) : t.get? (ws ++ r) = none := by
  rw [view_of_isReal t ws hr] at h
  exact Option.map_eq_none_iff.1 h

theorem get?_of_view_eq_directory {mode : Nat} (h : t.view ws r = some (.directory mode)) :
    t.get? (ws ++ r) = some (.directory mode) := by
  rw [view_of_isReal t ws hr] at h
  obtain ⟨n, hn, hbare⟩ := Option.map_eq_some_iff.1 h
  rw [hn, Node.bare_eq_directory_iff.1 hbare]

theorem get?_of_view_eq_link {target : String} (h : t.view ws r = some (.link target)) :
    t.get? (ws ++ r) = some (.link target) := by
  rw [view_of_isReal t ws hr] at h
  obtain ⟨n, hn, hbare⟩ := Option.map_eq_some_iff.1 h
  rw [hn, Node.bare_eq_link_iff.1 hbare]

end

end Tree

/-! ## Walks through a view -/

/-- The walk of `Tree.walkWith` through a part of a tree of which `v` is to be seen; nothing where it
leaves this part. -/
def walkWithinWith (v : Place → Option Node) (follow : Bool)
    (onLink : Place → String → List String → Option (Except Fault Place)) (dir : Place) :
    (todo : List String) → Option (Except Fault Place)
  | [] => some (.ok dir)
  | name :: rest =>
    match v dir with
    | none => some (.error .notFound)
    | some (.directory mode) =>
      if name = "" then walkWithinWith v follow onLink dir rest
      else if mode &&& Permission.execute.bit = 0 then some (.error .permissionDenied)
      else if name = "." then walkWithinWith v follow onLink dir rest
      else if name = ".." then
        if dir = [] then none else walkWithinWith v follow onLink dir.dropLast rest
      else if Tree.maxName < name.utf8ByteSize then some (.error .nameTooLong)
      else match v (dir ++ [name]) with
        | some (.link target) =>
          if rest.isEmpty && !follow then some (.ok (dir ++ [name])) else onLink dir target rest
        | _ => walkWithinWith v follow onLink (dir ++ [name]) rest
    | some _ => some (.error .notDirectory)

/-- The walk through a part of a tree that follows at most `links` links. -/
def walkWithin (v : Place → Option Node) (follow : Bool) :
    (links : Nat) → Place → List String → Option (Except Fault Place)
  | 0 => walkWithinWith v follow fun _ _ _ => some (.error .tooManyLinks)
  | links + 1 => walkWithinWith v follow fun dir target rest =>
    if target.isEmpty then some (.error .notFound)
    else if Path.isAbsolute target then none
    else walkWithin v follow links dir (split '/' target ++ rest)

namespace Tree

section
variable {t : Tree} {ws : Place} {follow : Bool}

theorem walkWith_of_within {onLink : Place → String → List String → Except Fault Place}
    {onLink' : Place → String → List String → Option (Except Fault Place)}
    (hjump : ∀ r target rest res, IsReal r → IsReal rest → onLink' r target rest = some res →
      onLink (ws ++ r) target rest = res.map (ws ++ ·) ∧ ∀ q, res = .ok q → IsReal q)
    {r : Place} {todo : List String} (hr : IsReal r) (htodo : IsReal todo)
    {res : Except Fault Place}
    (h : walkWithinWith (t.view ws) follow onLink' r todo = some res) :
    t.walkWith follow onLink (ws ++ r) todo = res.map (ws ++ ·) ∧ ∀ q, res = .ok q → IsReal q := by
  fun_induction walkWithinWith (t.view ws) follow onLink' r todo with
  | case1 r =>
    cases h
    refine ⟨rfl, fun q hq => ?_⟩
    cases hq
    exact hr
  | case2 r name rest hdir =>
    cases h
    rw [walkWith, get?_of_view_eq_none hr hdir]
    exact ⟨rfl, fun _ hq => by cases hq⟩
  | case3 r rest mode hdir ih =>
    rw [walkWith, get?_of_view_eq_directory hr hdir]
    exact ih hr htodo.tail h
  | case4 r name rest mode hdir hname hsearch =>
    cases h
    rw [walkWith, get?_of_view_eq_directory hr hdir]
    simp [hname, hsearch, Except.map]
  | case5 r rest mode hdir hname hsearch ih =>
    rw [walkWith, get?_of_view_eq_directory hr hdir]
    dsimp only
    rw [if_neg hname, if_neg hsearch, if_pos rfl]
    exact ih hr htodo.tail h
  | case6 => cases h
  | case7 r rest mode hdir hsearch hroot hname hdot ih =>
    rw [walkWith, get?_of_view_eq_directory hr hdir]
    dsimp only
    rw [if_neg hname, if_neg hsearch, if_neg hdot, if_pos rfl,
      List.dropLast_append_of_ne_nil hroot]
    exact ih hr.dropLast htodo.tail h
  | case8 r name rest mode hdir hname hsearch hdot hup hlong =>
    cases h
    rw [walkWith, get?_of_view_eq_directory hr hdir]
    simp [hname, hsearch, hdot, hup, hlong, Except.map]
  | case9 r name rest mode hdir hname hsearch hdot hup hlong target hlink hstop =>
    cases h
    have hreal := hr.snoc htodo.head
    rw [walkWith, get?_of_view_eq_directory hr hdir]
    dsimp only
    rw [if_neg hname, if_neg hsearch, if_neg hdot, if_neg hup, if_neg hlong, List.append_assoc,
      get?_of_view_eq_link hreal hlink]
    dsimp only
    rw [if_pos hstop]
    refine ⟨rfl, fun q hq => ?_⟩
    cases hq
    exact hreal
  | case10 r name rest mode hdir hname hsearch hdot hup hlong target hlink hmore =>
    rw [walkWith, get?_of_view_eq_directory hr hdir]
    dsimp only
    rw [if_neg hname, if_neg hsearch, if_neg hdot, if_neg hup, if_neg hlong, List.append_assoc,
      get?_of_view_eq_link (hr.snoc htodo.head) hlink]
    dsimp only
    rw [if_neg hmore]
    exact hjump r target rest res hr htodo.tail h
  | case11 r name rest mode hdir hname hsearch hdot hup hlong hlink ih =>
    have hreal := hr.snoc htodo.head
    have hnone : ∀ target, t.get? (ws ++ (r ++ [name])) ≠ some (.link target) := by
      intro target hat
      refine hlink target ?_
      rw [view_of_isReal t ws hreal, hat]
      rfl
    have hnext := ih hreal htodo.tail h
    rw [walkWith, get?_of_view_eq_directory hr hdir]
    dsimp only
    rw [if_neg hname, if_neg hsearch, if_neg hdot, if_neg hup, if_neg hlong, List.append_assoc]
    split
    · next target hat => exact absurd hat (hnone target)
    · exact hnext
  | case12 r name rest n hother hdir =>
    cases h
    rw [view_of_isReal t ws hr] at hdir
    obtain ⟨m, hm, hbare⟩ := Option.map_eq_some_iff.1 hdir
    rw [walkWith, hm]
    refine ⟨?_, fun _ hq => by cases hq⟩
    cases m with
    | directory mode =>
      subst hbare
      exact absurd rfl (hother mode)
    | _ => rfl

/-- **A walk that stays** below a directory goes the way of what is to be seen there. -/
theorem walk_of_within {links : Nat} {r : Place} {todo : List String} (hr : IsReal r)
    (htodo : IsReal todo) {res : Except Fault Place}
    (h : walkWithin (t.view ws) follow links r todo = some res) :
    t.walk follow links (ws ++ r) todo = res.map (ws ++ ·) ∧ ∀ q, res = .ok q → IsReal q := by
  induction links generalizing r todo res with
  | zero =>
    refine walkWith_of_within (fun _ _ _ _ _ _ hlink => ?_) hr htodo h
    cases hlink
    exact ⟨rfl, fun _ hq => by cases hq⟩
  | succ links ih =>
    refine walkWith_of_within (fun r target rest res hr hrest hlink => ?_) hr htodo h
    split at hlink
    · next hempty =>
      cases hlink
      rw [if_pos hempty]
      exact ⟨rfl, fun _ hq => by cases hq⟩
    split at hlink
    · cases hlink
    · next hempty habs =>
      rw [if_neg hempty, if_neg habs]
      exact ih hr ((isReal_split target).append hrest) hlink

end

end Tree

/-! ## Fewer links -/

section
variable {v : Place → Option Node} {follow : Bool}

theorem walkWithinWith_of_fewer
    {onLink onLink' : Place → String → List String → Option (Except Fault Place)}
    (hfewer : ∀ dir target rest res, onLink dir target rest = some res →
      onLink' dir target rest = some res ∨ onLink' dir target rest = some (.error .tooManyLinks))
    {dir : Place} {todo : List String} {res : Except Fault Place}
    (h : walkWithinWith v follow onLink dir todo = some res) :
    walkWithinWith v follow onLink' dir todo = some res ∨
      walkWithinWith v follow onLink' dir todo = some (.error .tooManyLinks) := by
  fun_induction walkWithinWith v follow onLink dir todo with
  | case1 dir => exact .inl h
  | case2 dir name rest hdir =>
    rw [walkWithinWith, hdir]
    exact .inl h
  | case3 dir rest mode hdir ih =>
    rw [walkWithinWith, hdir]
    exact ih h
  | case4 dir name rest mode hdir hname hsearch =>
    rw [walkWithinWith, hdir]
    simp [hname, hsearch, h]
  | case5 dir rest mode hdir hname hsearch ih =>
    rw [walkWithinWith, hdir]
    dsimp only
    rw [if_neg hname, if_neg hsearch, if_pos rfl]
    exact ih h
  | case6 => cases h
  | case7 dir rest mode hdir hsearch hroot hname hdot ih =>
    rw [walkWithinWith, hdir]
    dsimp only
    rw [if_neg hname, if_neg hsearch, if_neg hdot, if_pos rfl, if_neg hroot]
    exact ih h
  | case8 dir name rest mode hdir hname hsearch hdot hup hlong =>
    rw [walkWithinWith, hdir]
    simp [hname, hsearch, hdot, hup, hlong, h]
  | case9 dir name rest mode hdir hname hsearch hdot hup hlong target hlink hstop =>
    rw [walkWithinWith, hdir]
    dsimp only
    rw [if_neg hname, if_neg hsearch, if_neg hdot, if_neg hup, if_neg hlong, hlink]
    dsimp only
    rw [if_pos hstop]
    exact .inl h
  | case10 dir name rest mode hdir hname hsearch hdot hup hlong target hlink hmore =>
    rw [walkWithinWith, hdir]
    dsimp only
    rw [if_neg hname, if_neg hsearch, if_neg hdot, if_neg hup, if_neg hlong, hlink]
    dsimp only
    rw [if_neg hmore]
    exact hfewer dir target rest res h
  | case11 dir name rest mode hdir hname hsearch hdot hup hlong hlink ih =>
    rw [walkWithinWith, hdir]
    dsimp only
    rw [if_neg hname, if_neg hsearch, if_neg hdot, if_neg hup, if_neg hlong]
    split
    · next target hat => exact absurd hat (hlink target)
    · exact ih h
  | case12 dir name rest n hother hdir =>
    rw [walkWithinWith, hdir]
    cases n with
    | directory mode => exact absurd rfl (hother mode)
    | _ => exact .inl h

/-- With fewer links to follow a walk comes to the same, or there are too many. -/
theorem walkWithin_of_le {links fewer : Nat} (hle : fewer ≤ links) {dir : Place}
    {todo : List String} {res : Except Fault Place}
    (h : walkWithin v follow links dir todo = some res) :
    walkWithin v follow fewer dir todo = some res ∨
      walkWithin v follow fewer dir todo = some (.error .tooManyLinks) := by
  induction fewer generalizing links dir todo res with
  | zero =>
    cases links with
    | zero => exact .inl h
    | succ links => exact walkWithinWith_of_fewer (fun _ _ _ _ _ => .inr rfl) h
  | succ fewer ih =>
    obtain ⟨links, rfl⟩ := Nat.exists_eq_add_of_le' (Nat.le_of_add_left_le hle)
    refine walkWithinWith_of_fewer (fun dir target rest res hlink => ?_) h
    split at hlink
    · next hempty => exact .inl (by rw [if_pos hempty, hlink])
    split at hlink
    · cases hlink
    · next hempty habs =>
      rw [if_neg hempty, if_neg habs]
      exact ih (by omega) hlink

end

/-! ## The same directories and links -/

section
variable {v v' : Place → Option Node} {follow : Bool}
  (hshape : ∀ r, (v' r).bind Node.shape? = (v r).bind Node.shape?)
include hshape

theorem eq_of_sameShapes {r : Place} {n : Node} (hn : n.shape? = some n) (h : v r = some n) :
    v' r = some n := by
  have hr := hshape r
  rw [h, Option.bind_some, hn] at hr
  obtain ⟨m, hm, hmn⟩ := Option.bind_eq_some_iff.1 hr
  rw [hm, Node.eq_of_shape? hmn]

theorem walkWithinWith_isSome_of_sameShapes
    {onLink onLink' : Place → String → List String → Option (Except Fault Place)}
    (hjump : ∀ dir target rest, (onLink dir target rest).isSome → (onLink' dir target rest).isSome)
    {dir : Place} {todo : List String} (h : (walkWithinWith v follow onLink dir todo).isSome) :
    (walkWithinWith v' follow onLink' dir todo).isSome := by
  have hother {r : Place} (hr : ∀ mode, v r ≠ some (.directory mode)) (mode : Nat) :
      v' r ≠ some (.directory mode) := fun hdir =>
    hr mode (eq_of_sameShapes (fun r => (hshape r).symm) rfl hdir)
  have hend {r : Place} (hr : ∀ mode, v r ≠ some (.directory mode)) (name : String)
      (rest : List String) : (walkWithinWith v' follow onLink' r (name :: rest)).isSome := by
    rw [walkWithinWith]
    split
    · rfl
    · next mode hdir => exact absurd hdir (hother hr mode)
    · rfl
  fun_induction walkWithinWith v follow onLink dir todo with
  | case1 dir => rfl
  | case2 dir name rest hdir => exact hend (by simp [hdir]) name rest
  | case3 dir rest mode hdir ih =>
    rw [walkWithinWith, eq_of_sameShapes hshape rfl hdir]
    exact ih h
  | case4 dir name rest mode hdir hname hsearch =>
    rw [walkWithinWith, eq_of_sameShapes hshape rfl hdir]
    simp [hname, hsearch]
  | case5 dir rest mode hdir hname hsearch ih =>
    rw [walkWithinWith, eq_of_sameShapes hshape rfl hdir]
    dsimp only
    rw [if_neg hname, if_neg hsearch, if_pos rfl]
    exact ih h
  | case6 => cases h
  | case7 dir rest mode hdir hsearch hroot hname hdot ih =>
    rw [walkWithinWith, eq_of_sameShapes hshape rfl hdir]
    dsimp only
    rw [if_neg hname, if_neg hsearch, if_neg hdot, if_pos rfl, if_neg hroot]
    exact ih h
  | case8 dir name rest mode hdir hname hsearch hdot hup hlong =>
    rw [walkWithinWith, eq_of_sameShapes hshape rfl hdir]
    simp [hname, hsearch, hdot, hup, hlong]
  | case9 dir name rest mode hdir hname hsearch hdot hup hlong target hlink hstop =>
    rw [walkWithinWith, eq_of_sameShapes hshape rfl hdir]
    dsimp only
    rw [if_neg hname, if_neg hsearch, if_neg hdot, if_neg hup, if_neg hlong,
      eq_of_sameShapes hshape rfl hlink]
    dsimp only
    rw [if_pos hstop]
    rfl
  | case10 dir name rest mode hdir hname hsearch hdot hup hlong target hlink hmore =>
    rw [walkWithinWith, eq_of_sameShapes hshape rfl hdir]
    dsimp only
    rw [if_neg hname, if_neg hsearch, if_neg hdot, if_neg hup, if_neg hlong,
      eq_of_sameShapes hshape rfl hlink]
    dsimp only
    rw [if_neg hmore]
    exact hjump dir target rest h
  | case11 dir name rest mode hdir hname hsearch hdot hup hlong hlink ih =>
    rw [walkWithinWith, eq_of_sameShapes hshape rfl hdir]
    dsimp only
    rw [if_neg hname, if_neg hsearch, if_neg hdot, if_neg hup, if_neg hlong]
    split
    · next target hat =>
      exact absurd (eq_of_sameShapes (fun r => (hshape r).symm) rfl hat) (hlink target)
    · exact ih h
  | case12 dir name rest n hno hdir =>
    refine hend (fun mode heq => ?_) name rest
    rw [hdir] at heq
    exact hno mode (Option.some.inj heq)

/-- Directories and links decide whether a walk stays. -/
theorem walkWithin_isSome_of_sameShapes {links : Nat} {dir : Place} {todo : List String}
    (h : (walkWithin v follow links dir todo).isSome) :
    (walkWithin v' follow links dir todo).isSome := by
  induction links generalizing dir todo with
  | zero => exact walkWithinWith_isSome_of_sameShapes hshape (fun _ _ _ h => h) h
  | succ links ih =>
    refine walkWithinWith_isSome_of_sameShapes hshape (fun dir target rest hlink => ?_) h
    split at hlink
    · next hempty => rw [if_pos hempty]; rfl
    split at hlink
    · cases hlink
    · next hempty habs =>
      rw [if_neg hempty, if_neg habs]
      exact ih hlink

end

/-! ## Paths -/

namespace Tree

/-- The names lead to nothing outside a view. -/
def StaysIn (v : Place → Option Node) (names : List String) : Prop :=
  (walkWithin v true maxLinks [] names).isSome

/-- A path leads to a directory, with `left` links left to follow behind it. -/
def Reaches (t : Tree) (cwd : Place) (path : String) (dir : Place) (left : Nat) : Prop :=
  left ≤ maxLinks ∧
    t.Passes left maxLinks (if Path.isAbsolute path then [] else cwd) (split '/' path) dir

theorem reaches_of_resolve {t : Tree} {cwd dir : Place} {path : String}
    (h : t.resolve cwd path false = .ok dir) (hdir : ∀ target, t.get? dir ≠ some (.link target)) :
    ∃ left, t.Reaches cwd path dir left := by
  obtain ⟨left, hle, hpasses⟩ := (resolve_eq_ok_iff.1 h).2.passes hdir
  exact ⟨left, hle, hpasses⟩

theorem StaysIn.of_sameShape {t t' : Tree} {ws : Place} {names : List String}
    (hshape : t.SameShape t') (h : StaysIn (t.view ws) names) : StaysIn (t'.view ws) names := by
  refine walkWithin_isSome_of_sameShapes (fun r => ?_) h
  have hbare (n : Node) : n.bare.shape? = n.shape? := by cases n <;> rfl
  by_cases hr : IsReal r
  · simpa [view_of_isReal _ _ hr, Option.bind_map, Function.comp_def, hbare] using hshape (ws ++ r)
  · simp only [view, if_neg hr]

theorem Reaches.of_sameShape {t t' : Tree} {cwd dir : Place} {path : String} {left : Nat}
    (hshape : t.SameShape t') (h : t.Reaches cwd path dir left) : t'.Reaches cwd path dir left :=
  ⟨h.1, h.2.of_sameShape hshape⟩

/-- A walk that goes anywhere begins in a directory. -/
theorem directory_of_walkWithin {v : Place → Option Node} {follow : Bool} {links : Nat}
    {dir q : Place} {todo : List String} (htodo : todo ≠ [])
    (h : walkWithin v follow links dir todo = some (.ok q)) :
    ∃ mode, v dir = some (.directory mode) := by
  obtain ⟨name, rest, rfl⟩ := List.exists_cons_of_ne_nil htodo
  have hwith (onLink : Place → String → List String → Option (Except Fault Place))
      (h : walkWithinWith v follow onLink dir (name :: rest) = some (.ok q)) :
      ∃ mode, v dir = some (.directory mode) := by
    rw [walkWithinWith] at h
    split at h
    · cases h
    · next mode hdir => exact ⟨mode, hdir⟩
    · cases h
  cases links with
  | zero => exact hwith _ h
  | succ links => exact hwith _ h

section
variable {t : Tree} {cwd ws : Place} {path below : String} {left : Nat} {names : List String}
  (hreach : t.Reaches cwd path ws left) (hbelow : Path.Continues path names below)
include hreach hbelow

/-- **A path** that goes on behind that of a directory goes the way of what is to be seen there. -/
theorem resolve_within (hstays : StaysIn (t.view ws) names) :
    ∃ res, walkWithin (t.view ws) true left [] names = some res ∧
      (∀ q, res = .ok q → IsReal q ∧ ∃ mode, t.get? ws = some (.directory mode)) ∧
      t.resolve cwd below =
        if below.toList.contains '\x00' then .error .nulInPath
        else if maxPath ≤ below.utf8ByteSize then .error .nameTooLong
        else res.map (ws ++ ·) := by
  obtain ⟨res, hres⟩ := Option.isSome_iff_exists.1 hstays
  obtain ⟨res, hres⟩ : ∃ res, walkWithin (t.view ws) true left [] names = some res := by
    obtain h | h := walkWithin_of_le hreach.1 hres
    · exact ⟨_, h⟩
    · exact ⟨_, h⟩
  obtain ⟨hwalk, hreal⟩ := walk_of_within isReal_nil
    (fun name hname => (hbelow.plain name hname).1.noSlash) hres
  refine ⟨res, hres, fun q hq => ⟨hreal q hq, ?_⟩, ?_⟩
  · subst hq
    obtain ⟨mode, hmode⟩ := directory_of_walkWithin hbelow.ne_nil hres
    exact ⟨mode, by simpa using get?_of_view_eq_directory isReal_nil hmode⟩
  have hempty : ¬ below.isEmpty = true := by
    intro hempty
    have hlength := congrArg List.length hbelow.split
    have hfront := List.length_pos_iff.2 (split_ne_nil '/' path)
    have hback := List.length_pos_iff.2 hbelow.ne_nil
    rw [String.isEmpty_iff.1 hempty, List.length_append,
      show split '/' "" = [""] by decide] at hlength
    simp at hlength
    omega
  rw [resolve, if_neg hempty, hbelow.isAbsolute, hbelow.split,
    hreach.2.walk_append true hbelow.ne_nil, ← hwalk, List.append_nil]

end

end Tree

end LangBundle.Files
