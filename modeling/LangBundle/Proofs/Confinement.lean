import LangBundle.Proofs.SoundTrees

/-!
# What happens below one directory

A build works in a directory that was made for it.  This file says what its tree looks like beside
the tree that the build found, and that the operations of a build keep that.

* `Site`: the place where the directory is made.
* `Confined`: a tree differs from another one below the directory only.
* `Unlinked`: below the directory no file has a second name, and there are no links.
* `LeadsInside`: what a path leads to has names below the directory only.
* `Confined.opened`, `Confined.writeAt`: **writing** to what such a path leads to stays inside.
* `Removable.get?_removed`: **removing** the directory leaves all else as it is.
-/

namespace LangBundle.Files.Tree

/-! ## The place of the directory -/

/-- A place where a directory can be made, and a path that leads there. -/
structure Site (base : Tree) (cwd : Place) (path : String) (ws : Place) : Prop where
  sound : base.IsSound
  real : IsReal cwd
  leads : base.resolve cwd path false = .ok ws
  empty : base.get? ws = none
  above : base.requireAbove ws = .ok ()

/-- A tree differs from another one below a directory only, and the directory can be removed. -/
structure Confined (ws : Place) (base t : Tree) : Prop where
  sound : t.IsSound
  off : ∀ p, IsReal p → ¬ ws <+: p → t.get? p = base.get? p
  here : ∀ n, t.get? ws = some n → n.isDirectory = true
  guarded : t.isGuarded ws = false

/-- Below a directory there are only directories and regular files, each with one name. -/
structure Unlinked (ws : Place) (t : Tree) : Prop where
  plain : ∀ p n, IsReal p → ws <+: p → t.get? p = some n →
    n.isDirectory = true ∨ ∃ serial mode data, n = .file serial mode data
  sole : ∀ p q serial, IsReal p → IsReal q → ws <+: p → t.serialAt? p = some serial →
    t.serialAt? q = some serial → q = p

/-- What a path leads to has names below a directory only. -/
def LeadsInside (ws : Place) (t : Tree) (cwd : Place) (path : String) : Prop :=
  ∀ p q, t.resolve cwd path = .ok p → IsReal q → t.Aliases p q → ws <+: q

/-- An open file has names below a directory only. -/
def StaysInside (ws : Place) (t : Tree) (sink : Sink) : Prop :=
  ∀ serial p, sink = .file serial → IsReal p → t.serialAt? p = some serial → ws <+: p

namespace Site

variable {base t : Tree} {cwd ws : Place} {path : String} (h : base.Site cwd path ws)
include h

theorem isReal : IsReal ws :=
  isReal_of_resolve h.real h.leads

theorem ne_nil : ws ≠ [] :=
  ne_nil_of_get?_eq_none h.empty

theorem nothing {p : Place} (hp : IsReal p) (hbelow : ws <+: p) : base.get? p = none :=
  h.sound.nothing_below hp hbelow h.empty

theorem hasAbove : base.HasAbove ws :=
  h.sound.hasAbove_of_resolve h.real h.leads h.empty

/-- The path leads to the place as long as directories and links change below it only. -/
theorem leads_of_shape (hoff : ∀ p, IsReal p → ¬ ws <+: p →
    (t.get? p).bind Node.shape? = (base.get? p).bind Node.shape?) :
    t.resolve cwd path false = .ok ws := by
  have hleads := resolve_eq_ok_iff.1 h.leads
  exact resolve_eq_ok_iff.2 ⟨hleads.1, hleads.2.of_agree (fun p hp hbelow => h.nothing hp hbelow)
    hoff (h.real.origin path) (isReal_split path)⟩

theorem leads_of_off (hoff : ∀ p, IsReal p → ¬ ws <+: p → t.get? p = base.get? p) :
    t.resolve cwd path false = .ok ws :=
  h.leads_of_shape fun p hp hnot => by rw [hoff p hp hnot]

theorem above_of_shape (hoff : ∀ p, IsReal p → ¬ ws <+: p →
    (t.get? p).bind Node.shape? = (base.get? p).bind Node.shape?) :
    t.requireAbove ws = .ok () := by
  have habove := h.above
  obtain ⟨above, name, mode, hws, hdir⟩ := h.hasAbove
  subst hws
  have hreal : IsReal above := by simpa using h.isReal.dropLast
  have hnot : ¬ above ++ [name] <+: above := by
    intro hbelow
    have hlength := hbelow.length_le
    rw [List.length_append, List.length_singleton] at hlength
    omega
  have hagree := hoff above hreal hnot
  rw [hdir, Option.bind_some, Node.shape?] at hagree
  obtain ⟨m, hm, hshape⟩ := Option.bind_eq_some_iff.1 hagree
  rw [Node.eq_of_shape? hshape] at hm
  unfold requireAbove at habove ⊢
  rw [List.dropLast_concat] at habove ⊢
  rwa [hm, ← hdir]

theorem above_of_off (hoff : ∀ p, IsReal p → ¬ ws <+: p → t.get? p = base.get? p) :
    t.requireAbove ws = .ok () :=
  h.above_of_shape fun p hp hnot => by rw [hoff p hp hnot]

end Site

/-! ## A directory that can be removed -/

/-- A path leads to a directory that can be removed, if it is there. -/
structure Removable (t : Tree) (cwd : Place) (path : String) (ws : Place) : Prop where
  sound : t.IsSound
  leads : t.resolve cwd path false = .ok ws
  here : ∀ n, t.get? ws = some n → n.isDirectory = true
  guarded : t.isGuarded ws = false
  above : t.requireAbove ws = .ok ()

theorem Confined.removable {base t : Tree} {cwd ws : Place} {path : String}
    (h : Confined ws base t) (hsite : base.Site cwd path ws) : t.Removable cwd path ws :=
  ⟨h.sound, hsite.leads_of_off h.off, h.here, h.guarded, hsite.above_of_off h.off⟩

/-- **Removing** the directory is not refused, and leaves nothing of it and all else as it is. -/
theorem Removable.get?_removed {t : Tree} {cwd ws : Place} {path : String}
    (h : t.Removable cwd path ws) (hroot : ws ≠ []) :
    ∃ r t', t.removeDirectoryTree cwd path = (r, t') ∧ (r = .ok () ∨ r = .error .notFound) ∧
      ∀ p, IsReal p → t'.get? p = if ws <+: p then none else t.get? p := by
  rcases hnode : t.get? ws with _ | n
  · refine ⟨_, _, removeDirectoryTree_of_none h.leads hnode, .inr rfl, fun p hp => ?_⟩
    split
    · next hbelow => exact h.sound.nothing_below hp hbelow hnode
    · rfl
  · obtain ⟨mode, rfl⟩ : ∃ mode, n = .directory mode := by
      have hdir := h.here n hnode
      cases n with
      | directory mode => exact ⟨mode, rfl⟩
      | _ => cases hdir
    refine ⟨_, _, removeDirectoryTree_of_directory h.guarded h.leads hnode h.above, .inl rfl,
      fun p _ => ?_⟩
    exact get?_erase t hroot p

/-! ## Opening and writing -/

section
variable {t t' : Tree} {cwd ws p : Place} {path : String} {sink : Sink}

/-- Opening gives a new file a number, and changes no other one. -/
theorem Opened.serialAt? (hopen : t.Opened p sink t') (q : Place) :
    t'.serialAt? q = t.serialAt? q ∨
      q = p ∧ t'.serialAt? q = some t.nextSerial ∧ sink = .file t.nextSerial := by
  cases hopen with
  | made hnone _ =>
    by_cases hq : q = p
    · subst hq
      exact .inr ⟨rfl, serialAt?_newFile_self t (ne_nil_of_get?_eq_none hnone) _, rfl⟩
    · exact .inl (serialAt?_newFile_of_ne t hq _)
  | emptied _ => exact .inl (serialAt?_modifyFile t _ _ q)
  | same _ _ _ _ => exact .inl rfl

/-- What has the number of the file that is opened is a name of what was opened. -/
theorem Opened.aliases (hsound : t.IsSound) (hopen : t.Opened p sink t') {serial : Nat}
    (hsink : sink = .file serial) {q : Place}
    (hserial : t'.serialAt? q = some serial) : t.Aliases p q := by
  obtain hsame | ⟨rfl, -⟩ := hopen.serialAt? q
  · rw [hsame] at hserial
    cases hopen with
    | made _ _ =>
      cases hsink
      exact absurd (hsound.serialAt?_lt hserial) (Nat.lt_irrefl _)
    | emptied hfile =>
      cases hsink
      exact .inr ⟨_, by rw [Tree.serialAt?, hfile]; rfl, hserial⟩
    | same _ _ _ hnot => exact absurd hsink (hnot serial)
  · exact .inl rfl

theorem directory_of_here (hhere : ∀ n, t.get? ws = some n → n.isDirectory = true)
    (hsome : t.get? ws ≠ none) : ∃ mode, t.get? ws = some (.directory mode) := by
  rcases hnode : t.get? ws with _ | n
  · exact absurd hnode hsome
  · have hdir := hhere n hnode
    cases n with
    | directory mode => exact ⟨mode, rfl⟩
    | _ => cases hdir

theorem here_of_sameShape (hshape : t.SameShape t')
    (hhere : ∀ n, t.get? ws = some n → n.isDirectory = true) (hsome : t.get? ws ≠ none)
    (n : Node) (hn : t'.get? ws = some n) : n.isDirectory = true := by
  obtain ⟨mode, hmode⟩ := directory_of_here hhere hsome
  rw [hshape.directory hmode] at hn
  cases hn
  rfl

/-- What is opened has names below the directory only. -/
theorem StaysInside.opened (hsound : t.IsSound) (hp : t.resolve cwd path = .ok p)
    (hopen : t.Opened p sink t') (hinside : LeadsInside ws t cwd path) :
    StaysInside ws t' sink := fun _ _ hsink hq hserial =>
  hinside p _ hp hq (hopen.aliases hsound hsink hserial)

/-- **Opening** what has names below the directory only. -/
theorem Confined.opened {base : Tree} (h : Confined ws base t) (hws : ws ≠ [])
    (hsome : t.get? ws ≠ none) (hcwd : IsReal cwd) (hp : t.resolve cwd path = .ok p)
    (hopen : t.Opened p sink t') (hinside : LeadsInside ws t cwd path) :
    Confined ws base t' where
  sound := hopen.isSound h.sound hcwd hp
  off q hq hnot := by
    rw [hopen.get?_of_not_aliases fun halias => hnot (hinside p q hp hq halias), h.off q hq hnot]
  here := here_of_sameShape hopen.sameShape h.here hsome
  guarded := hopen.isGuarded h.guarded h.sound hws

/-- **Writing** to what has names below the directory only. -/
theorem Confined.writeAt {base : Tree} (h : Confined ws base t) {offset : Nat} {new : Bytes}
    (hsome : t.get? ws ≠ none) (hinside : StaysInside ws t sink)
    (hwrite : t.writeAt sink offset new = .ok t') : Confined ws base t' where
  sound := writeAt_isSound hwrite h.sound
  off q hq hnot := by
    rw [get?_writeAt hwrite fun serial hsink hserial => hnot (hinside serial q hsink hq hserial),
      h.off q hq hnot]
  here := here_of_sameShape (writeAt_sameShape hwrite) h.here hsome
  guarded := writeAt_isGuarded h.guarded hwrite

theorem StaysInside.writeAt {sink' : Sink} {offset : Nat} {new : Bytes}
    (h : StaysInside ws t sink) (hwrite : t.writeAt sink' offset new = .ok t') :
    StaysInside ws t' sink := by
  intro serial q hsink hq hserial
  rw [serialAt?_writeAt hwrite] at hserial
  exact h serial q hsink hq hserial

/-- A path goes on leading inside when something inside is opened. -/
theorem LeadsInside.opened (h : LeadsInside ws t cwd path) (hsound : t.IsSound)
    (hopen : t.Opened p sink t') (hp : ws <+: p) : LeadsInside ws t' cwd path := by
  intro q r hq hr halias
  have hq' := resolve_of_sameShape hopen.sameShape.symm hq
  obtain rfl | ⟨serial, hqs, hrs⟩ := halias
  · exact h r r hq' hr (.inl rfl)
  obtain hrsame | ⟨rfl, -⟩ := hopen.serialAt? r
  · rw [hrsame] at hrs
    obtain hqsame | ⟨-, hnew, -⟩ := hopen.serialAt? q
    · exact h q r hq' hr (.inr ⟨serial, by rw [← hqsame, hqs], hrs⟩)
    · -- a new number is nobody else's
      rw [hnew] at hqs
      cases hqs
      exact absurd (hsound.serialAt?_lt hrs) (Nat.lt_irrefl _)
  · exact hp

theorem LeadsInside.writeAt {offset : Nat} {new : Bytes} (h : LeadsInside ws t cwd path)
    (hwrite : t.writeAt sink offset new = .ok t') : LeadsInside ws t' cwd path := by
  intro q r hq hr halias
  refine h q r (resolve_of_sameShape (writeAt_sameShape hwrite).symm hq) hr ?_
  simpa only [Aliases, serialAt?_writeAt hwrite] using halias

theorem requireAbove_of_sameShape (hshape : t.SameShape t') (habove : t.HasAbove p) :
    t'.requireAbove p = t.requireAbove p := by
  obtain ⟨above, name, mode, rfl, hdir⟩ := habove
  unfold requireAbove
  rw [List.dropLast_concat, hdir, hshape.directory hdir]

theorem Removable.of_sameShape (h : t.Removable cwd path ws) (hcwd : IsReal cwd) (hws : ws ≠ [])
    (hsome : t.get? ws ≠ none) (hshape : t.SameShape t') (hsound : t'.IsSound)
    (hguard : t'.isGuarded ws = false) : t'.Removable cwd path ws where
  sound := hsound
  leads := resolve_of_sameShape hshape h.leads
  here := here_of_sameShape hshape h.here hsome
  guarded := hguard
  above := by
    have habove := h.sound.hasAbove (isReal_of_resolve hcwd h.leads) hws hsome
    rw [requireAbove_of_sameShape hshape habove]
    exact h.above

/-- **A file that is written** leaves a directory removable. -/
theorem Removable.write {target : String} {data : Bytes} (h : t.Removable cwd path ws)
    (hcwd : IsReal cwd) (hws : ws ≠ []) (hsome : t.get? ws ≠ none)
    (hwrite : t.write cwd target data = .ok t') :
    t'.Removable cwd path ws ∧ ∃ p, t.resolve cwd target = .ok p ∧
      ∀ q, IsReal q → ¬ t.Aliases p q → t'.get? q = t.get? q := by
  obtain ⟨⟨sink, opened⟩, hopen, hwrite⟩ := bind_eq_ok hwrite
  obtain ⟨p, hp, hopen⟩ := openWrite_eq_ok hopen
  have hsound := hopen.isSound h.sound hcwd hp
  refine ⟨h.of_sameShape hcwd hws hsome (hopen.sameShape.trans (writeAt_sameShape hwrite))
    (writeAt_isSound hwrite hsound)
    (writeAt_isGuarded (hopen.isGuarded h.guarded h.sound hws) hwrite), p, hp, fun q hq hnot => ?_⟩
  have hkept := get?_writeAt hwrite (q := q) fun serial hsink hserial =>
    hnot (hopen.aliases h.sound hsink hserial)
  rw [hkept, hopen.get?_of_not_aliases hnot]

/-- A path that goes on from the directory leads somewhere only while the directory is there. -/
theorem Confined.ne_none {base : Tree} (h : Confined ws base t) {below : String}
    (hpath : t.resolve cwd path false = .ok ws) {names : List String} (hne : names ≠ [])
    (hsplit : Text.split '/' below = Text.split '/' path ++ names)
    (habs : Path.isAbsolute below = Path.isAbsolute path) {follow : Bool}
    (hp : t.resolve cwd below follow = .ok p) : t.get? ws ≠ none := by
  have hlink (target : String) : t.get? ws ≠ some (.link target) := by
    intro hnode
    cases h.here _ hnode
  obtain ⟨left, hwalk⟩ := resolve_below hpath hlink hne hsplit habs hp
  exact fun hnone => hne (hwalk.of_none hnone).1

end

/-- A directory that admits names can be filled. -/
theorem Confined.insert {base t : Tree} {ws : Place} {name : String} {mode next : Nat} {n : Node}
    (h : Confined ws base t) (hws : ws ≠ []) (hreal : IsReal ws) (hname : '/' ∉ name.toList)
    (hdir : t.get? ws = some (.directory mode)) (hadmits : AdmitsNames (.directory mode))
    (hnone : t.get? (ws ++ [name]) = none) (hn : n.isDirectory = false)
    (hnext : t.nextSerial ≤ next)
    (hserial : ∀ serial, n.serial? = some serial → t.nextSerial ≤ serial ∧ serial < next) :
    Confined ws base (t.insert (ws ++ [name]) n next) where
  sound := h.sound.insert (hreal.snoc hname) hnone ⟨ws, name, mode, rfl, hdir⟩ hnext hserial
  off p hp hnot := by
    have hother : p ≠ ws ++ [name] := by
      rintro rfl
      exact hnot (List.prefix_append ws [name])
    rw [get?_insert_of_ne hother, h.off p hp hnot]
  here m hm := by
    rw [get?_insert_of_ne (by simp), hdir] at hm
    cases hm
    rfl
  guarded := by
    have habove : t.requireAbove (ws ++ [name]) = .ok () := by
      rw [requireAbove, List.dropLast_concat, hdir]
      simp [require, hadmits.1, hadmits.2, bind, Except.bind]
    exact isGuarded_insert h.guarded h.sound hws habove fun hdir => by simp [hn] at hdir

/-! ## A directory without links -/

section
variable {t t' : Tree} {cwd ws p : Place} {sink : Sink}

/-- Without links, the names below a directory lead straight down. -/
theorem Unlinked.resolve_join {path : String} {names : List String} (h : Unlinked ws t)
    (hpath : t.resolve cwd path false = .ok ws) (hws : IsReal ws) {below : String}
    (hne : names ≠ []) (hplain : ∀ name ∈ names, Path.IsPlain name ∧ name ≠ "..")
    (hsplit : Text.split '/' below = Text.split '/' path ++ names)
    (habs : Path.isAbsolute below = Path.isAbsolute path) {follow : Bool}
    (hp : t.resolve cwd below follow = .ok p) : t.get? ws ≠ none ∧ p = ws ++ names := by
  have hlink (q : Place) (target : String) (hbelow : ws <+: q) (hq : IsReal q) :
      t.get? q ≠ some (.link target) := by
    intro hnode
    obtain hdir | ⟨_, _, _, hfile⟩ := h.plain q _ hq hbelow hnode
    · cases hdir
    · cases hfile
  obtain ⟨left, hwalk⟩ := resolve_below hpath (fun target => hlink ws target (List.prefix_rfl) hws)
    hne hsplit habs hp
  refine ⟨fun hnone => hne (hwalk.of_none hnone).1, hwalk.eq_append hplain hlink hws⟩

theorem Unlinked.leadsInside (h : Unlinked ws t) {path : String}
    (hpath : ∀ p, t.resolve cwd path = .ok p → IsReal p ∧ ws <+: p) :
    LeadsInside ws t cwd path := by
  intro p q hp hq halias
  obtain ⟨hreal, hbelow⟩ := hpath p hp
  obtain rfl | ⟨serial, hps, hqs⟩ := halias
  · exact hbelow
  · rwa [h.sole p q serial hreal hq hbelow hps hqs]

theorem Unlinked.modifyFile (h : Unlinked ws t) (serial : Nat) (f : Bytes → Bytes) :
    Unlinked ws (t.modifyFile serial f) where
  plain q n hq hbelow hn := by
    rw [get?_modifyFile, Option.map_eq_some_iff] at hn
    obtain ⟨m, hm, rfl⟩ := hn
    obtain hdir | ⟨s, mode, data, rfl⟩ := h.plain q m hq hbelow hm
    · cases m with
      | directory _ => exact .inl rfl
      | _ => cases hdir
    · exact .inr ⟨_, _, _, rfl⟩
  sole q r s hq hr hbelow hqs hrs := by
    rw [serialAt?_modifyFile] at hqs hrs
    exact h.sole q r s hq hr hbelow hqs hrs

theorem Unlinked.insert (h : Unlinked ws t) (hsound : t.IsSound) {n : Node} {next : Nat}
    (hroot : p ≠ []) (hn : n.isDirectory = true ∨ ∃ mode data, n = .file t.nextSerial mode data) :
    Unlinked ws (t.insert p n next) where
  plain q m hq hbelow hm := by
    by_cases hqp : q = p
    · rw [hqp, get?_insert_self hroot] at hm
      cases hm
      obtain hdir | ⟨mode, data, rfl⟩ := hn
      · exact .inl hdir
      · exact .inr ⟨_, _, _, rfl⟩
    · rw [get?_insert_of_ne hqp] at hm
      exact h.plain q m hq hbelow hm
  sole q r s hq hr hbelow hqs hrs := by
    have hnew (hs : n.serial? = some s) : s = t.nextSerial := by
      obtain hdir | ⟨mode, data, rfl⟩ := hn
      · cases n with
        | directory _ => cases hs
        | _ => cases hdir
      · cases hs
        rfl
    have hold {o : Place} (hos : t.serialAt? o = some s) : n.serial? ≠ some s :=
      fun hs => Nat.lt_irrefl _ (hnew hs ▸ hsound.serialAt?_lt hos)
    rw [serialAt?_insert hroot] at hqs hrs
    split at hqs <;> split at hrs
    · next hqp hrp => rw [hqp, hrp]
    · exact absurd hqs (hold hrs)
    · exact absurd hrs (hold hqs)
    · exact h.sole q r s hq hr hbelow hqs hrs

theorem Unlinked.opened (h : Unlinked ws t) (hsound : t.IsSound) (hopen : t.Opened p sink t') :
    Unlinked ws t' := by
  cases hopen with
  | made hnone _ => exact h.insert hsound (ne_nil_of_get?_eq_none hnone) (.inr ⟨_, _, rfl⟩)
  | emptied _ => exact h.modifyFile _ _
  | same _ _ _ _ => exact h

theorem Unlinked.writeAt (h : Unlinked ws t) {offset : Nat} {new : Bytes}
    (hwrite : t.writeAt sink offset new = .ok t') : Unlinked ws t' := by
  obtain ⟨serial, -, rfl⟩ | ⟨-, rfl⟩ := writeAt_eq_ok hwrite
  · exact h.modifyFile _ _
  · exact h

end

/-! ## Before the tools -/

/-- What the tree of a build looks like until the first tool is called: the directory is there, and
it has no links in it. -/
structure Prepared (ws : Place) (base t : Tree) : Prop extends
    Confined ws base t, Unlinked ws t where
  directory : ∃ mode, t.get? ws = some (.directory mode) ∧ mode &&& Permission.execute.bit ≠ 0

section
variable {base t t' : Tree} {cwd ws : Place} {path : String} (hsite : base.Site cwd path ws)
include hsite

/-- **The directory** when it has been made. -/
theorem Site.prepared {mode : Nat} (hread : (Node.directory mode).allows .read = true)
    (hopen : AdmitsNames (.directory mode)) : Prepared ws base (base.put ws (.directory mode)) where
  sound := hsite.sound.insert (n := .directory mode) hsite.isReal hsite.empty hsite.hasAbove
    (Nat.le_refl _) fun _ hserial => nomatch hserial
  off p _ hnot := get?_put_of_ne base _ fun heq => hnot (heq ▸ List.prefix_rfl)
  here n hn := by
    rw [get?_put_self base _ hsite.ne_nil] at hn
    cases hn
    rfl
  guarded := isGuarded_insert (hsite.sound.isGuarded_of_none hsite.isReal hsite.empty)
    hsite.sound hsite.ne_nil hsite.above fun _ => ⟨hread, hopen⟩
  plain p n hp hbelow hn := by
    by_cases hpw : p = ws
    · rw [hpw, get?_put_self base _ hsite.ne_nil] at hn
      cases hn
      exact .inl rfl
    · rw [get?_put_of_ne base _ hpw, hsite.nothing hp hbelow] at hn
      cases hn
  sole p q serial hp _ hbelow hps _ := by
    have hnone : (base.put ws (.directory mode)).serialAt? p = none := by
      by_cases hpw : p = ws
      · rw [hpw, serialAt?, get?_put_self base _ hsite.ne_nil]
        rfl
      · rw [serialAt?, get?_put_of_ne base _ hpw, hsite.nothing hp hbelow]
        rfl
    rw [hnone] at hps
    cases hps
  directory := ⟨mode, get?_put_self base _ hsite.ne_nil,
    by simpa [Node.allows, Node.mode] using hopen.2⟩

omit hsite in
theorem Prepared.ne_none (h : Prepared ws base t) : t.get? ws ≠ none := by
  obtain ⟨mode, hmode, -⟩ := h.directory
  simp [hmode]

theorem Prepared.opened {below : String} {p : Place} {sink : Sink} (h : Prepared ws base t)
    (hp : t.resolve cwd below = .ok p) (hopen : t.Opened p sink t')
    (hinside : LeadsInside ws t cwd below) : Prepared ws base t' where
  toConfined := h.toConfined.opened hsite.ne_nil h.ne_none hsite.real hp hopen hinside
  toUnlinked := h.toUnlinked.opened h.sound hopen
  directory := by
    obtain ⟨mode, hmode, hsearch⟩ := h.directory
    exact ⟨mode, hopen.sameShape.directory hmode, hsearch⟩

omit hsite in
theorem Prepared.writeAt {sink : Sink} {offset : Nat} {new : Bytes} (h : Prepared ws base t)
    (hinside : StaysInside ws t sink) (hwrite : t.writeAt sink offset new = .ok t') :
    Prepared ws base t' where
  toConfined := h.toConfined.writeAt h.ne_none hinside hwrite
  toUnlinked := h.toUnlinked.writeAt hwrite
  directory := by
    obtain ⟨mode, hmode, hsearch⟩ := h.directory
    exact ⟨mode, (writeAt_sameShape hwrite).directory hmode, hsearch⟩

theorem Prepared.write {below : String} {data : Bytes} (h : Prepared ws base t)
    (hinside : LeadsInside ws t cwd below) (hwrite : t.write cwd below data = .ok t') :
    Prepared ws base t' := by
  obtain ⟨⟨sink, opened⟩, hopen, hwrite⟩ := bind_eq_ok hwrite
  obtain ⟨p, hp, hopen⟩ := openWrite_eq_ok hopen
  exact (h.opened hsite hp hopen hinside).writeAt (.opened h.sound hp hopen hinside) hwrite

/-- Names behind the path of the directory lead inside. -/
theorem Prepared.leadsInside (h : Prepared ws base t) {below : String} {names : List String}
    (hne : names ≠ []) (hplain : ∀ name ∈ names, Path.IsPlain name ∧ name ≠ "..")
    (hsplit : Text.split '/' below = Text.split '/' path ++ names)
    (habs : Path.isAbsolute below = Path.isAbsolute path) : LeadsInside ws t cwd below := by
  refine h.toUnlinked.leadsInside fun p hp => ⟨isReal_of_resolve hsite.real hp, ?_⟩
  obtain ⟨-, rfl⟩ := h.toUnlinked.resolve_join (hsite.leads_of_off h.off) hsite.isReal hne hplain
    hsplit habs hp
  exact List.prefix_append ws names

/-- **The directory of the inputs.** -/
theorem Prepared.makeDirectories (h : Prepared ws base t) {name : String} {r : Except Fault Unit}
    (hname : Path.IsPlain name) (hup : name ≠ "..") (hshort : name.utf8ByteSize ≤ maxName)
    (hmake : t.makeDirectories cwd (Path.join path name) = (r, t')) : Prepared ws base t' := by
  obtain ⟨mode, hmode, hsearch⟩ := h.directory
  have hpath := hsite.leads_of_off h.off
  obtain rfl | ⟨hnone, habove, rfl⟩ :=
    makeDirectories_join hname hup hshort hpath hmode hsearch hmake
  · exact h
  have hroot := ne_nil_of_get?_eq_none hnone
  have hne : ws ≠ ws ++ [name] := by simp
  have hdir : (t.put (ws ++ [name]) (.directory directoryMode)).get? ws = some (.directory mode) :=
    (get?_put_of_ne t _ hne).trans hmode
  have hunlinked : Unlinked ws (t.put (ws ++ [name]) (.directory directoryMode)) :=
    h.toUnlinked.insert h.sound hroot (.inl rfl)
  exact {
    sound := h.sound.insert (hsite.isReal.snoc hname.noSlash) hnone ⟨ws, name, mode, rfl, hmode⟩
      (Nat.le_refl _) fun _ hserial => nomatch hserial
    off := fun p hp hnot => by
      have hother : p ≠ ws ++ [name] := by
        rintro rfl
        exact hnot (List.prefix_append ws [name])
      rw [get?_put_of_ne t _ hother, h.off p hp hnot]
    here := fun n hn => by
      rw [hdir] at hn
      cases hn
      rfl
    guarded := isGuarded_insert h.guarded h.sound hsite.ne_nil habove fun _ =>
      ⟨by decide, by decide, by decide⟩
    plain := hunlinked.plain
    sole := hunlinked.sole
    directory := ⟨mode, hdir, hsearch⟩ }

end

end LangBundle.Files.Tree
