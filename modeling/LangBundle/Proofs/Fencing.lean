import LangBundle.Proofs.Succeeding

/-!
# A workspace that can be removed at any time

What is written, even through a link to a file outside, leaves the workspace where it is and
removable.  Once it is removed, files can no more be made behind its path, but directories can.

* `Fenced`: outside the workspace all directories and links are as they were, and it can be removed.
* `Fenced.opened`, `Fenced.writeAt`: **files** that are made and written keep the fence.
* `Standing`, `Gone`: a fenced workspace that is there, and one that is not.
* `Fenced.removed`: **the removal**.
* `Gone.openWrite_fails`, `Gone.makeDirectories`: **after it**.
-/

namespace LangBundle.Files.Tree

/-- **Taking away** all that is below a place. -/
theorem IsSound.erase {t : Tree} (h : t.IsSound) {p : Place} (hp : p ≠ []) :
    (t.erase p).IsSound where
  nodup := List.Nodup.sublist (List.filter_sublist.map _) h.nodup
  real e he := h.real e (List.mem_filter.1 he).1
  above q name hreal hsome := by
    rw [get?_erase t hp] at hsome
    split at hsome
    · exact absurd rfl hsome
    · next hnot =>
      obtain ⟨mode, hmode⟩ := h.above q name hreal hsome
      refine ⟨mode, ?_⟩
      rw [get?_erase t hp, if_neg fun hbelow => hnot (hbelow.trans (List.prefix_append q [name])),
        hmode]
  serial e he := h.serial e (List.mem_filter.1 he).1
  same e he e' he' := h.same e (List.mem_filter.1 he).1 e' (List.mem_filter.1 he').1

/-- Outside a directory all directories and links are those of another tree, and the directory can
be removed. -/
structure Fenced (ws : Place) (base t : Tree) : Prop where
  sound : t.IsSound
  shape : ∀ p, IsReal p → ¬ ws <+: p → (t.get? p).bind Node.shape? = (base.get? p).bind Node.shape?
  here : ∀ n, t.get? ws = some n → n.isDirectory = true
  guarded : t.isGuarded ws = false

/-- A fenced directory that is there and admits names. -/
structure Standing (ws : Place) (base t : Tree) : Prop extends Fenced ws base t where
  directory : ∃ mode, t.get? ws = some (.directory mode) ∧ AdmitsNames (.directory mode)

/-- A fenced directory that is not there. -/
structure Gone (ws : Place) (base t : Tree) : Prop extends Fenced ws base t where
  none : t.get? ws = none

section
variable {base t t' : Tree} {cwd ws p : Place} {path : String} {sink : Sink}

theorem Confined.fenced (h : Confined ws base t) : Fenced ws base t where
  sound := h.sound
  shape p hp hnot := by rw [h.off p hp hnot]
  here := h.here
  guarded := h.guarded

/-- A fence around a fenced directory. -/
theorem Fenced.of_confined (h : Fenced ws base t) (hconfined : Confined ws t t') :
    Fenced ws base t' where
  sound := hconfined.sound
  shape p hp hnot := by rw [hconfined.off p hp hnot, h.shape p hp hnot]
  here := hconfined.here
  guarded := hconfined.guarded

theorem Gone.nothing (h : Gone ws base t) {q : Place} (hq : IsReal q) (hbelow : ws <+: q) :
    t.get? q = Option.none :=
  h.sound.nothing_below hq hbelow h.none

/-! ## Writing -/

/-- **Writing** keeps the fence, wherever the file is. -/
theorem Fenced.writeAt (h : Fenced ws base t) {offset : Nat} {new : Bytes}
    (hwrite : t.writeAt sink offset new = .ok t') : Fenced ws base t' where
  sound := writeAt_isSound hwrite h.sound
  shape p hp hnot := (writeAt_sameShape hwrite p).trans (h.shape p hp hnot)
  here n hn := by
    obtain ⟨serial, -, rfl⟩ | ⟨-, rfl⟩ := writeAt_eq_ok hwrite
    · rw [get?_modifyFile, Option.map_eq_some_iff] at hn
      obtain ⟨m, hm, rfl⟩ := hn
      have hdir := h.here m hm
      cases m with
      | directory mode => rfl
      | _ => cases hdir
    · exact h.here n hn
  guarded := writeAt_isGuarded h.guarded hwrite

theorem Standing.writeAt (h : Standing ws base t) {offset : Nat} {new : Bytes}
    (hwrite : t.writeAt sink offset new = .ok t') : Standing ws base t' where
  toFenced := h.toFenced.writeAt hwrite
  directory := by
    obtain ⟨mode, hmode, hadmits⟩ := h.directory
    exact ⟨mode, (writeAt_sameShape hwrite).directory hmode, hadmits⟩

theorem Gone.writeAt (h : Gone ws base t) {offset : Nat} {new : Bytes}
    (hwrite : t.writeAt sink offset new = .ok t') : Gone ws base t' where
  toFenced := h.toFenced.writeAt hwrite
  none := by
    obtain ⟨serial, -, rfl⟩ | ⟨-, rfl⟩ := writeAt_eq_ok hwrite
    · rw [get?_modifyFile, h.none]
      rfl
    · exact h.none

variable (hsite : base.Site cwd path ws)
include hsite

theorem Fenced.removable (h : Fenced ws base t) : t.Removable cwd path ws :=
  ⟨h.sound, hsite.leads_of_shape h.shape, h.here, h.guarded, hsite.above_of_shape h.shape⟩

/-- Behind the path of the directory there is something only while it is there. -/
theorem Fenced.ne_none (h : Fenced ws base t) {names : List String} {below : String}
    (hbelow : Path.Continues path names below) {follow : Bool}
    (hp : t.resolve cwd below follow = .ok p) : t.get? ws ≠ none := by
  have hlink (target : String) : t.get? ws ≠ some (.link target) := by
    intro hnode
    cases h.here _ hnode
  obtain ⟨left, hwalk⟩ := resolve_below (hsite.leads_of_shape h.shape) hlink hbelow.ne_nil
    hbelow.split hbelow.isAbsolute hp
  exact fun hnone => hbelow.ne_nil (hwalk.of_none hnone).1

/-- **A file** that is made or opened behind the path keeps the fence, wherever links lead. -/
theorem Fenced.opened (h : Fenced ws base t) {names : List String} {below : String}
    (hbelow : Path.Continues path names below) (hopen : t.openWrite cwd below = .ok (sink, t')) :
    Fenced ws base t' := by
  obtain ⟨p, hp, hopened⟩ := openWrite_eq_ok hopen
  have hsome := h.ne_none hsite hbelow hp
  exact {
    sound := hopened.isSound h.sound hsite.real hp
    shape := fun q hq hnot => (hopened.sameShape q).trans (h.shape q hq hnot)
    here := here_of_sameShape hopened.sameShape h.here hsome
    guarded := hopened.isGuarded h.guarded h.sound hsite.ne_nil }

theorem Standing.opened (h : Standing ws base t) {names : List String} {below : String}
    (hbelow : Path.Continues path names below) (hopen : t.openWrite cwd below = .ok (sink, t')) :
    Standing ws base t' where
  toFenced := h.toFenced.opened hsite hbelow hopen
  directory := by
    obtain ⟨mode, hmode, hadmits⟩ := h.directory
    obtain ⟨p, -, hopened⟩ := openWrite_eq_ok hopen
    exact ⟨mode, hopened.sameShape.directory hmode, hadmits⟩

/-- **No file** is made behind the path of a directory that is gone. -/
theorem Gone.openWrite_fails (h : Gone ws base t) {names : List String} {below : String}
    (hbelow : Path.Continues path names below) : ∃ fault, t.openWrite cwd below = .error fault := by
  rcases hopen : t.openWrite cwd below with fault | ⟨sink, t'⟩
  · exact ⟨fault, rfl⟩
  · obtain ⟨p, hp, -⟩ := openWrite_eq_ok hopen
    exact absurd h.none (h.ne_none hsite hbelow hp)

/-! ## Removing -/

theorem Gone.site (h : Gone ws base t) : t.Site cwd path ws :=
  ⟨h.sound, hsite.real, hsite.leads_of_shape h.shape, h.none, hsite.above_of_shape h.shape⟩

/-- **The removal.** -/
theorem Fenced.removed (h : Fenced ws base t) :
    Gone ws base (t.removeDirectoryTree cwd path).2 := by
  have hremovable := h.removable hsite
  rcases hnode : t.get? ws with _ | n
  · rw [removeDirectoryTree_of_none hremovable.leads hnode]
    exact ⟨h, hnode⟩
  · obtain ⟨mode, rfl⟩ : ∃ mode, n = .directory mode := by
      have hdir := h.here n hnode
      cases n with
      | directory mode => exact ⟨mode, rfl⟩
      | _ => cases hdir
    rw [removeDirectoryTree_of_directory h.guarded hremovable.leads hnode hremovable.above]
    have hsound := h.sound.erase hsite.ne_nil
    have hnone : (t.erase ws).get? ws = Option.none := by
      rw [get?_erase t hsite.ne_nil, if_pos List.prefix_rfl]
    refine ⟨⟨hsound, fun p hp hnot => ?_, fun n hn => ?_, ?_⟩, hnone⟩
    · rw [get?_erase t hsite.ne_nil, if_neg hnot]
      exact h.shape p hp hnot
    · rw [hnone] at hn
      cases hn
    · exact hsound.isGuarded_of_none hsite.isReal hnone

/-! ## Making directories -/

/-- **A directory** that is made in one that stands. -/
theorem Standing.makeDirectories (h : Standing ws base t) {name : String} {r : Except Fault Unit}
    (hname : Path.IsPlain name ∧ name ≠ "..") (hshort : name.utf8ByteSize ≤ maxName)
    (hmake : t.makeDirectories cwd (Path.join path name) = (r, t')) : Standing ws base t' := by
  obtain ⟨mode, hmode, hadmits⟩ := h.directory
  have hsearch : mode &&& Permission.execute.bit ≠ 0 := by
    simpa [Node.allows, Node.mode] using hadmits.2
  obtain rfl | ⟨hnone, habove, rfl⟩ := makeDirectories_join hname.1 hname.2 hshort
    (hsite.leads_of_shape h.shape) hmode hsearch hmake
  · exact h
  have hdir : (t.put (ws ++ [name]) (.directory directoryMode)).get? ws = some (.directory mode) :=
    (get?_put_of_ne t _ (by simp)).trans hmode
  refine ⟨⟨?_, fun p hp hnot => ?_, fun n hn => ?_, ?_⟩, mode, hdir, hadmits⟩
  · exact h.sound.insert (hsite.isReal.snoc hname.1.noSlash) hnone ⟨ws, name, mode, rfl, hmode⟩
      (Nat.le_refl _) fun _ hserial => by cases hserial
  · have hother : p ≠ ws ++ [name] := by
      rintro rfl
      exact hnot (List.prefix_append ws [name])
    rw [get?_put_of_ne t _ hother]
    exact h.shape p hp hnot
  · rw [hdir] at hn
    cases hn
    rfl
  · exact isGuarded_insert h.guarded h.sound hsite.ne_nil habove fun _ =>
      ⟨by decide, by decide, by decide⟩

end

/-- Nothing is found behind a path that leads to nothing. -/
theorem resolve_of_none {t : Tree} {cwd ws : Place} {path name : String}
    (hleads : t.resolve cwd path false = .ok ws) (hnone : t.get? ws = none)
    (hname : Path.IsPlain name ∧ name ≠ "..") (hopen : Path.IsOpen path)
    (hroom : Path.HasRoom (Path.join path name) 0) (follow : Bool) :
    t.resolve cwd (Path.join path name) follow = .error .notFound := by
  have hbelow := Path.continues_join hopen hname
  obtain ⟨left, hleft⟩ := (resolve_eq_ok_iff.1 hleads).2.append fun target hnode => by
    rw [hnone] at hnode
    cases hnode
  have hnul : ¬ (Path.join path name).toList.contains '\x00' = true := by simpa using hroom.noNul
  have hempty : (Path.join path name).isEmpty = false := by simpa using hroom.not_empty
  have hlong : ¬ maxPath ≤ (Path.join path name).utf8ByteSize := Nat.not_le_of_lt hroom.short
  have hwalk := hleft follow [name] (List.cons_ne_nil name [])
  rw [walk_cons, hnone] at hwalk
  rw [resolve, if_neg hnul, if_neg (by simp [hempty]), if_neg hlong, hbelow.isAbsolute,
    hbelow.split, hwalk]

/-- **A directory that is gone** is made again by making one behind its path. -/
theorem Gone.makeDirectories {base t : Tree} {cwd ws : Place} {root dir name : String}
    (hsite : base.Site cwd (Path.join root dir) ws) (h : Gone ws base t) (hdir : Path.IsPlain dir)
    (hname : Path.IsPlain name ∧ name ≠ "..") (hshort : name.utf8ByteSize ≤ maxName)
    (hnormal : Path.normal (Path.join root dir) = Path.join root dir)
    (hroom : Path.HasRoom (Path.join (Path.join root dir) name) 0) :
    Standing ws base (t.makeDirectories cwd (Path.join (Path.join root dir) name)).2 := by
  have hopen := Path.isOpen_join hdir root
  have hagain := h.site hsite
  have hprepared : Prepared ws t (t.put ws (.directory directoryMode)) :=
    hagain.prepared (by decide) ⟨by decide, by decide⟩
  -- the first attempt finds no directory to make the second one in, so that one is made first
  have hfirst : t.makeDirectory cwd (Path.join (Path.join root dir) name) = .error .notFound := by
    rw [makeDirectory, withoutSlashes_of_isOpen hroom.toIsOpen,
      resolve_of_none hagain.leads h.none hname hopen hroom]
    rfl
  have habove : t.makeDirectory cwd (Path.join root dir) =
      .ok (t.put ws (.directory directoryMode)) := by
    simp only [makeDirectory, withoutSlashes_of_isOpen hopen, hagain.leads, bind, Except.bind,
      h.none, hagain.above]
    rfl
  have hput : (t.put ws (.directory directoryMode)).get? ws = some (.directory directoryMode) :=
    get?_put_self t _ hsite.ne_nil
  have hempty : (t.put ws (.directory directoryMode)).get? (ws ++ [name]) = Option.none := by
    rw [get?_put_of_ne t _ (by simp)]
    exact h.nothing (hsite.isReal.snoc hname.1.noSlash) (List.prefix_append ws [name])
  obtain ⟨-, hsecond⟩ := makeDirectory_ok hname hshort (hagain.leads_of_off hprepared.off) hroom
    hopen hput ⟨by decide, by decide⟩ (by simp [hempty])
  rw [if_pos hempty] at hsecond
  have hnul : (Path.join (Path.join root dir) name).toList.contains '\x00' = false := by
    simpa using hroom.noNul
  have hjoin := Path.normal_join_of_normal hopen hnormal hname.1
  rw [Path.normal, Path.isAbsolute_join (Path.isAbsolute_eq_false hname.1.noSlash),
    Path.names_join hname.1, Path.names_join hdir] at hjoin
  have hpath := hnormal
  rw [Path.normal, Path.names_join hdir] at hpath
  have hmade : t.makeDirectories cwd (Path.join (Path.join root dir) name) = (.ok (),
      (t.put ws (.directory directoryMode)).put (ws ++ [name]) (.directory directoryMode)) := by
    rw [Tree.makeDirectories, hnul, if_neg Bool.false_ne_true,
      Path.isAbsolute_join (Path.isAbsolute_eq_false hname.1.noSlash), Path.names_join hname.1,
      Path.names_join hdir, List.reverse_append, List.reverse_append, List.reverse_singleton,
      List.reverse_singleton, List.singleton_append, List.singleton_append, makeDirectoriesUp,
      makeDirectoriesUp]
    simp only [List.reverse_cons, List.reverse_reverse, hjoin, hpath, makeDirectoryOver, hfirst,
      habove, hsecond]
  have hstanding : Standing ws base (t.put ws (.directory directoryMode)) :=
    ⟨h.toFenced.of_confined hprepared.toConfined, directoryMode, hput, by decide, by decide⟩
  have hagainMade := makeDirectories_ok hname hshort (hagain.leads_of_off hprepared.off) hroom hopen
    hnormal hput ⟨by decide, by decide⟩ (by simp [hempty])
  rw [if_pos hempty] at hagainMade
  rw [hmade]
  exact hstanding.makeDirectories hsite hname hshort hagainMade

end LangBundle.Files.Tree
