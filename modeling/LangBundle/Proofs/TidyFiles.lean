import LangBundle.Proofs.Confinement

/-!
# What the files below a directory hold

Below a directory without links each file has one name, so what is written to one of them stays
there until that one is written to again.

* `Path.Continues`: a path goes on behind another one.
* `Tidy`: a tree differs from another one below a directory only, and there are no links there.
* `Tidy.opened`, `Tidy.writeAt`: **opening and writing** change one file.
* `Shows`: the file that a path names holds some bytes.
* `Tidy.shows_of_read`, `Tidy.shows_iff`: **reading** gives what the file at a place holds.
-/

namespace LangBundle

/-- A path goes on behind another one with some names that lead straight down. -/
structure Path.Continues (path : String) (names : List String) (below : String) : Prop where
  ne_nil : names ≠ []
  plain : ∀ name ∈ names, IsPlain name ∧ name ≠ ".."
  split : Text.split '/' below = Text.split '/' path ++ names
  isAbsolute : isAbsolute below = isAbsolute path

theorem Path.continues_join {path name : String} (hpath : IsOpen path)
    (hname : IsPlain name ∧ name ≠ "..") : Continues path [name] (join path name) where
  ne_nil := List.cons_ne_nil name []
  plain n hn := by rwa [List.mem_singleton.1 hn]
  split := split_join hpath hname.1.noSlash
  isAbsolute := isAbsolute_join (isAbsolute_eq_false hname.1.noSlash) path

/-- The names are those that stand behind the path. -/
theorem Path.Continues.unique {path below : String} {names other : List String}
    (h : Continues path names below) (h' : Continues path other below) : other = names :=
  List.append_cancel_left (h'.split.symm.trans h.split)

/-- One more name. -/
theorem Path.Continues.join {path below name : String} {names : List String}
    (h : Continues path names below) (hbelow : IsOpen below) (hname : IsPlain name ∧ name ≠ "..") :
    Continues path (names ++ [name]) (Path.join below name) where
  ne_nil := by simp
  plain n hn := by
    obtain hn | hn := List.mem_append.1 hn
    · exact h.plain n hn
    · rwa [List.mem_singleton.1 hn]
  split := by rw [split_join hbelow hname.1.noSlash, h.split, List.append_assoc]
  isAbsolute := by
    rw [isAbsolute_join (isAbsolute_eq_false hname.1.noSlash), h.isAbsolute]

namespace Files

theorem overwrite_start (new : Bytes) : overwrite [] 0 new = new := by
  simp [overwrite]

theorem overwrite_end (data new : Bytes) : overwrite data data.length new = data ++ new := by
  simp [overwrite]

namespace Tree

/-- A tree differs from another one below a directory only, and there are no links there. -/
structure Tidy (ws : Place) (base t : Tree) : Prop extends Unlinked ws t where
  sound : t.IsSound
  off : ∀ p, IsReal p → ¬ ws <+: p → t.get? p = base.get? p

/-- The file at a place is open for writing, and it has a mode and holds some bytes. -/
def IsOpenAt (t : Tree) (p : Place) (sink : Sink) (mode : Nat) (data : Bytes) : Prop :=
  ∃ serial, sink = .file serial ∧ t.get? p = some (.file serial mode data)

/-- Two trees differ at one place only. -/
def AgreesOff (t t' : Tree) (p : Place) : Prop :=
  ∀ q, IsReal q → q ≠ p → t'.get? q = t.get? q

/-- The file that a path names holds some bytes. -/
def Shows (t : Tree) (cwd : Place) (path : String) (data : Bytes) : Prop :=
  ∃ serial mode, t.stat cwd path = .ok (.file serial mode data)

theorem AgreesOff.trans {t t' t'' : Tree} {p : Place} (h : t.AgreesOff t' p)
    (h' : t'.AgreesOff t'' p) : t.AgreesOff t'' p :=
  fun q hq hne => (h' q hq hne).trans (h q hq hne)

theorem Shows.unique {t : Tree} {cwd : Place} {path : String} {data other : Bytes}
    (h : t.Shows cwd path data) (h' : t.Shows cwd path other) : other = data := by
  obtain ⟨serial, mode, hstat⟩ := h
  obtain ⟨serial', mode', hstat'⟩ := h'
  rw [hstat] at hstat'
  cases hstat'
  rfl

section
variable {base t t' : Tree} {cwd ws p : Place} {path : String} {sink : Sink} {mode : Nat}
  {data new : Bytes}

theorem Prepared.tidy (h : Prepared ws base t) : Tidy ws base t :=
  ⟨h.toUnlinked, h.sound, h.off⟩

/-- An open file below the directory has no name elsewhere. -/
theorem Unlinked.staysInside (h : Unlinked ws t) (hreal : IsReal p) (hbelow : ws <+: p)
    (hopen : t.IsOpenAt p sink mode data) : StaysInside ws t sink := by
  obtain ⟨serial, rfl, hfile⟩ := hopen
  intro s q hsink hq hs
  cases hsink
  have hserial : t.serialAt? p = some serial := by
    rw [serialAt?, hfile]
    rfl
  rwa [h.sole p q serial hreal hq hbelow hserial hs]

/-- **Opening** a file makes it or empties it, and nothing else changes. -/
theorem Unlinked.opened_eq (h : Unlinked ws t) (hreal : IsReal p) (hbelow : ws <+: p)
    (hopen : t.Opened p sink t') :
    (∃ mode, t'.IsOpenAt p sink mode [] ∧ (t.get? p = none ∧ mode = fileMode ∨
      ∃ serial data, t.get? p = some (.file serial mode data))) ∧ t.AgreesOff t' p := by
  refine ⟨?_, fun q hq hne => hopen.get?_of_not_aliases ?_⟩
  · cases hopen with
    | made hnone _ =>
      exact ⟨_, ⟨_, rfl, get?_newFile_self t (ne_nil_of_get?_eq_none hnone) _⟩, .inl ⟨hnone, rfl⟩⟩
    | @emptied serial mode _ hfile =>
      refine ⟨mode, ⟨serial, rfl, ?_⟩, .inr ⟨serial, _, hfile⟩⟩
      rw [get?_modifyFile, hfile]
      simp [Node.modified]
    | same hnode hdir hfile _ =>
      obtain hdir' | ⟨serial, mode, data, rfl⟩ := h.plain p _ hreal hbelow hnode
      · rw [hdir] at hdir'
        cases hdir'
      · exact absurd rfl (hfile serial mode data)
  · rintro (rfl | ⟨serial, hps, hqs⟩)
    · exact hne rfl
    · exact hne (h.sole p q serial hreal hq hbelow hps hqs)

/-- **Writing** to an open file changes nothing else. -/
theorem Unlinked.writeAt_eq (h : Unlinked ws t) (hreal : IsReal p) (hbelow : ws <+: p)
    (hopen : t.IsOpenAt p sink mode data) {offset : Nat}
    (hwrite : t.writeAt sink offset new = .ok t') :
    t'.IsOpenAt p sink mode (overwrite data offset new) ∧ t.AgreesOff t' p := by
  obtain ⟨serial, rfl, hfile⟩ := hopen
  refine ⟨⟨serial, rfl, ?_⟩, fun q hq hne => get?_writeAt hwrite fun s hsink hs => hne ?_⟩
  · obtain ⟨s, hsink, rfl⟩ | ⟨hnot, -⟩ := writeAt_eq_ok hwrite
    · cases hsink
      rw [get?_modifyFile, hfile]
      simp [Node.modified]
    · exact absurd rfl (hnot serial)
  · cases hsink
    have hserial : t.serialAt? p = some serial := by
      rw [serialAt?, hfile]
      rfl
    exact h.sole p q serial hreal hq hbelow hserial hs

theorem Tidy.opened (h : Tidy ws base t) (hcwd : IsReal cwd) (hp : t.resolve cwd path = .ok p)
    (hbelow : ws <+: p) (hopen : t.Opened p sink t') : Tidy ws base t' where
  toUnlinked := h.toUnlinked.opened h.sound hopen
  sound := hopen.isSound h.sound hcwd hp
  off q hq hnot := by
    have hagree := (h.toUnlinked.opened_eq (isReal_of_resolve hcwd hp) hbelow hopen).2
    rw [hagree q hq fun heq => hnot (heq ▸ hbelow), h.off q hq hnot]

theorem Tidy.writeAt (h : Tidy ws base t) (hreal : IsReal p) (hbelow : ws <+: p)
    (hopen : t.IsOpenAt p sink mode data) {offset : Nat}
    (hwrite : t.writeAt sink offset new = .ok t') : Tidy ws base t' where
  toUnlinked := h.toUnlinked.writeAt hwrite
  sound := writeAt_isSound hwrite h.sound
  off q hq hnot := by
    have hagree := (h.toUnlinked.writeAt_eq hreal hbelow hopen hwrite).2
    rw [hagree q hq fun heq => hnot (heq ▸ hbelow), h.off q hq hnot]

/-- A path that goes on behind that of the directory leads to the place below it. -/
theorem Tidy.resolve_continues (h : Tidy ws base t) (hsite : base.Site cwd path ws)
    {names : List String} {below : String} (hbelow : Path.Continues path names below)
    {follow : Bool} (hp : t.resolve cwd below follow = .ok p) : p = ws ++ names :=
  (h.toUnlinked.resolve_join (hsite.leads_of_off h.off) hsite.isReal hbelow.ne_nil hbelow.plain
    hbelow.split hbelow.isAbsolute hp).2

/-! ## Reading -/

theorem require_eq_ok_iff {n : Node} {permission : Permission} :
    require n permission = .ok () ↔ n.allows permission = true := by
  unfold require
  split
  · next h => simp [h]
  · next h => simp [h]

theorem stat_eq_ok_iff {n : Node} :
    t.stat cwd path = .ok n ↔ ∃ p, t.resolve cwd path = .ok p ∧ t.get? p = some n := by
  constructor
  · intro hstat
    obtain ⟨p, hp, hn⟩ := bind_eq_ok hstat
    split at hn
    · next m hm =>
      cases hn
      exact ⟨p, hp, hm⟩
    · cases hn
  · rintro ⟨p, hp, hn⟩
    simp only [stat, hp, bind, Except.bind, hn]
    rfl

theorem shows_iff (hp : t.resolve cwd path = .ok p) :
    t.Shows cwd path data ↔ ∃ serial mode, t.get? p = some (.file serial mode data) := by
  refine exists_congr fun serial => exists_congr fun mode => ?_
  rw [stat_eq_ok_iff, hp]
  simp

/-- **Reading** a path that leads below the directory gives what the file there holds. -/
theorem Tidy.shows_of_read (h : Tidy ws base t) (hcwd : IsReal cwd)
    (hp : t.resolve cwd path = .ok p) (hbelow : ws <+: p) (hread : t.read cwd path = .ok data) :
    t.Shows cwd path data := by
  obtain ⟨source, hopen, hall⟩ := bind_eq_ok hread
  obtain ⟨n, hstat, hopen⟩ := bind_eq_ok hopen
  obtain ⟨p', hp', hn⟩ := stat_eq_ok_iff.1 hstat
  rw [hp] at hp'
  cases hp'
  obtain ⟨_, -, hsource⟩ := bind_eq_ok hopen
  obtain hdir | ⟨serial, mode, held, rfl⟩ := h.plain p n (isReal_of_resolve hcwd hp) hbelow hn
  · cases n with
    | directory _ =>
      cases hsource
      cases hall
    | _ => cases hdir
  · cases hsource
    simp only [readAll, h.sound.dataOf?_of_get? hn, Option.getD_some, Except.ok.injEq] at hall
    subst hall
    exact ⟨serial, mode, hstat⟩

/-- A file that has not changed shows what it showed. -/
theorem Shows.of_agree (h : t'.Shows cwd path data) (hshape : t.SameShape t')
    (hagree : ∀ p, t'.resolve cwd path = .ok p → t'.get? p = t.get? p) : t.Shows cwd path data := by
  obtain ⟨serial, mode, hstat⟩ := h
  obtain ⟨p, hp, hn⟩ := stat_eq_ok_iff.1 hstat
  refine ⟨serial, mode, stat_eq_ok_iff.2 ⟨p, resolve_of_sameShape hshape.symm hp, ?_⟩⟩
  rw [← hagree p hp, hn]

end

end Tree

end Files

end LangBundle
