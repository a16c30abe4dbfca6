import LangBundle.Proofs.LocalViews

/-!
# Directories that hold the same

Two directories of two trees hold the same if the same is to be seen in them and the same names are
names of one file.  Then a path within one of them and the same path within the other one come to
the same, whatever is done through them, and the directories go on to hold the same.

* `Tree.Twins`: two directories hold the same.
* `Tree.EndAlike`: two operations have related results, or fail alike.
* `Twins.stat`, `Twins.openRead`: **looking** and reading come to the same.
* `Twins.openWrite`, `Twins.writeAt`, `Twins.write`: **writing** does the same.
-/

namespace LangBundle.Files.Tree

/-- Two directories hold the same: the same is to be seen in them, and the same names are names of
one file. -/
structure Twins (ws ws' : Place) (t t' : Tree) : Prop where
  view : t.view ws = t'.view ws'
  names : ∀ p q, IsReal p → IsReal q →
    (t.serialAt? (ws ++ p) = t.serialAt? (ws ++ q) ↔
      t'.serialAt? (ws' ++ p) = t'.serialAt? (ws' ++ q))

/-- An operation fails, and not because something is not there. -/
def IsHindered {α : Type} (x : Except Fault α) : Prop :=
  ∃ fault, x = .error fault ∧ fault ≠ .notFound

/-- Two operations have related results or fail alike; with `slack`, either of them may also be
hindered on its own. -/
def EndAlike {α β : Type} (slack : Prop) (R : α → β → Prop) (x : Except Fault α)
    (y : Except Fault β) : Prop :=
  (∃ a b, x = .ok a ∧ y = .ok b ∧ R a b) ∨ (∃ fault, x = .error fault ∧ y = .error fault) ∨
    slack ∧ (IsHindered x ∨ IsHindered y)

/-- **One after the other.** -/
theorem EndAlike.bind {α β γ δ : Type} {slack : Prop} {R : α → β → Prop} {S : γ → δ → Prop}
    {x : Except Fault α} {y : Except Fault β} {k : α → Except Fault γ} {k' : β → Except Fault δ}
    (h : EndAlike slack R x y) (hk : ∀ a b, R a b → EndAlike slack S (k a) (k' b)) :
    EndAlike slack S (x >>= k) (y >>= k') := by
  obtain ⟨a, b, rfl, rfl, hab⟩ | ⟨fault, rfl, rfl⟩ |
    ⟨hslack, ⟨fault, rfl, hne⟩ | ⟨fault, rfl, hne⟩⟩ := h
  · exact hk a b hab
  · exact .inr (.inl ⟨fault, rfl, rfl⟩)
  · exact .inr (.inr ⟨hslack, .inl ⟨fault, rfl, hne⟩⟩)
  · exact .inr (.inr ⟨hslack, .inr ⟨fault, rfl, hne⟩⟩)

/-- Two places are the same place below two directories, of which the first one is there. -/
def SamePlace (ws ws' : Place) (t : Tree) (p p' : Place) : Prop :=
  ∃ q, IsReal q ∧ (∃ mode, t.get? ws = some (.directory mode)) ∧ p = ws ++ q ∧ p' = ws' ++ q

/-- Two files that are open for writing have the same name below two directories, or what is open
is no file. -/
inductive SinksAlike (ws ws' : Place) (t t' : Tree) : Sink → Sink → Prop
  | file {q : Place} {serial serial' : Nat} (hq : IsReal q)
      (hat : t.serialAt? (ws ++ q) = some serial) (hat' : t'.serialAt? (ws' ++ q) = some serial') :
      SinksAlike ws ws' t t' (.file serial) (.file serial')
  | device (kind : Device) : SinksAlike ws ws' t t' (.device kind) (.device kind)
  | pipe (serial serial' : Nat) : SinksAlike ws ws' t t' (.pipe serial) (.pipe serial')

/-- Two open files have the same name below two directories and hold the same, or what is open is no
file. -/
inductive SourcesAlike (ws ws' : Place) (t t' : Tree) : Source → Source → Prop
  | file {q : Place} {serial serial' mode : Nat} {data : Bytes} (hq : IsReal q)
      (hat : t.get? (ws ++ q) = some (.file serial mode data))
      (hat' : t'.get? (ws' ++ q) = some (.file serial' mode data)) :
      SourcesAlike ws ws' t t' (.file serial) (.file serial')
  | directory : SourcesAlike ws ws' t t' .directory .directory
  | device (kind : Device) : SourcesAlike ws ws' t t' (.device kind) (.device kind)
  | pipe (serial serial' : Nat) : SourcesAlike ws ws' t t' (.pipe serial) (.pipe serial')
  | empty : SourcesAlike ws ws' t t' .empty .empty

/-- Two nodes with the same to be seen of them. -/
inductive NodesAlike : Node → Node → Prop
  | file (serial serial' mode : Nat) (data : Bytes) :
      NodesAlike (.file serial mode data) (.file serial' mode data)
  | pipe (serial serial' mode : Nat) : NodesAlike (.pipe serial mode) (.pipe serial' mode)
  | same {n : Node} (h : n.serial? = none) : NodesAlike n n

theorem nodesAlike_of_bare {n n' : Node} (h : n.bare = n'.bare) : NodesAlike n n' := by
  cases n <;> cases n' <;> cases h
  case file => exact .file _ _ _ _
  case pipe => exact .pipe _ _ _
  all_goals exact .same rfl

namespace NodesAlike

variable {n n' : Node} (h : NodesAlike n n')
include h

theorem require (p : Permission) : Tree.require n p = Tree.require n' p := by
  cases h <;> rfl

theorem modified {s s' : Nat} (hserial : n.serial? = some s ↔ n'.serial? = some s')
    (f : Bytes → Bytes) : (n.modified s f).bare = (n'.modified s' f).bare := by
  cases h with
  | file serial serial' mode data =>
    have hiff : serial = s ↔ serial' = s' := by simpa [Node.serial?] using hserial
    simp [Node.modified, Node.bare, hiff]
  | pipe => rfl
  | @same n hnone => cases n <;> first | rfl | cases hnone

end NodesAlike

namespace Twins

variable {ws ws' q : Place} {t t' : Tree}

theorem symm (h : Twins ws ws' t t') : Twins ws' ws t' t :=
  ⟨h.view.symm, fun p q hp hq => (h.names p q hp hq).symm⟩

theorem bare (h : Twins ws ws' t t') (hq : IsReal q) :
    (t.get? (ws ++ q)).map Node.bare = (t'.get? (ws' ++ q)).map Node.bare :=
  view_eq_iff.1 h.view q hq

/-- What is at the same place in both of them. -/
theorem nodes (h : Twins ws ws' t t') (hq : IsReal q) :
    (t.get? (ws ++ q) = none ∧ t'.get? (ws' ++ q) = none) ∨
      ∃ n n', t.get? (ws ++ q) = some n ∧ t'.get? (ws' ++ q) = some n' ∧ NodesAlike n n' := by
  have hbare := h.bare hq
  rcases hn : t.get? (ws ++ q) with _ | n <;> rcases hn' : t'.get? (ws' ++ q) with _ | n'
  · exact .inl ⟨rfl, rfl⟩
  · simp [hn, hn'] at hbare
  · simp [hn, hn'] at hbare
  · rw [hn, hn'] at hbare
    exact .inr ⟨n, n', rfl, rfl, nodesAlike_of_bare (Option.some.inj hbare)⟩

/-- A place is a name of a file in one of them as it is in the other one. -/
theorem serialAt?_iff (h : Twins ws ws' t t') {p : Place} (hp : IsReal p) (hq : IsReal q)
    {s s' : Nat} (hs : t.serialAt? (ws ++ p) = some s) (hs' : t'.serialAt? (ws' ++ p) = some s') :
    t.serialAt? (ws ++ q) = some s ↔ t'.serialAt? (ws' ++ q) = some s' := by
  rw [← hs, ← hs']
  exact h.names q p hq hp

/-! ## Changing files -/

/-- **The same change** to the same file. -/
theorem modifyFile (h : Twins ws ws' t t') {p : Place} (hp : IsReal p) {s s' : Nat}
    (hs : t.serialAt? (ws ++ p) = some s) (hs' : t'.serialAt? (ws' ++ p) = some s')
    (f : Bytes → Bytes) : Twins ws ws' (t.modifyFile s f) (t'.modifyFile s' f) where
  view := view_eq_iff.2 fun q hq => by
    have hiff := h.serialAt?_iff hp hq hs hs'
    rw [get?_modifyFile, get?_modifyFile]
    obtain ⟨hn, hn'⟩ | ⟨n, n', hn, hn', halike⟩ := h.nodes hq
    · rw [hn, hn']
      rfl
    · rw [serialAt?, serialAt?, hn, hn'] at hiff
      rw [hn, hn']
      exact congrArg some (halike.modified hiff f)
  names p q hp hq := by
    simp only [serialAt?_modifyFile]
    exact h.names p q hp hq

/-- **A new file** at the same place. -/
theorem newFile (h : Twins ws ws' t t') (hsound : t.IsSound) (hsound' : t'.IsSound) {p : Place}
    (hp : IsReal p) (hroot : ws ++ p ≠ []) (hroot' : ws' ++ p ≠ []) :
    Twins ws ws' (t.newFile (ws ++ p)) (t'.newFile (ws' ++ p)) where
  view := view_eq_iff.2 fun q hq => by
    by_cases hqp : q = p
    · subst hqp
      rw [get?_newFile_self t hroot, get?_newFile_self t' hroot']
      rfl
    · rw [get?_newFile_of_ne t (by simpa using hqp), get?_newFile_of_ne t' (by simpa using hqp)]
      exact h.bare hq
  names q r hq hr := by
    have hfresh (q : Place) : t.serialAt? (ws ++ q) ≠ some t.nextSerial := fun heq =>
      absurd (hsound.serialAt?_lt heq) (Nat.lt_irrefl _)
    have hfresh' (q : Place) : t'.serialAt? (ws' ++ q) ≠ some t'.nextSerial := fun heq =>
      absurd (hsound'.serialAt?_lt heq) (Nat.lt_irrefl _)
    have hat (q : Place) : (t.newFile (ws ++ p)).serialAt? (ws ++ q) =
        if q = p then some t.nextSerial else t.serialAt? (ws ++ q) := by
      split
      · next hqp => rw [hqp, serialAt?_newFile_self t hroot]
      · next hqp => rw [serialAt?_newFile_of_ne t (by simpa using hqp)]
    have hat' (q : Place) : (t'.newFile (ws' ++ p)).serialAt? (ws' ++ q) =
        if q = p then some t'.nextSerial else t'.serialAt? (ws' ++ q) := by
      split
      · next hqp => rw [hqp, serialAt?_newFile_self t' hroot']
      · next hqp => rw [serialAt?_newFile_of_ne t' (by simpa using hqp)]
    rw [hat, hat, hat', hat']
    by_cases hqp : q = p <;> by_cases hrp : r = p
    · simp [hqp, hrp]
    · simp [hqp, hrp, (hfresh r).symm, (hfresh' r).symm]
    · simp [hqp, hrp, hfresh q, hfresh' q]
    · simpa [hqp, hrp] using h.names q r hq hr

/-! ## Looking and reading -/

section
variable {slack : Prop} {cwd cwd' : Place} {below below' : String} (h : Twins ws ws' t t')
  (hlead : EndAlike slack (SamePlace ws ws' t) (t.resolve cwd below) (t'.resolve cwd' below'))
include h hlead

/-- **Looking** at a path. -/
theorem stat : EndAlike slack (fun n n' => NodesAlike n n' ∧ ∃ q, IsReal q ∧
    t.get? (ws ++ q) = some n ∧ t'.get? (ws' ++ q) = some n')
    (t.stat cwd below) (t'.stat cwd' below') := by
  unfold Tree.stat
  obtain ⟨_, _, hr, hr', q, hq, -, rfl, rfl⟩ | ⟨fault, hr, hr'⟩ |
    ⟨hslack, ⟨fault, hr, hne⟩ | ⟨fault, hr, hne⟩⟩ := hlead
  · rw [hr, hr']
    dsimp only [bind, Except.bind]
    obtain ⟨hn, hn'⟩ | ⟨n, n', hn, hn', halike⟩ := h.nodes hq
    · rw [hn, hn']
      exact .inr (.inl ⟨_, rfl, rfl⟩)
    · rw [hn, hn']
      exact .inl ⟨n, n', rfl, rfl, halike, q, hq, hn, hn'⟩
  · rw [hr, hr']
    exact .inr (.inl ⟨fault, rfl, rfl⟩)
  · rw [hr]
    exact .inr (.inr ⟨hslack, .inl ⟨fault, rfl, hne⟩⟩)
  · rw [hr]
    exact .inr (.inr ⟨hslack, .inr ⟨fault, rfl, hne⟩⟩)

/-- **Opening** for reading. -/
theorem openRead :
    EndAlike slack (SourcesAlike ws ws' t t') (t.openRead cwd below) (t'.openRead cwd' below') := by
  unfold Tree.openRead
  obtain ⟨n, n', hstat, hstat', halike, q, hq, hn, hn'⟩ | ⟨fault, hstat, hstat'⟩ |
    ⟨hslack, ⟨fault, hstat, hne⟩ | ⟨fault, hstat, hne⟩⟩ := h.stat hlead
  · rw [hstat, hstat']
    dsimp only [bind, Except.bind]
    rw [halike.require]
    rcases Tree.require n' .read with fault | _
    · exact .inr (.inl ⟨fault, rfl, rfl⟩)
    cases halike with
    | file => exact .inl ⟨_, _, rfl, rfl, .file hq hn hn'⟩
    | pipe => exact .inl ⟨_, _, rfl, rfl, .pipe _ _⟩
    | same hnone =>
      cases n with
      | directory _ => exact .inl ⟨_, _, rfl, rfl, .directory⟩
      | file _ _ _ => cases hnone
      | link _ => exact .inl ⟨_, _, rfl, rfl, .empty⟩
      | pipe _ _ => cases hnone
      | device kind =>
        cases kind with
        | terminal => exact .inr (.inl ⟨_, rfl, rfl⟩)
        | _ => exact .inl ⟨_, _, rfl, rfl, .device _⟩
      | program _ => exact .inl ⟨_, _, rfl, rfl, .empty⟩
  · rw [hstat, hstat']
    exact .inr (.inl ⟨fault, rfl, rfl⟩)
  · rw [hstat]
    exact .inr (.inr ⟨hslack, .inl ⟨fault, rfl, hne⟩⟩)
  · rw [hstat]
    exact .inr (.inr ⟨hslack, .inr ⟨fault, rfl, hne⟩⟩)

/-! ## Writing -/

/-- **Opening** for writing. -/
theorem openWrite (hsound : t.IsSound) (hsound' : t'.IsSound) (hopen : Path.IsOpen below)
    (hopen' : Path.IsOpen below') :
    EndAlike slack (fun a b => Twins ws ws' a.2 b.2 ∧ SinksAlike ws ws' a.2 b.2 a.1 b.1)
      (t.openWrite cwd below) (t'.openWrite cwd' below') := by
  unfold Tree.openWrite
  simp only [hopen.last, hopen'.last, decide_false, Bool.not_false, if_false]
  obtain ⟨_, _, hr, hr', q, hq, ⟨mode, hws⟩, rfl, rfl⟩ | ⟨fault, hr, hr'⟩ |
    ⟨hslack, ⟨fault, hr, hne⟩ | ⟨fault, hr, hne⟩⟩ := hlead
  · rw [hr, hr']
    dsimp only
    obtain ⟨hn, hn'⟩ | ⟨n, n', hn, hn', halike⟩ := h.nodes hq
    · -- the directory is there, so the place of the new file is below it
      have hne : q ≠ [] := by
        rintro rfl
        rw [List.append_nil, hws] at hn
        cases hn
      have habove : t.requireAbove (ws ++ q) = t'.requireAbove (ws' ++ q) := by
        rw [requireAbove, requireAbove, List.dropLast_append_of_ne_nil hne,
          List.dropLast_append_of_ne_nil hne]
        obtain ⟨hn, hn'⟩ | ⟨n, n', hn, hn', halike⟩ := h.nodes hq.dropLast
        · rw [hn, hn']
        · simp only [hn, hn', halike.require]
      rw [hn, hn']
      dsimp only [bind, Except.bind]
      rw [habove]
      rcases t'.requireAbove (ws' ++ q) with fault | _
      · exact .inr (.inl ⟨fault, rfl, rfl⟩)
      · have hroot : ws ++ q ≠ [] := by simp [hne]
        have hroot' : ws' ++ q ≠ [] := by simp [hne]
        exact .inl ⟨_, _, rfl, rfl, h.newFile hsound hsound' hq hroot hroot',
          .file hq (serialAt?_newFile_self t hroot _) (serialAt?_newFile_self t' hroot' _)⟩
    · have hrequire := halike.require .write
      rw [hn, hn']
      cases halike with
      | file serial serial' =>
        dsimp only [bind, Except.bind]
        rw [hrequire]
        split
        · exact .inr (.inl ⟨_, rfl, rfl⟩)
        · have hat : t.serialAt? (ws ++ q) = some serial := by rw [serialAt?, hn]; rfl
          have hat' : t'.serialAt? (ws' ++ q) = some serial' := by rw [serialAt?, hn']; rfl
          exact .inl ⟨_, _, rfl, rfl, h.modifyFile hq hat hat' _,
            .file hq (by rwa [serialAt?_modifyFile]) (by rwa [serialAt?_modifyFile])⟩
      | pipe =>
        dsimp only [bind, Except.bind]
        rw [hrequire]
        split
        · exact .inr (.inl ⟨_, rfl, rfl⟩)
        · exact .inl ⟨_, _, rfl, rfl, h, .pipe _ _⟩
      | same hnone =>
        cases n with
        | file _ _ _ => cases hnone
        | pipe _ _ => cases hnone
        | directory _ => exact .inr (.inl ⟨_, rfl, rfl⟩)
        | link target =>
          dsimp only [bind, Except.bind]
          rcases Tree.require (.link target) .write <;> exact .inr (.inl ⟨_, rfl, rfl⟩)
        | program name =>
          dsimp only [bind, Except.bind]
          rcases Tree.require (.program name) .write <;> exact .inr (.inl ⟨_, rfl, rfl⟩)
        | device kind =>
          cases kind with
          | terminal => exact .inr (.inl ⟨_, rfl, rfl⟩)
          | _ => exact .inl ⟨_, _, rfl, rfl, h, .device _⟩
  · rw [hr, hr']
    exact .inr (.inl ⟨fault, rfl, rfl⟩)
  · rw [hr]
    exact .inr (.inr ⟨hslack, .inl ⟨fault, rfl, hne⟩⟩)
  · rw [hr]
    exact .inr (.inr ⟨hslack, .inr ⟨fault, rfl, hne⟩⟩)

end

/-- **Writing** into open files. -/
theorem writeAt {slack : Prop} (h : Twins ws ws' t t') {sink sink' : Sink}
    (hsinks : SinksAlike ws ws' t t' sink sink') (offset : Nat) (new : Bytes) :
    EndAlike slack (Twins ws ws') (t.writeAt sink offset new) (t'.writeAt sink' offset new) := by
  cases hsinks with
  | file hq hat hat' => exact .inl ⟨_, _, rfl, rfl, h.modifyFile hq hat hat' _⟩
  | device kind =>
    cases kind with
    | full =>
      simp only [Tree.writeAt]
      split
      · exact .inl ⟨_, _, rfl, rfl, h⟩
      · exact .inr (.inl ⟨_, rfl, rfl⟩)
    | _ => exact .inl ⟨_, _, rfl, rfl, h⟩
  | pipe => exact .inl ⟨_, _, rfl, rfl, h⟩

/-- **Writing** a file. -/
theorem write {slack : Prop} {cwd cwd' : Place} {below below' : String} (h : Twins ws ws' t t')
    (hlead : EndAlike slack (SamePlace ws ws' t) (t.resolve cwd below) (t'.resolve cwd' below'))
    (hsound : t.IsSound) (hsound' : t'.IsSound) (hopen : Path.IsOpen below)
    (hopen' : Path.IsOpen below') (data : Bytes) :
    EndAlike slack (Twins ws ws') (t.write cwd below data) (t'.write cwd' below' data) :=
  (h.openWrite hlead hsound hsound' hopen hopen').bind fun _ _ ⟨htwins, hsinks⟩ =>
    htwins.writeAt hsinks 0 data

end Twins

/-- Reading open files that hold the same. -/
theorem SourcesAlike.readAll {ws ws' : Place} {t t' : Tree} {source source' : Source}
    (hsources : SourcesAlike ws ws' t t' source source') (hsound : t.IsSound)
    (hsound' : t'.IsSound) : t.readAll source = t'.readAll source' := by
  cases hsources with
  | file _ hat hat' =>
    rw [Tree.readAll, Tree.readAll, hsound.dataOf?_of_get? hat, hsound'.dataOf?_of_get? hat']
  | _ => rfl

/-! ## Paths -/

section
variable {slack : Prop} {ws ws' cwd cwd' : Place} {path path' below below' : String}
  {left left' : Nat} {names : List String} {t t' : Tree}

/-- **Paths** that go on in the same way behind those of two directories which hold the same. -/
theorem Twins.resolve (h : Twins ws ws' t t') (hreach : t.Reaches cwd path ws left)
    (hreach' : t'.Reaches cwd' path' ws' left') (hbelow : Path.Continues path names below)
    (hbelow' : Path.Continues path' names below') (hstays : StaysIn (t.view ws) names)
    (hexact : slack ∨ below' = below ∧ left' = left) :
    EndAlike slack (SamePlace ws ws' t) (t.resolve cwd below) (t'.resolve cwd' below') := by
  obtain ⟨res, hres, hreal, hresolve⟩ := resolve_within hreach hbelow hstays
  obtain ⟨res', hres', -, hresolve'⟩ := resolve_within hreach' hbelow' (h.view ▸ hstays)
  rw [← h.view] at hres'
  have hsame {res : Except Fault Place}
      (hreal : ∀ q, res = .ok q → IsReal q ∧ ∃ mode, t.get? ws = some (.directory mode)) :
      EndAlike slack (SamePlace ws ws' t) (res.map (ws ++ ·)) (res.map (ws' ++ ·)) := by
    cases res with
    | error fault => exact .inr (.inl ⟨fault, rfl, rfl⟩)
    | ok q =>
      obtain ⟨hq, hws⟩ := hreal q rfl
      exact .inl ⟨_, _, rfl, rfl, q, hq, hws, rfl, rfl⟩
  rw [hresolve, hresolve']
  obtain hslack | ⟨rfl, rfl⟩ := hexact
  · have hor : res' = res ∨ res = .error .tooManyLinks ∨ res' = .error .tooManyLinks := by
      obtain hle | hle := Nat.le_total left left'
      · obtain h | h := walkWithin_of_le hle hres' <;> rw [hres] at h <;> cases h
        · exact .inl rfl
        · exact .inr (.inl rfl)
      · obtain h | h := walkWithin_of_le hle hres <;> rw [hres'] at h <;> cases h
        · exact .inl rfl
        · exact .inr (.inr rfl)
    have hfail {α β : Type} {R : α → β → Prop} {x : Except Fault α} {y : Except Fault β}
        (h : IsHindered x ∨ IsHindered y) : EndAlike slack R x y :=
      .inr (.inr ⟨hslack, h⟩)
    split
    · exact hfail (.inl ⟨_, rfl, by decide⟩)
    split
    · exact hfail (.inl ⟨_, rfl, by decide⟩)
    split
    · exact hfail (.inr ⟨_, rfl, by decide⟩)
    split
    · exact hfail (.inr ⟨_, rfl, by decide⟩)
    obtain rfl | rfl | rfl := hor
    · exact hsame hreal
    · exact hfail (.inl ⟨_, rfl, by decide⟩)
    · exact hfail (.inr ⟨_, rfl, by decide⟩)
  · rw [hres] at hres'
    cases hres'
    split
    · exact .inr (.inl ⟨_, rfl, rfl⟩)
    · split
      · exact .inr (.inl ⟨_, rfl, rfl⟩)
      · exact hsame hreal

end

end LangBundle.Files.Tree
