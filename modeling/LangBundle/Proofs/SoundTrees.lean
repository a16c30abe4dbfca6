import Mathlib.Tactic.ByContra
import LangBundle.Proofs.Writing

/-!
# Sound trees

A tree as a file system keeps it: a place is listed once, what is somewhere is in a directory, the
next serial number is new, and all names of a file show the same file.

* `IsSound.nothing_below`: below a place where nothing is there is nothing.
* `IsSound.dataOf?_of_get?`: an open file holds what its names show.
* `IsSound.hasAbove_of_resolve`: where a path leads to nothing, the directory above is there.
* `IsSound.insert`, `Opened.isSound`, `writeAt_isSound`: **making and writing** keep a tree sound.
* `isGuarded_insert`, `Opened.isGuarded`, `writeAt_isGuarded`: they keep a directory removable.
* `removeDirectoryTree_of_directory`: **removing** it takes it and all below it away.
-/

namespace LangBundle.Files.Tree

/-- A tree as a file system keeps it. -/
structure IsSound (t : Tree) : Prop where
  nodup : (t.entries.map Prod.fst).Nodup
  real : ∀ e ∈ t.entries, IsReal e.1 ∨ ∃ serial, e.1 = hiddenPlace serial
  above : ∀ p name, IsReal (p ++ [name]) → t.get? (p ++ [name]) ≠ none →
    ∃ mode, t.get? p = some (.directory mode)
  serial : ∀ e ∈ t.entries, ∀ serial, e.2.serial? = some serial → serial < t.nextSerial
  same : ∀ e ∈ t.entries, ∀ e' ∈ t.entries, ∀ serial, e.2.serial? = some serial →
    e'.2.serial? = some serial → e.2 = e'.2

/-- What is at a place is listed. -/
theorem mem_of_get? {t : Tree} {p : Place} {n : Node} (hp : p ≠ []) (h : t.get? p = some n) :
    (p, n) ∈ t.entries := by
  rw [get?_eq_lookup t hp, List.lookup_eq_some_iff] at h
  obtain ⟨before, after, heq, -⟩ := h
  rw [heq]
  simp

theorem mem_of_serialAt? {t : Tree} {p : Place} {serial : Nat} (h : t.serialAt? p = some serial) :
    ∃ n, (p, n) ∈ t.entries ∧ n.serial? = some serial := by
  obtain ⟨n, hn, hserial⟩ := Option.bind_eq_some_iff.1 h
  refine ⟨n, mem_of_get? ?_ hn, hserial⟩
  rintro rfl
  rw [get?_root] at hn
  cases hn
  cases hserial

theorem IsSound.serialAt?_lt {t : Tree} (h : t.IsSound) {p : Place} {serial : Nat}
    (hserial : t.serialAt? p = some serial) : serial < t.nextSerial := by
  obtain ⟨n, hmem, hn⟩ := mem_of_serialAt? hserial
  exact h.serial _ hmem serial hn

/-- An open file holds what its names show. -/
theorem IsSound.dataOf?_of_get? {t : Tree} (h : t.IsSound) {p : Place} {serial mode : Nat}
    {data : Bytes} (hp : t.get? p = some (.file serial mode data)) :
    t.dataOf? serial = some data := by
  have hmem : (p, .file serial mode data) ∈ t.entries :=
    mem_of_get? (fun hroot => by simp [hroot] at hp) hp
  rw [dataOf?_eq]
  rcases hfound : t.entries.findSome? fun e => e.2.dataUnder? serial with _ | other
  · rw [List.findSome?_eq_none_iff] at hfound
    simpa [Node.dataUnder?] using hfound _ hmem
  · obtain ⟨e, he, hother⟩ := List.exists_of_findSome?_eq_some hfound
    have hserial : e.2.serial? = some serial := Node.serial?_of_dataUnder? hother
    have hsame := h.same e he _ hmem serial hserial rfl
    have hdata : data = other := by simpa [hsame, Node.dataUnder?] using hother
    rw [hdata]
    exact hfound

/-! ## Above and below -/

/-- Below a place where nothing is there is nothing. -/
theorem IsSound.nothing_below {t : Tree} (h : t.IsSound) {p q : Place} (hq : IsReal q)
    (hpq : p <+: q) (hp : t.get? p = none) : t.get? q = none := by
  obtain ⟨below, rfl⟩ := hpq
  induction below generalizing p with
  | nil => rwa [List.append_nil]
  | cons name below ih =>
    rw [List.append_cons] at hq ⊢
    refine ih ?_ hq
    rcases hnode : t.get? (p ++ [name]) with _ | n
    · rfl
    · have hreal : IsReal (p ++ [name]) := fun n hn => hq n (List.mem_append_left _ hn)
      obtain ⟨mode, hmode⟩ := h.above p name hreal (by simp [hnode])
      rw [hp] at hmode
      cases hmode

/-- A place is in a directory. -/
def HasAbove (t : Tree) (p : Place) : Prop :=
  ∃ above name mode, p = above ++ [name] ∧ t.get? above = some (.directory mode)

theorem IsSound.hasAbove {t : Tree} (h : t.IsSound) {p : Place} (hp : IsReal p) (hroot : p ≠ [])
    (hsome : t.get? p ≠ none) : t.HasAbove p := by
  have hsplit := List.dropLast_concat_getLast hroot
  rw [← hsplit] at hp hsome
  obtain ⟨mode, hmode⟩ := h.above _ _ hp hsome
  exact ⟨_, _, mode, hsplit.symm, hmode⟩

theorem IsSound.hasAbove_of_walks {t : Tree} (h : t.IsSound) {follow : Bool} {links : Nat}
    {dir p : Place} {todo : List String} (hwalk : t.Walks follow links dir todo p)
    (hdir : IsReal dir) (htodo : IsReal todo)
    (hstart : t.get? dir = none → todo = [] → t.HasAbove dir) (hp : t.get? p = none) :
    t.HasAbove p := by
  induction hwalk with
  | here => exact hstart hp rfl
  | stay hmode _ _ ih => exact ih hdir htodo.tail (fun hnone => by simp [hmode] at hnone) hp
  | @up _ mode dir _ _ hmode _ _ ih =>
    refine ih hdir.dropLast htodo.tail (fun hnone => ?_) hp
    by_cases hroot : dir = []
    · simp [hroot] at hnone
    · obtain ⟨above, name, mode', rfl, habove⟩ := h.hasAbove hdir hroot (by simp [hmode])
      rw [List.dropLast_concat, habove] at hnone
      cases hnone
  | stop _ hlink _ =>
    rw [hlink] at hp
    cases hp
  | @jump _ dir _ _ target _ henter _ _ _ _ ih =>
    refine ih (hdir.origin _) ((isReal_split _).append htodo.tail) (fun hnone => ?_) hp
    obtain ⟨mode, hmode, -⟩ := henter.directory
    split at hnone
    · simp at hnone
    · simp [hmode] at hnone
  | @down _ dir _ name _ henter _ _ ih =>
    obtain ⟨mode, hmode, -⟩ := henter.directory
    exact ih (hdir.snoc htodo.head) htodo.tail (fun _ _ => ⟨dir, name, mode, rfl, hmode⟩) hp

/-- Where a path leads to nothing, the directory above is there. -/
theorem IsSound.hasAbove_of_resolve {t : Tree} (h : t.IsSound) {cwd p : Place} {path : String}
    {follow : Bool} (hcwd : IsReal cwd) (hp : t.resolve cwd path follow = .ok p)
    (hnone : t.get? p = none) : t.HasAbove p := by
  obtain ⟨-, hwalk⟩ := resolve_eq_ok_iff.1 hp
  exact h.hasAbove_of_walks hwalk (hcwd.origin path) (isReal_split path)
    (fun _ hempty => absurd hempty (Text.split_ne_nil '/' path)) hnone

theorem isReal_of_resolve {t : Tree} {cwd p : Place} {path : String} {follow : Bool}
    (hcwd : IsReal cwd) (hp : t.resolve cwd path follow = .ok p) : IsReal p :=
  (resolve_eq_ok_iff.1 hp).2.isReal (hcwd.origin path) (isReal_split path)

/-! ## Making and writing -/

/-- Puts a node at a place and goes on with another serial number. -/
def insert (t : Tree) (p : Place) (n : Node) (next : Nat) : Tree :=
  { t.put p n with nextSerial := next }

section
variable {t : Tree} {p : Place} {n : Node} {next : Nat}

theorem get?_insert_self (hp : p ≠ []) : (t.insert p n next).get? p = some n :=
  get?_put_self t n hp

theorem get?_insert_of_ne {q : Place} (h : q ≠ p) : (t.insert p n next).get? q = t.get? q :=
  get?_put_of_ne t n h

theorem serialAt?_insert (hp : p ≠ []) (q : Place) :
    (t.insert p n next).serialAt? q = if q = p then n.serial? else t.serialAt? q := by
  rw [serialAt?, serialAt?]
  split
  · next h =>
    rw [h, get?_insert_self hp]
    rfl
  · next h => rw [get?_insert_of_ne h]

/-- **Something new** in a directory. -/
theorem IsSound.insert (h : t.IsSound) (hp : IsReal p) (hnone : t.get? p = none)
    (habove : t.HasAbove p) (hnext : t.nextSerial ≤ next)
    (hserial : ∀ serial, n.serial? = some serial → t.nextSerial ≤ serial ∧ serial < next) :
    (t.insert p n next).IsSound := by
  have hroot := ne_nil_of_get?_eq_none hnone
  constructor
  · have hkept : ((t.entries.filter (·.1 != p)).map Prod.fst).Nodup :=
      List.Nodup.sublist (List.filter_sublist.map _) h.nodup
    simpa [Tree.insert, put] using hkept
  · intro e he
    obtain rfl | hold := List.mem_cons.1 he
    · exact .inl hp
    · exact h.real e (List.mem_filter.1 hold).1
  · intro q name hreal hsome
    by_cases hq : q ++ [name] = p
    · obtain ⟨dir, last, mode, rfl, hdir⟩ := habove
      obtain ⟨rfl, -⟩ := List.append_inj' hq rfl
      exact ⟨mode, by rw [get?_insert_of_ne (by simp), hdir]⟩
    · rw [get?_insert_of_ne hq] at hsome
      obtain ⟨mode, hmode⟩ := h.above q name hreal hsome
      have hne : q ≠ p := by
        rintro rfl
        rw [hnone] at hmode
        cases hmode
      exact ⟨mode, by rw [get?_insert_of_ne hne, hmode]⟩
  · intro e he serial hs
    obtain rfl | hold := List.mem_cons.1 he
    · exact (hserial serial hs).2
    · exact Nat.lt_of_lt_of_le (h.serial e (List.mem_filter.1 hold).1 serial hs) hnext
  · have hnew {e : Place × Node} (he : e ∈ t.entries.filter (·.1 != p)) {serial : Nat}
        (hs : n.serial? = some serial) : e.2.serial? ≠ some serial := fun hold =>
      Nat.lt_irrefl _ (Nat.lt_of_lt_of_le (h.serial e (List.mem_filter.1 he).1 serial hold)
        (hserial serial hs).1)
    intro e he e' he' serial hs hs'
    obtain rfl | hold := List.mem_cons.1 he <;> obtain rfl | hold' := List.mem_cons.1 he'
    · rfl
    · exact absurd hs' (hnew hold' hs)
    · exact absurd hs (hnew hold hs')
    · exact h.same e (List.mem_filter.1 hold).1 e' (List.mem_filter.1 hold').1 serial hs hs'

end

theorem IsSound.modifyFile {t : Tree} (h : t.IsSound) (serial : Nat) (f : Bytes → Bytes) :
    (t.modifyFile serial f).IsSound := by
  have hshape := sameShape_modifyFile t serial f
  constructor
  · rw [modifyFile_entries, List.map_map]
    exact h.nodup
  · intro e he
    rw [modifyFile_entries] at he
    obtain ⟨o, ho, rfl⟩ := List.mem_map.1 he
    exact h.real o ho
  · intro p name hreal hsome
    have hsome' : t.get? (p ++ [name]) ≠ none := by
      intro hnone
      rw [get?_modifyFile, hnone] at hsome
      exact hsome rfl
    obtain ⟨mode, hmode⟩ := h.above p name hreal hsome'
    exact ⟨mode, hshape.directory hmode⟩
  · intro e he s hs
    rw [modifyFile_entries] at he
    obtain ⟨o, ho, rfl⟩ := List.mem_map.1 he
    rw [Node.serial?_modified] at hs
    exact h.serial o ho s hs
  · intro e he e' he' s hs hs'
    rw [modifyFile_entries] at he he'
    obtain ⟨o, ho, rfl⟩ := List.mem_map.1 he
    obtain ⟨o', ho', rfl⟩ := List.mem_map.1 he'
    rw [Node.serial?_modified] at hs hs'
    dsimp only
    rw [h.same o ho o' ho' s hs hs']

theorem Opened.isSound {t t' : Tree} {p : Place} {sink : Sink} (h : t.Opened p sink t')
    (hsound : t.IsSound) {cwd : Place} {path : String} (hcwd : IsReal cwd)
    (hp : t.resolve cwd path = .ok p) : t'.IsSound := by
  cases h with
  | made hnone _ =>
    have habove := hsound.hasAbove_of_resolve hcwd hp hnone
    refine hsound.insert (isReal_of_resolve hcwd hp) hnone habove (Nat.le_succ _)
      fun serial hserial => ?_
    cases hserial
    exact ⟨Nat.le_refl _, Nat.lt_succ_self _⟩
  | emptied _ => exact hsound.modifyFile _ _
  | same _ _ _ _ => exact hsound

theorem writeAt_isSound {t t' : Tree} {sink : Sink} {offset : Nat} {new : Bytes}
    (h : t.writeAt sink offset new = .ok t') (hsound : t.IsSound) : t'.IsSound := by
  obtain ⟨serial, -, rfl⟩ | ⟨-, hsame⟩ := writeAt_eq_ok h
  · exact hsound.modifyFile _ _
  · rw [hsame]
    exact hsound

/-! ## Removing -/

/-- The names below a place are told by the places in the tree. -/
theorem children_isEmpty_iff (t : Tree) (p : Place) :
    (t.children p).isEmpty = true ↔ ∀ e ∈ t.entries, ∀ name, e.1 ≠ p ++ [name] := by
  rw [children, List.isEmpty_iff, ← List.length_eq_zero_iff, List.length_mergeSort,
    List.length_eq_zero_iff, childrenByAge, List.reverse_eq_nil_iff, List.filterMap_eq_nil_iff]
  refine forall₂_congr fun ⟨q, n⟩ _ => ?_
  obtain rfl | ⟨above, last, rfl⟩ := List.eq_nil_or_concat q
  · simp
  · simp [eq_comm]

/-- Names may be made and removed in a directory. -/
def AdmitsNames (n : Node) : Prop :=
  n.allows .write = true ∧ n.allows .execute = true

theorem isGuarded_eq_false_iff (t : Tree) (p : Place) :
    t.isGuarded p = false ↔ ∀ e ∈ t.entries, p <+: e.1 → e.2.isDirectory = true →
      e.2.allows .read = true ∧
        (AdmitsNames e.2 ∨ ∀ e' ∈ t.entries, ∀ name, e'.1 ≠ e.1 ++ [name]) := by
  rw [isGuarded, List.any_eq_false]
  refine forall₂_congr fun ⟨q, n⟩ _ => ?_
  rw [← children_isEmpty_iff, ← List.isPrefixOf_iff_prefix, AdmitsNames]
  simp only [Bool.and_eq_true, Bool.not_eq_true', Bool.and_eq_false_iff, Bool.or_eq_false_iff]
  grind

/-- What is listed once is what is found. -/
theorem lookup_of_mem {α β : Type} [BEq α] [LawfulBEq α] {l : List (α × β)}
    (h : (l.map Prod.fst).Nodup) {p : α} {n : β} (hmem : (p, n) ∈ l) : l.lookup p = some n := by
  induction l with
  | nil => cases hmem
  | cons e rest ih =>
    rw [List.map_cons, List.nodup_cons] at h
    obtain rfl | hrest := List.mem_cons.1 hmem
    · simp
    · have hne : (p == e.1) = false :=
        beq_eq_false_iff_ne.2 fun heq => h.1 (List.mem_map.2 ⟨(p, n), hrest, heq⟩)
      rw [List.lookup_cons, hne]
      exact ih h.2 hrest

/-- Where nothing is there is nothing to empty. -/
theorem IsSound.isGuarded_of_none {t : Tree} (h : t.IsSound) {p : Place} (hp : IsReal p)
    (hnone : t.get? p = none) : t.isGuarded p = false := by
  rw [isGuarded_eq_false_iff]
  intro e he hbelow _
  have hroot := ne_nil_of_get?_eq_none hnone
  obtain hreal | ⟨serial, hhidden⟩ := h.real e he
  · have hsome : t.get? e.1 = some e.2 := by
      have hne : e.1 ≠ [] := fun hnil => hroot (List.prefix_nil.1 (hnil ▸ hbelow))
      rw [get?_eq_lookup t hne, lookup_of_mem h.nodup he]
    rw [h.nothing_below hreal hbelow hnone] at hsome
    cases hsome
  · -- the names of hidden places are not real
    obtain ⟨first, rest, rfl⟩ := List.exists_cons_of_ne_nil hroot
    rw [hhidden, hiddenPlace] at hbelow
    have hfirst := (List.cons_prefix_cons.1 hbelow).1
    exact absurd hp.head (by rw [hfirst]; decide)

theorem requireAbove_eq_ok {t : Tree} {p : Place} (h : t.requireAbove p = .ok ()) :
    ∃ n, t.get? p.dropLast = some n ∧ AdmitsNames n := by
  unfold requireAbove at h
  split at h
  · next n hn =>
    obtain ⟨_, hwrite, hexecute⟩ := bind_eq_ok h
    refine ⟨n, hn, ?_, ?_⟩
    · by_contra hnot
      rw [require, if_neg hnot] at hwrite
      cases hwrite
    · by_contra hnot
      rw [require, if_neg hnot] at hexecute
      cases hexecute
  · cases h

section
variable {t : Tree} {ws : Place} (hguard : t.isGuarded ws = false)
include hguard

/-- A directory that can be removed still can when something is made in it. -/
theorem isGuarded_insert (hsound : t.IsSound) (hws : ws ≠ []) {p : Place} {n : Node} {next : Nat}
    (habove : t.requireAbove p = .ok ())
    (hn : n.isDirectory = true → n.allows .read = true ∧ AdmitsNames n) :
    (t.insert p n next).isGuarded ws = false := by
  rw [isGuarded_eq_false_iff] at hguard ⊢
  intro e he hbelow hdir
  obtain rfl | he := List.mem_cons.1 he
  · exact ⟨(hn hdir).1, .inl (hn hdir).2⟩
  have hold := (List.mem_filter.1 he).1
  obtain ⟨hread, hopen | hempty⟩ := hguard e hold hbelow hdir
  · exact ⟨hread, .inl hopen⟩
  refine ⟨hread, ?_⟩
  by_cases hp : ∃ name, p = e.1 ++ [name]
  · -- something could be made in the directory, so it is open
    obtain ⟨name, rfl⟩ := hp
    obtain ⟨m, hm, hopen⟩ := requireAbove_eq_ok habove
    have hroot : e.1 ≠ [] := by
      intro hnil
      rw [hnil] at hbelow
      exact hws (List.prefix_nil.1 hbelow)
    have hlookup : t.entries.lookup e.1 = some e.2 := lookup_of_mem hsound.nodup hold
    rw [List.dropLast_concat, get?_eq_lookup t hroot, hlookup] at hm
    cases hm
    exact .inl hopen
  · refine .inr fun e' he' name hname => ?_
    obtain rfl | hold' := List.mem_cons.1 he'
    · exact hp ⟨name, hname⟩
    · exact hempty e' (List.mem_filter.1 hold').1 name hname

theorem isGuarded_modifyFile (serial : Nat) (f : Bytes → Bytes) :
    (t.modifyFile serial f).isGuarded ws = false := by
  rw [isGuarded_eq_false_iff] at hguard ⊢
  rw [modifyFile_entries]
  intro e he hbelow hdir
  obtain ⟨⟨q, n⟩, hmem, rfl⟩ := List.mem_map.1 he
  have hsame : n.modified serial f = n := by
    cases n with
    | file _ _ _ => cases hdir
    | _ => rfl
  rw [hsame] at hdir ⊢
  obtain ⟨hread, hopen | hempty⟩ := hguard _ hmem hbelow hdir
  · exact ⟨hread, .inl hopen⟩
  · refine ⟨hread, .inr fun e' he' name => ?_⟩
    obtain ⟨o, ho, rfl⟩ := List.mem_map.1 he'
    exact hempty o ho name

theorem Opened.isGuarded (hsound : t.IsSound) (hws : ws ≠ []) {t' : Tree} {p : Place} {sink : Sink}
    (h : t.Opened p sink t') : t'.isGuarded ws = false := by
  cases h with
  | made _ habove => exact isGuarded_insert hguard hsound hws habove (fun hdir => nomatch hdir)
  | emptied _ => exact isGuarded_modifyFile hguard _ _
  | same _ _ _ _ => exact hguard

theorem writeAt_isGuarded {t' : Tree} {sink : Sink} {offset : Nat} {new : Bytes}
    (h : t.writeAt sink offset new = .ok t') : t'.isGuarded ws = false := by
  obtain ⟨serial, -, rfl⟩ | ⟨-, hsame⟩ := writeAt_eq_ok h
  · exact isGuarded_modifyFile hguard _ _
  · rwa [hsame]

/-- **Removing** a directory takes it and all below it away. -/
theorem removeDirectoryTree_of_directory {cwd : Place} {path : String} {mode : Nat}
    (hpath : t.resolve cwd path false = .ok ws) (hdir : t.get? ws = some (.directory mode))
    (habove : t.requireAbove ws = .ok ()) :
    t.removeDirectoryTree cwd path = (.ok (), t.erase ws) := by
  simp [removeDirectoryTree, hpath, hdir, hguard, habove]

end

theorem removeDirectoryTree_of_none {t : Tree} {cwd ws : Place} {path : String}
    (hpath : t.resolve cwd path false = .ok ws) (hnone : t.get? ws = none) :
    t.removeDirectoryTree cwd path = (.error .notFound, t) := by
  simp [removeDirectoryTree, hpath, hnone]

end LangBundle.Files.Tree
