import LangBundle.Files.Access

/-!
# What the operations on a tree do to its places

The view `Tree.get?` after each basic operation, and what of a tree decides where paths lead.

* `get?_erase`, `get?_modifyFile`, `get?_newFile`: **the view** after an operation.
* `dataOf?_modifyFile`, `dataOf?_newFile`: **the data** of open files after it.
* `Tree.SameShape`: two trees have the same directories and links; files may differ.
-/

namespace LangBundle.Files

/-- A place that a path can lead to: names have no slash in them. -/
def IsReal (p : Place) : Prop :=
  ∀ name ∈ p, '/' ∉ name.toList

theorem IsReal.append {p q : Place} (hp : IsReal p) (hq : IsReal q) : IsReal (p ++ q) := by
  intro name hname
  obtain h | h := List.mem_append.1 hname
  · exact hp name h
  · exact hq name h

theorem IsReal.snoc {p : Place} (hp : IsReal p) {name : String} (hname : '/' ∉ name.toList) :
    IsReal (p ++ [name]) :=
  hp.append fun n hn => by rwa [List.mem_singleton.1 hn]

theorem IsReal.dropLast {p : Place} (hp : IsReal p) : IsReal p.dropLast :=
  fun name hname => hp name (List.dropLast_subset p hname)

theorem isReal_nil : IsReal [] :=
  fun _ h => nomatch h

theorem IsReal.head {name : String} {rest : List String} (h : IsReal (name :: rest)) :
    '/' ∉ name.toList :=
  h name List.mem_cons_self

theorem IsReal.tail {name : String} {rest : List String} (h : IsReal (name :: rest)) :
    IsReal rest :=
  fun n hn => h n (List.mem_cons_of_mem name hn)

namespace Node

/-- What a walk along a path sees of a node: directories with their modes, and links. -/
def shape? : Node → Option Node
  | .directory mode => some (.directory mode)
  | .link target => some (.link target)
  | _ => none

/-- What has a shape is it. -/
theorem eq_of_shape? {n m : Node} (h : n.shape? = some m) : n = m := by
  cases n <;> cases h <;> rfl

/-- The node with the data of the file with a serial number changed. -/
def modified (serial : Nat) (f : Bytes → Bytes) : Node → Node
  | .file s mode data => .file s mode (if s = serial then f data else data)
  | n => n

/-- The data of the file with a serial number. -/
def dataUnder? (serial : Nat) : Node → Option Bytes
  | .file s _ data => if s = serial then some data else none
  | _ => none

theorem dataUnder?_modified (serial other : Nat) (f : Bytes → Bytes) (n : Node) :
    (n.modified serial f).dataUnder? other =
      (n.dataUnder? other).map fun data => if other = serial then f data else data := by
  cases n with
  | file s mode data => by_cases hs : s = other <;> simp [modified, dataUnder?, hs]
  | _ => rfl

theorem serial?_of_dataUnder? {serial : Nat} {n : Node} {data : Bytes}
    (h : n.dataUnder? serial = some data) : n.serial? = some serial := by
  cases n with
  | file s mode d =>
    by_cases hs : s = serial
    · rw [hs, serial?]
    · simp [dataUnder?, hs] at h
  | _ => cases h

theorem shape?_modified (serial : Nat) (f : Bytes → Bytes) (n : Node) :
    (n.modified serial f).shape? = n.shape? := by
  cases n <;> rfl

theorem serial?_modified (serial : Nat) (f : Bytes → Bytes) (n : Node) :
    (n.modified serial f).serial? = n.serial? := by
  cases n <;> rfl

theorem modified_of_serial?_ne {serial : Nat} {n : Node} (h : n.serial? ≠ some serial)
    (f : Bytes → Bytes) : n.modified serial f = n := by
  cases n with
  | file s mode data =>
    have hs : s ≠ serial := fun e => h (by rw [e, serial?])
    simp [modified, hs]
  | _ => rfl

end Node

namespace Tree

/-! ## The view -/

theorem get?_eq_lookup (t : Tree) {p : Place} (h : p ≠ []) : t.get? p = t.entries.lookup p := by
  rw [get?, if_neg h]

theorem lookup_filter_isPrefixOf (l : List (Place × Node)) (p q : Place) :
    (l.filter (!p.isPrefixOf ·.1)).lookup q = if p <+: q then none else l.lookup q := by
  induction l with
  | nil => simp
  | cons e rest ih =>
    obtain ⟨r, n⟩ := e
    by_cases hqr : q = r
    · subst hqr
      by_cases hp : p <+: q
      · have hp' : p.isPrefixOf q = true := List.isPrefixOf_iff_prefix.2 hp
        simp [hp, hp', ih]
      · have hp' : p.isPrefixOf q = false :=
          Bool.eq_false_iff.2 fun h => hp (List.isPrefixOf_iff_prefix.1 h)
        simp [hp, hp']
    · have hqr' : (q == r) = false := by simpa using hqr
      by_cases hr : p.isPrefixOf r
      · simp [hr, hqr', ih, List.lookup_cons]
      · simp [hr, hqr', ih, List.lookup_cons]

theorem get?_erase (t : Tree) {p : Place} (hp : p ≠ []) (q : Place) :
    (t.erase p).get? q = if p <+: q then none else t.get? q := by
  by_cases hq : q = []
  · subst hq
    have hnot : ¬ p <+: [] := fun h => hp (List.prefix_nil.1 h)
    rw [if_neg hnot, get?_root, get?_root]
  · rw [get?_eq_lookup _ hq, get?_eq_lookup _ hq, erase, lookup_filter_isPrefixOf]

theorem lookup_map_snd (g : Node → Node) (l : List (Place × Node)) (p : Place) :
    (l.map fun e => (e.1, g e.2)).lookup p = (l.lookup p).map g := by
  induction l with
  | nil => rfl
  | cons e rest ih =>
    rw [List.map_cons, List.lookup_cons, List.lookup_cons, ih]
    split <;> rfl

theorem modifyFile_entries (t : Tree) (serial : Nat) (f : Bytes → Bytes) :
    (t.modifyFile serial f).entries = t.entries.map fun e => (e.1, e.2.modified serial f) := by
  refine List.map_congr_left fun ⟨p, n⟩ _ => ?_
  cases n with
  | file s mode data => by_cases hs : s = serial <;> simp [Node.modified, hs]
  | _ => rfl

theorem get?_modifyFile (t : Tree) (serial : Nat) (f : Bytes → Bytes) (p : Place) :
    (t.modifyFile serial f).get? p = (t.get? p).map (·.modified serial f) := by
  by_cases hp : p = []
  · subst hp
    rw [get?_root, get?_root]
    rfl
  · rw [get?_eq_lookup _ hp, get?_eq_lookup _ hp, modifyFile_entries, lookup_map_snd]

theorem get?_newFile_self (t : Tree) {p : Place} (hp : p ≠ []) (mode : Nat) :
    (t.newFile p mode).get? p = some (.file t.nextSerial mode []) :=
  get?_put_self t _ hp

theorem get?_newFile_of_ne (t : Tree) {p q : Place} (h : q ≠ p) (mode : Nat) :
    (t.newFile p mode).get? q = t.get? q :=
  get?_put_of_ne t _ h

/-! ## Serial numbers -/

/-- The serial number of what is at a place. -/
def serialAt? (t : Tree) (p : Place) : Option Nat :=
  (t.get? p).bind Node.serial?

theorem serialAt?_modifyFile (t : Tree) (serial : Nat) (f : Bytes → Bytes) (p : Place) :
    (t.modifyFile serial f).serialAt? p = t.serialAt? p := by
  rw [serialAt?, serialAt?, get?_modifyFile]
  cases t.get? p with
  | none => rfl
  | some n => exact Node.serial?_modified serial f n

theorem serialAt?_newFile_self (t : Tree) {p : Place} (hp : p ≠ []) (mode : Nat) :
    (t.newFile p mode).serialAt? p = some t.nextSerial := by
  rw [serialAt?, get?_newFile_self t hp]
  rfl

theorem serialAt?_newFile_of_ne (t : Tree) {p q : Place} (h : q ≠ p) (mode : Nat) :
    (t.newFile p mode).serialAt? q = t.serialAt? q := by
  rw [serialAt?, serialAt?, get?_newFile_of_ne t h]

/-- Changing a file changes nothing where another serial number is. -/
theorem get?_modifyFile_of_ne {t : Tree} {serial : Nat} {p : Place}
    (h : t.serialAt? p ≠ some serial) (f : Bytes → Bytes) :
    (t.modifyFile serial f).get? p = t.get? p := by
  rw [get?_modifyFile]
  rcases hn : t.get? p with _ | n
  · rfl
  · rw [Option.map_some, Node.modified_of_serial?_ne fun hs => h (by rw [serialAt?, hn]; exact hs)]

theorem ne_nil_of_get?_eq_none {t : Tree} {p : Place} (h : t.get? p = none) : p ≠ [] := by
  rintro rfl
  simp at h

/-! ## The data of open files -/

theorem dataOf?_eq (t : Tree) (serial : Nat) :
    t.dataOf? serial = t.entries.findSome? fun e => e.2.dataUnder? serial := by
  rw [dataOf?, nodeOf?]
  induction t.entries with
  | nil => rfl
  | cons e rest ih =>
    obtain ⟨p, n⟩ := e
    rw [List.findSome?_cons, List.findSome?_cons]
    cases n with
    | file s mode data => by_cases hs : s = serial <;> simp [Node.dataUnder?, hs, ih]
    | _ => simpa [Node.dataUnder?] using ih

theorem dataOf?_modifyFile (t : Tree) (serial other : Nat) (f : Bytes → Bytes) :
    (t.modifyFile serial f).dataOf? other =
      (t.dataOf? other).map fun data => if other = serial then f data else data := by
  rw [dataOf?_eq, dataOf?_eq, modifyFile_entries, List.findSome?_map]
  induction t.entries with
  | nil => rfl
  | cons e rest ih =>
    rw [List.findSome?_cons, List.findSome?_cons, Function.comp_apply, Node.dataUnder?_modified]
    cases e.2.dataUnder? other with
    | none => exact ih
    | some data => rfl

theorem dataOf?_modifyFile_self (t : Tree) (serial : Nat) (f : Bytes → Bytes) :
    (t.modifyFile serial f).dataOf? serial = (t.dataOf? serial).map f := by
  simp [dataOf?_modifyFile]

theorem dataOf?_modifyFile_of_ne (t : Tree) {serial other : Nat} (h : other ≠ serial)
    (f : Bytes → Bytes) : (t.modifyFile serial f).dataOf? other = t.dataOf? other := by
  simp [dataOf?_modifyFile, h]

theorem dataOf?_newFile_self (t : Tree) (p : Place) (mode : Nat) :
    (t.newFile p mode).dataOf? t.nextSerial = some [] := by
  simp [dataOf?_eq, newFile, put, Node.dataUnder?]

theorem dataOf?_newFile_of_ne (t : Tree) {p : Place} (hp : t.get? p = none) {serial : Nat}
    (h : serial ≠ t.nextSerial) (mode : Nat) :
    (t.newFile p mode).dataOf? serial = t.dataOf? serial := by
  have hroot := ne_nil_of_get?_eq_none hp
  have hkept : t.entries.filter (·.1 != p) = t.entries := by
    rw [get?_eq_lookup t hroot, List.lookup_eq_none_iff] at hp
    refine List.filter_eq_self.2 fun e he => ?_
    simpa [bne, Ne.symm] using fun heq => absurd (hp e he) (by simp [heq])
  have hnew : (Node.file t.nextSerial mode []).dataUnder? serial = none := by
    simp [Node.dataUnder?, Ne.symm h]
  rw [dataOf?_eq, dataOf?_eq, newFile, put]
  simp only [hkept, List.findSome?_cons, hnew]

/-! ## The shape -/

/-- Two trees have the same directories and links. -/
def SameShape (t t' : Tree) : Prop :=
  ∀ p, (t'.get? p).bind Node.shape? = (t.get? p).bind Node.shape?

theorem SameShape.refl (t : Tree) : t.SameShape t :=
  fun _ => rfl

theorem SameShape.symm {t t' : Tree} (h : t.SameShape t') : t'.SameShape t :=
  fun p => (h p).symm

theorem SameShape.trans {t t' t'' : Tree} (h : t.SameShape t') (h' : t'.SameShape t'') :
    t.SameShape t'' :=
  fun p => (h' p).trans (h p)

theorem sameShape_modifyFile (t : Tree) (serial : Nat) (f : Bytes → Bytes) :
    t.SameShape (t.modifyFile serial f) := by
  intro p
  rw [get?_modifyFile]
  cases t.get? p with
  | none => rfl
  | some n => exact Node.shape?_modified serial f n

theorem sameShape_newFile {t : Tree} {p : Place} (hp : t.get? p = none) (mode : Nat) :
    t.SameShape (t.newFile p mode) := by
  have hroot := ne_nil_of_get?_eq_none hp
  intro q
  by_cases hq : q = p
  · rw [hq, get?_newFile_self t hroot, hp]
    rfl
  · rw [get?_newFile_of_ne t hq]

end Tree

end LangBundle.Files
