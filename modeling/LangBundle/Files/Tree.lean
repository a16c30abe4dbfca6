import LangBundle.Text.Utf8
import LangBundle.Files.Fault

/-!
# The file tree

A file tree maps places to nodes.  A place is the row of names that leads to it from the root, and
the root itself is always a directory.  A regular file carries a serial number: whoever has the file
open knows it by that number, so a write through an open file still reaches the file after its name
was taken over by another, and reaches nothing once the file is gone.

`get?` is the view of the tree; each operation below comes with the lemma that says what it does to
this view.
-/

namespace LangBundle.Files

/-- The names that lead from the root to a node. -/
abbrev Place := List String

/-- A device: none keeps what is written to it. -/
inductive Device where
  /-- Reads as empty and forgets what is written. -/
  | null
  /-- Reads as zeros without an end and forgets what is written. -/
  | zero
  /-- Reads as zeros without an end and has no room for anything. -/
  | full
  /-- A terminal at which nobody is: it cannot be opened. -/
  | terminal
  deriving Repr, DecidableEq

/-- What is found at a place. -/
inductive Node where
  | directory (mode : Nat)
  | file (serial : Nat) (mode : Nat) (data : Bytes)
  | link (target : String)
  /-- What one process writes here another one reads. -/
  | pipe (serial : Nat) (mode : Nat)
  | device (kind : Device)
  /-- A program that the system supplies, known by its name. -/
  | program (name : String)
  deriving Repr, DecidableEq

/-- What the owner may do with a file; in a directory, to search it is to execute it. -/
inductive Permission where
  | read
  | write
  | execute
  deriving Repr, DecidableEq

/-- The bit of a mode that grants a permission to the owner. -/
def Permission.bit : Permission → Nat
  | .read => 0o400
  | .write => 0o200
  | .execute => 0o100

namespace Node

/-- The permission bits of a node. -/
def mode : Node → Nat
  | .directory mode | .file _ mode _ | .pipe _ mode => mode
  | .link _ => 0o777
  | .device _ => 0o666
  | .program _ => 0o755

/-- The same node with other permission bits, where it keeps any. -/
def withMode (mode : Nat) : Node → Node
  | .directory _ => .directory mode
  | .file serial _ data => .file serial mode data
  | .pipe serial _ => .pipe serial mode
  | n => n

/-- Whether the owner has a permission. -/
def allows (n : Node) (p : Permission) : Bool :=
  n.mode &&& p.bit != 0

/-- Whether the node is a directory. -/
def isDirectory : Node → Bool
  | .directory _ => true
  | _ => false

/-- Whether the node is a regular file. -/
def isFile : Node → Bool
  | .file .. | .program _ => true
  | _ => false

/-- Whether the node is a regular file that somebody may execute. -/
def isExecutable : Node → Bool
  | .file _ mode _ => mode &&& 0o111 != 0
  | .program _ => true
  | _ => false

/-- The serial number of a regular file or a pipe. -/
def serial? : Node → Option Nat
  | .file serial _ _ | .pipe serial _ => some serial
  | _ => none

end Node

/-- The nodes below the root, each at its place, and the serial number of the next new file. -/
structure Tree where
  entries : List (Place × Node) := []
  nextSerial : Nat := 0

namespace Tree

/-- The mode of directories that are made without one. -/
def directoryMode : Nat := 0o755

/-- The mode of files that are made without one. -/
def fileMode : Nat := 0o644

/-- The node at a place. -/
def get? (t : Tree) (p : Place) : Option Node :=
  if p = [] then some (.directory directoryMode) else t.entries.lookup p

/-- Puts a node at a place, whatever was there. -/
def put (t : Tree) (p : Place) (n : Node) : Tree :=
  { t with entries := (p, n) :: t.entries.filter (·.1 != p) }

/-- Takes away a place and everything below it. -/
def erase (t : Tree) (p : Place) : Tree :=
  { t with entries := t.entries.filter (!p.isPrefixOf ·.1) }

/-- A place for the file with a serial number that no path names, as names have no slash in them. -/
def hiddenPlace (serial : Nat) : Place :=
  ["/", toString serial]

/-- Changes the data of the file with a serial number, if it still has a place. -/
def modifyFile (t : Tree) (serial : Nat) (f : Bytes → Bytes) : Tree :=
  { t with entries := t.entries.map fun (p, n) => match n with
      | .file s mode data => (p, if s = serial then .file s mode (f data) else n)
      | _ => (p, n) }

/-- The file with a serial number; nothing once it has no place. -/
def nodeOf? (t : Tree) (serial : Nat) : Option Node :=
  t.entries.findSome? fun (_, n) => match n with
    | .file s _ _ => if s = serial then some n else none
    | _ => none

/-- The data of the file with a serial number; nothing once it has no place. -/
def dataOf? (t : Tree) (serial : Nat) : Option Bytes :=
  match t.nodeOf? serial with
  | some (.file _ _ data) => some data
  | _ => none

/-- Keeps a file although its names may go. -/
def pin (t : Tree) (serial : Nat) : Tree :=
  if (t.entries.lookup (hiddenPlace serial)).isSome then t
  else match t.nodeOf? serial with
    | some n => t.put (hiddenPlace serial) n
    | none => t

/-- Replaces every name of a node: all names of a regular file or pipe show the same one. -/
def replaceNode (t : Tree) (p : Place) (n : Node) : Tree :=
  let isName (q : Place) (m : Node) : Bool := match n.serial? with
    | some serial => m.serial? = some serial
    | none => q = p
  { t with entries := t.entries.map fun (q, m) => (q, if isName q m then n else m) }

/-- Makes an empty file at a place. -/
def newFile (t : Tree) (p : Place) (mode : Nat := fileMode) : Tree :=
  { t.put p (.file t.nextSerial mode []) with nextSerial := t.nextSerial + 1 }

/-- Makes a pipe at a place. -/
def newPipe (t : Tree) (p : Place) (mode : Nat := fileMode) : Tree :=
  { t.put p (.pipe t.nextSerial mode) with nextSerial := t.nextSerial + 1 }

/-- The names directly below a place, those of older nodes first. -/
def childrenByAge (t : Tree) (p : Place) : List String :=
  (t.entries.filterMap fun (q, _) =>
    match q.reverse with
    | name :: above => if above.reverse = p then some name else none
    | [] => none).reverse

/-- The names directly below a place, in the order of their code points. -/
def children (t : Tree) (p : Place) : List String :=
  (t.childrenByAge p).mergeSort (fun a b => !(b < a))

/-! ## The view -/

@[simp] theorem get?_root (t : Tree) : t.get? [] = some (.directory directoryMode) := by
  simp [get?]

theorem lookup_filter_ne (l : List (Place × Node)) {p q : Place} (h : q ≠ p) :
    (l.filter (·.1 != p)).lookup q = l.lookup q := by
  induction l with
  | nil => rfl
  | cons e rest ih =>
    obtain ⟨r, n⟩ := e
    by_cases hr : r = p
    · have hq : (q == p) = false := by simpa using h
      simp [hr, List.lookup_cons, hq, ih]
    · simp [hr, List.lookup_cons, ih]

theorem get?_put_self (t : Tree) {p : Place} (n : Node) (h : p ≠ []) :
    (t.put p n).get? p = some n := by
  simp [get?, put, h]

theorem get?_put_of_ne (t : Tree) {p q : Place} (n : Node) (h : q ≠ p) :
    (t.put p n).get? q = t.get? q := by
  have hq : (q == p) = false := by simpa using h
  simp [get?, put, List.lookup_cons, hq, lookup_filter_ne _ h]

end Tree

end LangBundle.Files
