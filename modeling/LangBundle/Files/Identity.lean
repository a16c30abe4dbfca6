import LangBundle.Files.Access

/-!
# When two paths lead to the same file

A regular file or a pipe is known by its serial number, whatever names it has.  Any other node is
known by its place.
-/

namespace LangBundle.Files

/-- What a file is known by. -/
inductive Identity where
  | numbered (serial : Nat)
  | placed (p : Place)
  deriving Repr, DecidableEq

namespace Tree

/-- The node that a path names, with its links followed or not. -/
def nodeAt (t : Tree) (cwd : Place) (follow : Bool) (path : String) : Except Fault Node :=
  if follow then t.stat cwd path else t.lstat cwd path

/-- What the file is known by that a path names. -/
def identity? (t : Tree) (cwd : Place) (follow : Bool) (path : String) : Option Identity := do
  let p ← (t.resolve cwd path follow).toOption
  let n ← t.get? p
  return match n.serial? with
    | some serial => .numbered serial
    | none => .placed p

/-- Whether two paths lead to the same file. -/
def isSameFile (t : Tree) (cwd : Place) (follow : Bool) (source target : String) : Bool :=
  let identity := t.identity? cwd follow source
  identity.isSome && identity = t.identity? cwd follow target

/-- Whether two paths mean the same name in the same directory. -/
def isSameEntry (t : Tree) (cwd : Place) (source target : String) : Bool :=
  match t.resolve cwd source false, t.resolve cwd target false with
  | .ok p, .ok q => p = q
  | _, _ => false

/-- Whether a path names a symbolic link. -/
def isLink (t : Tree) (cwd : Place) (path : String) : Bool :=
  match t.lstat cwd path with
  | .ok (.link _) => true
  | _ => false

/-- How many names a node has. -/
def nameCount (t : Tree) (n : Node) : Nat :=
  match n.serial? with
  | none => 1
  | some serial => t.entries.countP fun (p, m) =>
      m.serial? = some serial && p != hiddenPlace serial

end Tree

end LangBundle.Files
