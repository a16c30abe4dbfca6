import LangBundle.Files.Tree
import LangBundle.Path

/-!
# From a path to a place

A path is walked name by name from the root or from a working directory.  `.` and empty names stay
where they are, `..` goes up, and a symbolic link is replaced by its target; the last name is
replaced only if the caller follows links.  Only a directory that may be searched is walked through.
The last name need not exist: what is missing there is for the operation to decide.
-/

namespace LangBundle.Files.Tree

open Text

/-- The longest name, in bytes. -/
def maxName : Nat := 255

/-- A path has to be shorter than this, in bytes. -/
def maxPath : Nat := 4096

/-- How many links one walk follows. -/
def maxLinks : Nat := 40

/-- Walks the names `todo` from the directory at `dir`.  Where a link has to be replaced, `onLink`
goes on, from the directory that the link is in, its target and the names behind it. -/
def walkWith (t : Tree) (follow : Bool) (onLink : Place → String → List String → Except Fault Place)
    (dir : Place) : (todo : List String) → Except Fault Place
  | [] => .ok dir
  | name :: rest =>
    match t.get? dir with
    | none => .error .notFound
    | some (.directory mode) =>
      if name = "" then t.walkWith follow onLink dir rest
      else if mode &&& Permission.execute.bit = 0 then .error .permissionDenied
      else if name = "." then t.walkWith follow onLink dir rest
      else if name = ".." then t.walkWith follow onLink dir.dropLast rest
      else if maxName < name.utf8ByteSize then .error .nameTooLong
      else match t.get? (dir ++ [name]) with
        | some (.link target) =>
          if rest.isEmpty && !follow then .ok (dir ++ [name]) else onLink dir target rest
        | _ => t.walkWith follow onLink (dir ++ [name]) rest
    | some _ => .error .notDirectory

/-- Walks names from the directory at a place, following at most `links` links. -/
def walk (t : Tree) (follow : Bool) : (links : Nat) → Place → List String → Except Fault Place
  | 0 => t.walkWith follow fun _ _ _ => .error .tooManyLinks
  | links + 1 => t.walkWith follow fun dir target rest =>
    if target.isEmpty then .error .notFound
    else t.walk follow links (if Path.isAbsolute target then [] else dir) (split '/' target ++ rest)

/-- The place that a path names for a process working in `cwd`. -/
def resolve (t : Tree) (cwd : Place) (path : String) (follow : Bool := true) :
    Except Fault Place :=
  if path.toList.contains '\x00' then .error .nulInPath
  else if path.isEmpty then .error .notFound
  else if maxPath ≤ path.utf8ByteSize then .error .nameTooLong
  else t.walk follow maxLinks (if Path.isAbsolute path then [] else cwd) (split '/' path)

/-- The node that a path names, links followed. -/
def stat (t : Tree) (cwd : Place) (path : String) : Except Fault Node := do
  match t.get? (← t.resolve cwd path) with
  | some n => pure n
  | none => throw .notFound

/-- The node that a path names; a link stands for itself. -/
def lstat (t : Tree) (cwd : Place) (path : String) : Except Fault Node := do
  match t.get? (← t.resolve cwd path false) with
  | some n => pure n
  | none => throw .notFound

/-- The place of a directory that a path names. -/
def directoryAt (t : Tree) (cwd : Place) (path : String) : Except Fault Place := do
  let p ← t.resolve cwd path
  match t.get? p with
  | some (.directory _) => pure p
  | some _ => throw .notDirectory
  | none => throw .notFound

end LangBundle.Files.Tree
