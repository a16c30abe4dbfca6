import LangBundle.Text.Classes

/-!
# Paths as texts

A path is a row of names with `/` between them; it is absolute when it begins with `/`.  Nothing
here looks at files: `join` is the text of a path below another, and `fileName?`, `splitExtension`
take a path's last name apart.
-/

namespace LangBundle.Path

open Text

/-- Whether a path starts at the root. -/
def isAbsolute (path : String) : Bool :=
  path.toList.head? == some '/'

/-- The path of `name` below `base`.  An absolute name stands for itself; an empty one leaves `base`
with a `/` at its end. -/
def join (base name : String) : String :=
  if isAbsolute name || base.isEmpty then name
  else if base.toList.getLast? == some '/' then base ++ name
  else base ++ "/" ++ name

/-- The names of a path: what stands between its slashes, empty names and `.` left out. -/
def names (path : String) : List String :=
  (split '/' path).filter fun n => n != "" && n != "."

/-- The last name of a path; there is none if the path is empty, is the root or ends in `..`. -/
def fileName? (path : String) : Option String :=
  match (names path).getLast? with
  | some ".." => none
  | last => last

/-- A name cut at its last dot: what stands before, and what stands after.  A dot that begins the
name does not count. -/
def splitExtension (name : List Char) : List Char × Option (List Char) :=
  match (name.reverse.dropWhile (· != '.')).drop 1 with
  | [] => (name, none)
  | before => (before.reverse, some (name.reverse.takeWhile (· != '.')).reverse)

/-- The last name of a path without its extension. -/
def fileStem? (path : String) : Option String :=
  (fileName? path).map fun n => String.ofList (splitExtension n.toList).1

/-- The extension of a path's last name. -/
def extension? (path : String) : Option String :=
  (fileName? path).bind fun n => (splitExtension n.toList).2.map String.ofList

end LangBundle.Path
