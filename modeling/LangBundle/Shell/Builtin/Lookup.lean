import LangBundle.Process.Starting
import LangBundle.Shell.Builtin.Call

/-!
# What a command's name means

A name means a function, a command of the shell or a file in the search path.  Here are the names of
the shell's own commands, the search, and the commands that tell what a name means.
-/

namespace LangBundle.Shell.Builtin

open Files (Fault Tree)
open Process

/-- The commands of the shell whose failure does not end it. -/
def regularNames : List String :=
  ["[", "alias", "bg", "cd", "chdir", "command", "echo", "false", "fg", "getopts", "hash", "jobs",
    "kill", "printf", "pwd", "read", "test", "true", "type", "ulimit", "umask", "unalias", "wait"]

/-- Whether a command is the shell's own. -/
def isOwn (name : String) : Bool :=
  Reader.specialNames.contains name || regularNames.contains name

/-- Looks for a regular file that may be executed; what is found on the way decides what is said if
there is none. -/
def findFile (t : Tree) (cwd : Files.Place) : (fault : Fault) → List String → Except Fault String
  | fault, [] => .error fault
  | fault, path :: rest =>
    match t.stat cwd (Octets.toText path) with
    | .ok n =>
      if n.isFile && n.allows .execute then .ok path else findFile t cwd .permissionDenied rest
    | .error .notFound | .error .notDirectory => findFile t cwd fault rest
    | .error other => findFile t cwd other rest

/-- The path that a name means: itself if it has a slash, and otherwise one in the search path. -/
def pathOf (e : Env) (t : Tree) (path name : String) : Except Fault String :=
  if name.toList.contains '/' then .ok name
  else findFile t e.setting.cwd .notFound (candidates path name)

/-- What is said about a program that cannot be started, and the result. -/
def launchFault : Fault → String × Nat
  | .notFound | .notDirectory => ("not found", 127)
  | .nameTooLong => (Fault.nameTooLong.description, 127)
  | .tooManyLinks => (Fault.tooManyLinks.description, 127)
  | fault => (fault.description, 126)

/-- What a name means, in words or in the form in which it can be used; there is nothing to say if
it means nothing. -/
def meaning? (e : Env) (t : Tree) (path : String) (inWords : Bool) (name : String) :
    Option String :=
  let say (short long : String) : Option String :=
    some ((if inWords then name ++ long else short) ++ "\n")
  if Reader.reservedWords.contains name then say name " is a shell keyword"
  else match e.aliases.lookup name with
    | some value =>
      say ("alias " ++ name ++ "=" ++ singleQuoted value) (" is an alias for " ++ value)
    | none =>
      if (e.functions.lookup name).isSome then say name " is a shell function"
      else if isOwn name then
        say name (if Reader.specialNames.contains name then " is a special shell builtin"
          else " is a shell builtin")
      else match pathOf e t path name with
        | .ok path =>
          if name.toList.contains '/' && !(t.stat e.setting.cwd (Octets.toText path)).isOk then none
          else say path ((if e.found.contains name then " is a tracked alias for " else " is ") ++
            path)
        | .error _ => none

/-- The search path that finds the standard programs. -/
def standardPath : String :=
  "/usr/local/sbin:/usr/local/bin:/usr/sbin:/usr/bin:/sbin:/bin"

/-- Notes that a name was looked for in the search path. -/
def noting (e : Env) (t : Tree) (name : String) : Env :=
  if name.toList.contains '/' || isOwn name || (e.functions.lookup name).isSome ||
      Reader.reservedWords.contains name || e.found.contains name then e
  else match pathOf e t e.searchPath name with
    | .ok _ => { e with found := e.found ++ [name] }
    | .error _ => e

/-- Tells in words what names mean. -/
def telling : Builtin := fun c e k => .look fun w =>
  let rows := c.args.map fun name => (name, meaning? e w.tree e.searchPath true name)
  let text := String.join (rows.map fun (name, text) => text.getD (name ++ ": not found\n"))
  let status := if rows.any fun (_, text) => text.isNone then 127 else 0
  c.print ((c.args.foldl (noting · w.tree) e).after status) text k

/-- Tells what a name means, in words if asked for. -/
def finding : Builtin := fun c e k => c.withOptions e ['p', 'v', 'V'] [] fun options operands =>
  let has (letter : Char) : Bool := options.any (·.1 == letter)
  match operands with
  | [] => k (e.after 0)
  | name :: _ =>
    if !has 'v' && !has 'V' then k (e.after 0)
    else .look fun w =>
      let path := if has 'p' then standardPath else e.searchPath
      match meaning? e w.tree path (has 'V') name with
      | some text => c.print ((noting e w.tree name).after 0) text k
      | none => c.print (e.after 127) (if has 'V' then name ++ ": not found\n" else "") k

/-- The place of a command among those that were found: they are kept in rows by the sum of the
bytes of their names. -/
def foundRow (name : String) : Nat :=
  match name.toList with
  | [] => 0
  | first :: rest => (first.toNat * 16 + ((first :: rest).map Char.toNat).foldl (· + ·) 0) % 31

/-- Shows which commands were found in the search path, or forgets them. -/
def hashing : Builtin := fun c e k => c.withOptions e ['r'] [] fun options operands =>
  if !options.isEmpty then k ({ e with found := [] }.after 0)
  else .look fun w =>
    let path (name : String) : Option String := (pathOf e w.tree e.searchPath name).toOption
    if operands.isEmpty then
      let names := (List.range 31).flatMap fun i => e.found.filter (foundRow · = i)
      let rows := names.filterMap path
      c.print (e.after 0) (String.join (rows.map (· ++ "\n"))) k
    else
      let isKnown (name : String) : Bool :=
        isOwn name || (e.functions.lookup name).isSome || (path name).isSome
      let missing := operands.filter (!isKnown ·)
      let e := operands.foldl (noting · w.tree) e
      missing.foldr (fun name next => e.complain (name ++ ": not found") next)
        (k (e.after (if missing.isEmpty then 0 else 1)))

/-- Shows aliases or sets them. -/
def aliasing : Builtin := fun c e k => c.withOperands e fun operands =>
  let shown (name value : String) : String := name ++ "=" ++ singleQuoted value ++ "\n"
  let rec each : List String → (status : Nat) → Env → Behaviour
    | [], status, e => k (e.after status)
    | a :: rest, status, e =>
      let cs := a.toList
      let name := String.ofList (cs.takeWhile (· != '='))
      if name.length < a.length && !name.isEmpty then
        let value := String.ofList (cs.drop (name.length + 1))
        each rest status { e with aliases := (name, value) :: e.aliases.filter (·.1 != name) }
      else match e.aliases.lookup a with
        | some value => c.print e (shown a value) (each rest status)
        | none => e.setting.say ("alias: " ++ a ++ " not found\n") (each rest 1 e)
  if operands.isEmpty then
    c.print (e.after 0) (String.join (e.aliases.reverse.map fun (n, v) => shown n v)) k
  else each operands 0 e

/-- Forgets aliases. -/
def unaliasing : Builtin := fun c e k => c.withOptions e ['a'] [] fun options operands =>
  if !options.isEmpty then k ({ e with aliases := [] }.after 0)
  else
    let rec each : List String → (status : Nat) → Env → Behaviour
      | [], status, e => k (e.after status)
      | name :: rest, status, e =>
        if (e.aliases.lookup name).isSome then
          each rest status { e with aliases := e.aliases.filter (·.1 != name) }
        else e.setting.say ("unalias: " ++ name ++ " not found\n") (each rest 1 e)
    each operands 0 e

end LangBundle.Shell.Builtin
