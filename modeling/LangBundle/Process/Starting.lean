import LangBundle.Process.Setting
import LangBundle.Text.Classes

/-!
# Looking for a program and starting it

A name without a slash is looked for in a search path.  What can be started first is started; a
file that is no program is taken for a script.
-/

namespace LangBundle.Process

open Files (Fault Tree)

/-- The paths that a name may have in a search path. -/
def candidates (path name : String) : List String :=
  (Text.split ':' path).map fun dir => if dir.isEmpty then name else dir ++ "/" ++ name

/-- Starts the program at a path; a file that is no program is a script of the shell. -/
def startOrRead (start : Starter) (setting : Setting) (path : String) (args : List String)
    (t : Tree) : Except Fault Behaviour :=
  match start setting path args t with
  | .error .notExecutableFormat => start setting "/bin/sh" ("/bin/sh" :: path :: args.tail) t
  | result => result

/-- Starts the first program among paths that can be started; what was found on the way decides what
is said if there is none. -/
def startFirst (start : Starter) (setting : Setting) (args : List String) (t : Tree) :
    (fault : Fault) → List String → Except Fault Behaviour
  | fault, [] => .error fault
  | fault, path :: rest =>
    match startOrRead start setting path args t with
    | .ok program => .ok program
    | .error .notFound | .error .notDirectory => startFirst start setting args t fault rest
    | .error other => startFirst start setting args t other rest

/-- Starts the program that the first of some arguments names. -/
def startNamed (start : Starter) (setting : Setting) (path : String) (args : List String)
    (t : Tree) : Except Fault Behaviour :=
  let name := args.headD ""
  if name.toList.contains '/' then startOrRead start setting name args t
  else if name.isEmpty then .error .notFound
  else startFirst start setting args t .notFound (candidates path name)

end LangBundle.Process
