import LangBundle.Files.Mode
import LangBundle.Shell.Builtin.Variables

/-!
# The working directory and the mask

`cd` remembers by which path it went, so that `..` leads back over a symbolic link.
-/

namespace LangBundle.Shell.Builtin

open Files (Place Node)
open Process

/-- The path of a place. -/
def pathOfPlace (p : Place) : String :=
  Octets.ofText ("/" ++ "/".intercalate p)

/-- The slashes in front of an absolute path: two of them stay two, and more are one. -/
def rootOf (path : String) : String :=
  if path.startsWith "//" && !path.startsWith "///" then "//" else "/"

/-- The path that another one leads to from a directory, its dots taken away. -/
def follow (here target : String) : String :=
  let absolute := Path.isAbsolute target
  let names := if absolute then Text.split '/' target
    else Text.split '/' here ++ Text.split '/' target
  let kept := names.foldl (fun (above : List String) name =>
    match name with
    | "" | "." => above
    | ".." => above.tail
    | name => name :: above) []
  rootOf (if absolute then target else here) ++ "/".intercalate kept.reverse

/-- The shell in another directory. -/
def moveTo (e : Env) (place : Place) (path : String) : Env :=
  let e := (e.assign "OLDPWD" e.here true).assign "PWD" path true
  { e with here := path, setting := { e.setting with cwd := place } }

/-- Goes to a directory. -/
def moving : Builtin := fun c e k => c.withOptions e ['L', 'P'] [] fun options operands =>
  let physical := options.getLast?.any (·.1 == 'P')
  let back := operands.head? = some "-"
  let wanted := match operands with
    | [] => (e.value? "HOME").getD ""
    | "-" :: _ => (e.value? "OLDPWD").getD ""
    | target :: _ => target
  let isPlain := Path.isAbsolute wanted || wanted = "." || wanted = ".." ||
    wanted.startsWith "./" || wanted.startsWith "../"
  .look fun w =>
    let enter (target : String) : Option (Place × String) :=
      let path := if physical then target else follow e.here target
      match w.tree.directoryAt e.setting.cwd (Octets.toText path) with
      | .ok p =>
        if (w.tree.get? p).any (·.allows .execute) then
          some (p, if physical then pathOfPlace p else path)
        else none
      | .error _ => none
    let target := if wanted.isEmpty then "." else wanted
    let isDirectory (path : String) : Bool := w.tree.isDirectory e.setting.cwd (Octets.toText path)
    let listed : Option (String × Bool) :=
      if isPlain then none
      else match e.value? "CDPATH" with
        | none => none
        | some list => (Text.split ':' list).findSome? fun dir =>
          let path := if dir.isEmpty then target else dir ++ "/" ++ target
          if isDirectory path then some (path, !dir.isEmpty) else none
    let (path, found) := listed.getD (target, false)
    match enter path with
    | none => c.fail e ("can't cd to " ++ wanted)
    | some (place, path) =>
      let e := moveTo e place path
      c.print (e.after 0) (if back || found then path ++ "\n" else "") k

/-- Prints the working directory. -/
def showing : Builtin := fun c e k => c.withOptions e ['L', 'P'] [] fun options _ =>
  let physical := options.getLast?.any (·.1 == 'P')
  c.print (e.after 0) ((if physical then pathOfPlace e.setting.cwd else e.here) ++ "\n") k

/-- The octal digits of a mode. -/
def octalText (width n : Nat) : String :=
  let ds := Nat.toDigits 8 n
  String.ofList (List.replicate (width - ds.length) '0' ++ ds)

/-- Shows which permissions new files do not get, or sets that. -/
def masking : Builtin := fun c e k => c.withOptions e ['S'] [] fun options operands =>
  let set (mask : Nat) : Behaviour := k ({ e with setting := { e.setting with mask } }.after 0)
  match operands with
  | [] =>
    let mask := e.setting.mask
    let letters (shift : Nat) : String := String.ofList
      ([('r', 4), ('w', 2), ('x', 1)].filterMap fun (letter, bit) =>
        if (mask >>> shift) &&& bit = 0 then some letter else none)
    let text := if options.isEmpty then octalText 4 mask
      else "u=" ++ letters 6 ++ ",g=" ++ letters 3 ++ ",o=" ++ letters 0
    c.print (e.after 0) (text ++ "\n") k
  | word :: _ =>
    if (word.toList.head?.bind Text.digit?).isSome then
      let (mask, rest) := Text.digits 8 0 word.toList
      if rest.isEmpty then set (mask &&& 0o777) else c.fail e ("Illegal number: " ++ word)
    else match Files.Mode.changed? 0 false (0o777 - e.setting.mask) word with
      | some allowed => set (0o777 - (allowed &&& 0o777))
      | none => c.fail e ("Illegal mode: " ++ word)

end LangBundle.Shell.Builtin
