import LangBundle.Shell.Expansion

/-!
# Redirections

The words of all redirections of a command are expanded first.  The redirections are then made one
after the other, and the first that cannot be made ends the row.  What a descriptor stood for before
is kept open beside it until the redirections are taken back.
-/

namespace LangBundle.Shell

open Files (Fault)
open Process
open Expansion (Context)

namespace Redirection

/-- What a redirection does once its word is known. -/
inductive Effect where
  | openPath (opening : Opening) (creates : Bool) (path : String)
  /-- Opens a file that must not be there, unless it is no regular file. -/
  | create (path : String)
  | duplicate (descriptor : Nat)
  | close
  /-- Reads the document with a number. -/
  | document (number : Nat)

/-- Expands the word of a redirection. -/
def effect (c : Context) (e : Env) (action : RedirectAction) (k : Effect → Rest) : Behaviour :=
  match action with
  | .read path => Word.expandText path c e fun path => k (.openPath .read false path)
  | .write path => Word.expandText path c e fun path e =>
    k (if e.has 'C' then .create path else .openPath .write true path) e
  | .overwrite path => Word.expandText path c e fun path => k (.openPath .write true path)
  | .append path => Word.expandText path c e fun path => k (.openPath .append true path)
  | .readWrite path => Word.expandText path c e fun path => k (.openPath .readWrite true path)
  | .duplicate descriptor => k (.duplicate descriptor) e
  | .duplicateNamed word => Word.expandText word c e fun text e =>
    match text.toList with
    | ['-'] => k .close e
    | [d] => match Text.digit? d with
      | some n => k (.duplicate n) e
      | none => { e with line := e.lastLine }.fault "Syntax error: Bad fd number" c.exits
    | _ => { e with line := e.lastLine }.fault "Syntax error: Bad fd number" c.exits
  | .close => k .close e
  | .document number => k (.document number) e

/-- Expands the words of redirections. -/
def effects (c : Context) : List Redirect → Env → (List (Nat × Effect) → Rest) → Behaviour
  | [], e, k => k [] e
  | .mk descriptor action :: rest, e, k =>
    effect c e action fun first e => effects c rest e fun more => k ((descriptor, first) :: more)

/-- Lets a descriptor stand for something else.  What it stood for is kept, unless it is to be
forgotten. -/
def replace (keep : Bool) (descriptor : Nat) (stream : Option Stream) (e : Env) : Env :=
  let old := if keep then (e.setting.stream? descriptor).toList else []
  let setting := e.setting.set descriptor stream
  { e with setting := { setting with kept := old ++ setting.kept } }

/-- What is said about a file that cannot be opened. -/
def openFault (creates : Bool) (path : String) (fault : Fault) : String :=
  let text := match fault with
    | .notFound | .notDirectory => if creates then "Directory nonexistent" else "No such file"
    | fault => fault.description
  "cannot " ++ (if creates then "create " else "open ") ++ path ++ ": " ++ text

/-- Makes one redirection. -/
def apply (c : Context) (keep : Bool) (descriptor : Nat) (effect : Effect) (e : Env) (k : Rest)
    (failed : Rest) : Behaviour :=
  let put (stream : Option Stream) (e : Env) : Behaviour :=
    let e := replace keep descriptor stream e
    e.setting.settle (k e)
  let openPath (opening : Opening) (creates : Bool) (path : String) : Behaviour :=
    e.setting.openFile opening path 0o666 fun
      | .ok stream => put (some stream) e
      | .error fault => e.complain (openFault creates path fault) (failed (e.after 2))
  match effect with
  | .openPath opening creates path => openPath opening creates path
  | .create path => .look fun w =>
    match w.tree.stat e.setting.cwd (Octets.toText path) with
    | .ok (.file ..) | .ok (.program _) =>
      e.complain (openFault true path .alreadyExists) (failed (e.after 2))
    | _ => openPath .write true path
  | .duplicate source =>
    match e.setting.stream? source with
    | none =>
      if source = descriptor then k e
      else e.complain (toString source ++ ": " ++ Fault.badDescriptor.description)
        (failed (e.after 2))
    | some stream => put (some stream) e
  | .close => put none e
  | .document number =>
    let word := (e.documents.lookup number).getD []
    let c := { c with exits := { c.exits with fail := failed }, fields := false }
    Expansion.parts c word e fun gs e =>
      let data := Octets.toBytes (Glyph.text gs)
      .act (·.addPipe data) fun w => put (some (.reader (.made w.nextNumber))) e

/-- Makes redirections one after the other. -/
def applyAll (c : Context) (keep : Bool) : List (Nat × Effect) → Env → Rest → Rest → Behaviour
  | [], e, k, _ => k e
  | (descriptor, effect) :: rest, e, k, failed =>
    apply c keep descriptor effect e (fun e => applyAll c keep rest e k failed) failed

/-- Notes which descriptors are covered by redirections. -/
def cover (e : Env) : Env :=
  { e with covered := (e.setting.descriptors, e.setting.kept) :: e.covered }

/-- Takes redirections back, down to a number of those that are in force. -/
def uncover (depth : Nat) (e : Env) (k : Rest) : Behaviour :=
  match (e.covered.take (e.covered.length - depth)).getLast? with
  | none => k e
  | some (descriptors, kept) =>
    let covered := e.covered.drop (e.covered.length - depth)
    let setting := { e.setting with descriptors, kept }
    setting.settle (k { e with setting, covered })

/-- Leaves the innermost redirections in force for good. -/
def commit (e : Env) (k : Rest) : Behaviour :=
  match e.covered with
  | [] => k e
  | (_, kept) :: covered =>
    let setting := { e.setting with kept }
    setting.settle (k { e with setting, covered })

end Redirection

end LangBundle.Shell
