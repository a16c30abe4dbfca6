import LangBundle.Utility.Naming
import LangBundle.Utility.Replacing

/-!
# Making links

A hard link is one more name of a file, and a symbolic link a path that stands for another one.
-/

namespace LangBundle.Utility

open Files (Fault Tree Place Node Identity)
open Process

/-- Makes one more name for a file. -/
def link : Program := fun s name args =>
  withArguments s name 1 [] args fun a =>
    match a.operands with
    | [] => missing s name "operand"
    | [operand] => misused s name ("missing operand after " ++ quoted operand) 1
    | [target, link] =>
      let make (t : Tree) : Except Fault Tree := do
        let n ← t.lstat s.cwd (Octets.toText target)
        if n.isDirectory then throw .notPermitted
        t.makeNode s.cwd (Octets.toText link) n
      attempt make fun
        | .ok () => exit 0
        | .error fault => complain s name ("cannot create link " ++ quoted link ++ " to " ++
            quoted target ++ ": " ++ fault.description) (exit 1)
    | _ :: _ :: extra :: _ => misused s name ("extra operand " ++ quoted extra) 1

/-- How links are made. -/
structure Linking where
  symbolic : Bool
  /-- Whether what is there is replaced. -/
  force : Bool
  asks : Bool
  verbose : Bool
  /-- Whether a link that is the target of a hard link is followed. -/
  follows : Bool
  /-- Whether symbolic links lead from where they are. -/
  relative : Bool
  /-- Whether directories are tried as well. -/
  tries : Bool
  backups : Backups

/-- The text of a symbolic link that leads from where it is. -/
def relativeText (t : Tree) (cwd : Place) (target link : String) : String :=
  match finalPlace t cwd 'm' target, finalPlace t cwd 'm' (pathAbove link) with
  | .ok goal, .ok start => pathBetween start goal
  | _, _ => target

/-- Makes a link at a path. -/
def makeLink (p : Printer) (l : Linking) (target link : String) (g : Progress)
    (k : Progress → Behaviour) : Behaviour :=
  let cwd := p.setting.cwd
  let targetPath := Octets.toText target
  let linkPath := Octets.toText link
  let backs := l.backups.kind ≠ .none
  let node (text : String) (t : Tree) : Except Fault Node :=
    if !l.symbolic then do
      let n ← t.nodeAt cwd l.follows targetPath
      if n.isDirectory then throw .notPermitted
      return n
    else if text.isEmpty then .error .notFound
    else .ok (.link (Octets.toText text))
  let make (text : String) (replaces : Bool) (t : Tree) : Except Fault Tree := do
    let n ← node text t
    match t.makeNode cwd linkPath n with
    | .error .alreadyExists =>
      if replaces then
        if n.serial?.isSome && n.serial? = (← t.lstat cwd linkPath).serial? then return t
        else (← t.removeFile cwd linkPath).makeNode cwd linkPath n
      else throw .alreadyExists
    | result => result
  let failed (text : String) (fault : Fault) (g : Progress) : Behaviour :=
    let ending :=
      if l.symbolic then
        if fault = .nameTooLong || text.isEmpty then " -> " ++ quoted text else ""
      else if [Fault.alreadyExists, .noSpace].contains fault then ""
      else " => " ++ quoted text
    p.refuse ("failed to create " ++ (if l.symbolic then "symbolic" else "hard") ++ " link " ++
      quoted link ++ ending ++ ": " ++ fault.description) g k
  let made (text : String) (saved : Option String) (g : Progress) : Behaviour := .look fun w =>
    let identity := w.tree.identity? cwd false linkPath
    let targets := if l.symbolic then [] else identity.toList.map (link, ·)
    p.report l.verbose (String.join (saved.toList.map fun name => quoted name ++ " ~ ") ++
      quoted link ++ (if l.symbolic then " -> " else " => ") ++ quoted text ++ "\n")
      { g with targets := targets ++ g.targets } k
  -- `finish` makes the link once nothing is in the way but what may be replaced.
  let finish (text : String) (replaces : Bool) (saved : Option String) (g : Progress) :
      Behaviour :=
    attempt (make text replaces) fun
      | .ok () => made text saved g
      | .error fault => match saved with
        | none => failed text fault g
        | some name =>
          attempt (·.rename cwd (Octets.toText name) linkPath) fun _ => failed text fault g
  let retry (text : String) (t : Tree) : Behaviour :=
    let replaces := l.force || l.asks || backs
    match t.lstat cwd linkPath with
    | .error _ => finish text replaces none g
    | .ok old =>
      let identity := t.identity? cwd false linkPath
      let isNew := identity.any fun i => g.targets.contains (link, i)
      let source := t.identity? cwd (l.symbolic || l.follows) targetPath
      let isOnly := t.nameCount old = 1 || t.isSameEntry cwd targetPath linkPath
      let isSame := source.isSome && source = identity && isOnly
      if !replaces then finish text false none g
      else if old.isDirectory then p.refuse (shown link ++ ": cannot overwrite directory") g k
      else if isNew && l.force && !l.symbolic && l.backups.kind ≠ .numbered then
        p.refuse ("will not overwrite just-created " ++ quoted link ++ " with " ++ quoted text) g k
      else if (l.force || !l.symbolic && backs) && !(backs && l.symbolic) && isSame then
        p.refuse (quoted text ++ " and " ++ quoted link ++ " are the same file") g k
      else
        let go (g : Progress) : Behaviour :=
          if backs then
            l.backups.keep p link g.account (fun account => k { g with account })
              fun saved => finish text true saved g
          else finish text true none g
        if l.asks then p.askReplacing "replace" link g go k else go g
  .look fun w =>
    let t := w.tree
    let text := if l.relative then relativeText t cwd target link else target
    match make text false t with
    | .ok _ => finish text false none g
    | .error _ =>
      if l.symbolic then retry text t
      else match t.nodeAt cwd l.follows targetPath with
        | .error fault =>
          p.refuse ("failed to access " ++ quoted target ++ ": " ++ fault.description) g k
        | .ok n =>
          if n.isDirectory && !l.tries then
            p.refuse (shown target ++ ": hard link not allowed for directory") g k
          else retry text t

/-- The options of `ln`. -/
def lnChoices : List Choice :=
  [⟨Backups.letter, "backup", .maybe⟩, ⟨'b', "", .no⟩, ⟨'d', "directory", .no⟩, ⟨'F', "", .no⟩,
    ⟨'n', "no-dereference", .no⟩, ⟨'T', "no-target-directory", .no⟩, ⟨'f', "force", .no⟩,
    ⟨'i', "interactive", .no⟩, ⟨'S', "suffix", .yes⟩, ⟨'t', "target-directory", .yes⟩,
    ⟨'L', "logical", .no⟩, ⟨'P', "physical", .no⟩, ⟨'r', "relative", .no⟩,
    ⟨'s', "symbolic", .no⟩, ⟨'v', "verbose", .no⟩]

/-- Makes links. -/
def ln : Program := fun s name args =>
  withArguments s name 1 lnChoices args fun a => match Backups.ofArguments a with
  | .error text => misused s name text 1
  | .ok backups =>
    let p : Printer := { setting := s, name }
    let l : Linking :=
      { symbolic := a.has 's', verbose := a.has 'v', relative := a.has 'r'
        force := a.last? ['f', 'i'] = some 'f', asks := a.last? ['f', 'i'] = some 'i'
        follows := a.last? ['L', 'P'] = some 'L', tries := a.has 'd' || a.has 'F', backups }
    let fail (text : String) : Behaviour := complain s name text (exit 1)
    let run (pairs : List (String × String)) : Behaviour :=
      p.runThrough (fun (target, link) => makeLink p l target link) pairs
    -- The directory at a path, unless a link that leads to it stands for itself.
    let directory (t : Tree) (path : String) : Except Fault Unit :=
      let text := Octets.toText path
      if a.has 'n' && t.isLink s.cwd text then .error .notDirectory
      else (t.directoryAt s.cwd text).map fun _ => ()
    .look fun w =>
      let into (path : String) (operands : List String) : Behaviour :=
        match directory w.tree path with
        | .ok () => run (intoDirectory path operands)
        | .error fault => fail ("target " ++ quoted path ++ ": " ++ fault.description)
      match a.value? 't', a.operands with
      | _, [] => missing s name "file operand"
      | path, operands =>
        if l.relative && !l.symbolic then fail "cannot do --relative without --symbolic"
        else if a.has 'T' then
          match path, operands with
          | some _, _ => fail "cannot combine --target-directory and --no-target-directory"
          | none, [target, link] => run [(target, link)]
          | none, [target] =>
            misused s name ("missing destination file operand after " ++ quoted target) 1
          | none, operands => misused s name ("extra operand " ++ quoted (operands.getD 2 "")) 1
        else match path, operands with
          | some path, operands => into path operands
          | none, [target] => run (intoDirectory "." [target])
          | none, [target, link] =>
            if (directory w.tree link).isOk then run (intoDirectory link [target])
            else run [(target, link)]
          | none, operands => into (operands.getLast?.getD "") operands.dropLast

end LangBundle.Utility
