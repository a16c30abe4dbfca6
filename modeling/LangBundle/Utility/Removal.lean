import LangBundle.Utility.Account

/-!
# Removing files and directories
-/

namespace LangBundle.Utility

open Files (Fault Tree Place Node)
open Process

/-- How files are removed. -/
structure Removing where
  recursive : Bool
  /-- Whether files that are not there are no fault. -/
  force : Bool
  /-- Whether empty directories are removed as well. -/
  directories : Bool
  verbose : Bool
  /-- Whether each removal is asked for. -/
  asks : Bool

/-- Says that something cannot be removed. -/
def cannotRemove (p : Printer) (path : String) (fault : Fault) (a : Account)
    (k : Account → Behaviour) : Behaviour :=
  p.fail ("cannot remove " ++ quoted path ++ ": " ++ fault.description) 1 a k

/-- Goes on only if a question, where one is asked, is answered with yes. -/
def confirmed (p : Printer) (asks : Bool) (question : String) (a : Account)
    (k : Account → Behaviour) (next : Account → Behaviour) : Behaviour :=
  if asks then p.ask question a fun yes a => if yes then next a else k a else next a

/-- Removes a directory by its name once it is empty. -/
def removeEmptied (p : Printer) (r : Removing) (path : String) (before a : Account)
    (k : Account → Behaviour) : Behaviour :=
  let text := Octets.toText path
  .look fun w =>
    let isLinked := text.endsWith "/" && match w.tree.lstat p.setting.cwd (withoutEndSlashes text) with
      | .ok (.link _) => true
      | _ => false
    confirmed p r.asks ("remove directory " ++ quoted path) a k fun a =>
      attempt (fun t => if isLinked then .error .notDirectory
          else t.removeDirectory p.setting.cwd text) fun
        | .ok () => p.tellIf r.verbose ("removed directory " ++ quoted path ++ "\n") a k
        -- What could not be removed below has been reported.
        | .error .notEmpty => if before.faults < a.faults then k a
            else cannotRemove p path .notEmpty a k
        | .error fault => cannotRemove p path fault a k

/-- Removes anything but a directory. -/
def removeOne (p : Printer) (r : Removing) (path : String) (n : Node) (a : Account)
    (k : Account → Behaviour) : Behaviour :=
  confirmed p r.asks ("remove " ++ kindOf n ++ " " ++ quoted path) a k fun a =>
    attempt (·.removeFile p.setting.cwd (Octets.toText path)) fun
      | .ok () => p.tellIf r.verbose ("removed " ++ quoted path ++ "\n") a k
      | .error fault => cannotRemove p path fault a k

/-- Removes a directory with everything below it, as deep as `fuel` says. -/
def removeBelow (p : Printer) (r : Removing) : (fuel : Nat) → (path : String) → Account →
    (Account → Behaviour) → Behaviour
  | 0, _, a, k => k a
  | fuel + 1, path, a, k =>
    let text := Octets.toText path
    let cwd := p.setting.cwd
    .look fun w => match w.tree.list cwd text with
      | .error fault =>
        match w.tree.resolve cwd text with
        | .ok place =>
          if (w.tree.children place).isEmpty then removeEmptied p r path a a k
          else cannotRemove p path fault a k
        | .error fault => cannotRemove p path fault a k
      | .ok names =>
        let one (name : String) (acc : Account) (k : Account → Behaviour) : Behaviour :=
          let below := pathIn path (Octets.ofText name)
          .look fun w => match w.tree.lstat cwd (Octets.toText below) with
            | .ok (.directory _) => removeBelow p r fuel below acc k
            | .ok n => removeOne p r below n acc k
            | .error fault => cannotRemove p below fault acc k
        let descends := r.asks && !names.isEmpty
        confirmed p descends ("descend into directory " ++ quoted path) a k fun a =>
          forEach one names a fun acc => removeEmptied p r path { a with told := {} } acc k

/-- Removes what an operand names. -/
def removeOperand (p : Printer) (r : Removing) (operand : String) (a : Account)
    (k : Account → Behaviour) : Behaviour :=
  let text := Octets.toText operand
  let cwd := p.setting.cwd
  let last := lastName operand
  .look fun w =>
    let found := if text.endsWith "/" then do
        match ← w.tree.lstat cwd text with
        | .directory mode => pure (Node.directory mode)
        | _ => throw Fault.notDirectory
      else w.tree.lstat cwd text
    match found with
    | .error fault =>
      if r.force && (fault = .notFound || fault = .notDirectory) then k a
      else cannotRemove p operand fault a k
    | .ok (.directory _) =>
      if !r.recursive then
        if r.directories then removeEmptied p r operand a a k
        else cannotRemove p operand .isDirectory a k
      else if last = "." || last = ".." then
        p.fail ("refusing to remove '.' or '..' directory: skipping " ++ quoted operand) 1 a k
      else if w.tree.resolve cwd text |>.toOption.any (·.isEmpty) then
        p.fail ("it is dangerous to operate recursively on " ++ quoted operand ++
          (if operand = "/" then "" else " (same as '/')")) 1 a fun a =>
            p.fail "use --no-preserve-root to override this failsafe" 1 a k
      else removeBelow p r deepest operand a k
    | .ok n => removeOne p r operand n a k

/-- Removes files, and directories with everything below them. -/
def rm : Program := fun s name args =>
  let choices : List Choice :=
    [⟨'f', "force", .no⟩, ⟨'i', "", .no⟩, ⟨'I', "", .no⟩, ⟨'r', "recursive", .no⟩, ⟨'R', "", .no⟩,
      ⟨'d', "dir", .no⟩, ⟨'v', "verbose", .no⟩, ⟨'\x00', "one-file-system", .no⟩,
      ⟨'\x01', "preserve-root", .maybe⟩, ⟨'\x02', "no-preserve-root", .no⟩,
      ⟨'\x03', "interactive", .maybe⟩]
  withArguments s name 1 choices args fun a =>
    let p : Printer := { setting := s, name }
    let r : Removing :=
      { recursive := a.has 'r' || a.has 'R', force := a.last? ['i', 'f'] = some 'f', directories := a.has 'd'
        verbose := a.has 'v', asks := a.last? ['i', 'f'] = some 'i' }
    if a.operands.isEmpty then if r.force then exit 0 else missing s name "operand"
    else p.runEach (removeOperand p r) a.operands

/-- Removes one file. -/
def unlink : Program := fun s name args =>
  withArguments s name 1 [] args fun a =>
    match a.operands with
    | [] => missing s name "operand"
    | [operand] => attempt (·.removeFile s.cwd (Octets.toText operand)) fun
      | .ok () => exit 0
      | .error fault =>
        complain s name ("cannot unlink " ++ quoted operand ++ ": " ++ fault.description) (exit 1)
    | _ :: extra :: _ => misused s name ("extra operand " ++ quoted extra) 1

/-- Removes an empty directory that a path names. -/
def removeNamed (cwd : Place) (path : String) (t : Tree) : Except Fault Tree :=
  let last := lastName path
  let linked : Bool := path.endsWith "/" &&
    match t.lstat cwd (withoutEndSlashes path) with
    | .ok (.link _) => true
    | _ => false
  if linked then .error .notDirectory
  else if last = "." && (t.stat cwd path).isOk then .error .invalidArgument
  else if last = ".." && (t.stat cwd path).isOk then .error .notEmpty
  else t.removeDirectory cwd path

/-- The paths above a path, the longest first. -/
def pathsAbove (path : String) : (fuel : Nat) → List String
  | 0 => []
  | fuel + 1 =>
    let above := pathAbove path
    if above = "." || above = "/" then [] else above :: pathsAbove above fuel

/-- Removes empty directories. -/
def rmdir : Program := fun s name args =>
  let choices : List Choice :=
    [⟨'p', "parents", .no⟩, ⟨'v', "verbose", .no⟩,
      ⟨'\x00', "ignore-fail-on-non-empty", .no⟩]
  withArguments s name 1 choices args fun a =>
    let p : Printer := { setting := s, name }
    let step (operand : String) (path : String) (state : Bool × Account)
        (k : Bool × Account → Behaviour) : Behaviour :=
      let text := Octets.toText path
      if !state.1 then k state
      else p.tellIf (a.has 'v') (name ++ ": removing directory, " ++ quoted path ++ "\n") state.2
        fun acc => .look fun w =>
          let isLinked := text.endsWith "/" && (removeNamed s.cwd text w.tree).toOption.isNone &&
            match w.tree.lstat s.cwd (withoutEndSlashes text) with
            | .ok (.link _) => true
            | _ => false
          attempt (removeNamed s.cwd text) fun
            | .ok () => k (true, acc)
            | .error fault =>
              if a.has '\x00' && fault = .notEmpty then k (false, acc)
              else p.fail ("failed to remove " ++ (if path = operand then "" else "directory ") ++
                quoted path ++ ": " ++ (if isLinked then "Symbolic link not followed"
                  else fault.description)) 1 acc fun acc => k (false, acc)
    let one (operand : String) (acc : Account) (k : Account → Behaviour) : Behaviour :=
      let paths := if a.has 'p' then operand :: pathsAbove operand operand.length else [operand]
      forEach (step operand) paths (true, acc) fun (_, acc) => k acc
    if a.operands.isEmpty then missing s name "operand" else p.runEach one a.operands

end LangBundle.Utility
