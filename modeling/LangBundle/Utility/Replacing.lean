import LangBundle.Files.Identity
import LangBundle.Utility.Backup

/-!
# Files that take the place of others

What a copied or moved file may replace, and what is said if it may not.
-/

namespace LangBundle.Utility

open Files (Fault Tree Place Node Identity)
open Process

/-! ## How far a program has come -/

/-- How far a program has come that copies, moves or links files. -/
structure Progress where
  account : Account := {}
  /-- The operands so far, each with its file. -/
  sources : List (String × Identity) := []
  /-- What operands have become so far, each with its file. -/
  targets : List (String × Identity) := []
  /-- The directories that have been copied or made, and the paths of their copies. -/
  directories : List (Place × String) := []
  /-- The serial numbers of files that have been copied, and the paths of their copies. -/
  files : List (Nat × String) := []
  /-- Whether a directory was about to be copied into itself. -/
  inItself : Bool := false

namespace Printer

/-- Says what went wrong and goes on. -/
def refuse (p : Printer) (text : String) (g : Progress) (k : Progress → Behaviour) : Behaviour :=
  p.fail text 1 g.account fun account => k { g with account }

/-- Says what seems wrong and goes on as if it was not. -/
def warn (p : Printer) (text : String) (g : Progress) (k : Progress → Behaviour) : Behaviour :=
  p.complain g.account.told ("warning: " ++ text) fun told =>
    k { g with account := { g.account with told } }

/-- Tells what was done, if that is wanted. -/
def report (p : Printer) (wanted : Bool) (text : String) (g : Progress)
    (k : Progress → Behaviour) : Behaviour :=
  p.tellIf wanted text g.account fun account => k { g with account }

/-- Asks whether a file is replaced; if it is not, the program has failed. -/
def askReplacing (p : Printer) (what target : String) (g : Progress)
    (yes no : Progress → Behaviour) : Behaviour :=
  p.ask (what ++ " " ++ quoted target) g.account fun isYes account =>
    if isYes then yes { g with account } else no { g with account := { account with code := 1 } }

/-- Does something for each of a row and ends the program. -/
def runThrough {α : Type} (p : Printer)
    (each : α → Progress → (Progress → Behaviour) → Behaviour) (row : List α) : Behaviour :=
  forEach each row {} fun g => p.finish g.account.told g.account.code

end Printer

/-- Two names with a sign between them, and under which name what was there is kept. -/
def pairText (source target : String) (saved : Option String := none) : String :=
  quoted source ++ " -> " ++ quoted target ++
    String.join (saved.toList.map fun name => " (backup: " ++ quoted name ++ ")")

/-! ## When files are replaced -/

/-- When files that are there are replaced. -/
inductive Updating where
  | all
  | none
  | older
  deriving Repr, DecidableEq

/-- The words for when files that are there are replaced. -/
def updateWords : List (Wording Updating) :=
  [⟨["all"], .all⟩, ⟨["none"], .none⟩, ⟨["older"], .older⟩]

/-- When options say that files that are there are replaced. -/
def updatingOf (a : Arguments) : Except String Updating :=
  a.options.foldlM (fun updating (letter, text) =>
    if letter = 'u' || letter = '\x09' && text.isEmpty then .ok .older
    else if letter = '\x09' then worded updateWords "--update" text
    else .ok updating) .all

/-- Whether a file is no newer than the one that it would replace. -/
def Updating.isCurrent (u : Updating) (source target : Node) : Bool :=
  u = .older && !source.isDirectory && match source.serial?, target.serial? with
    | some m, some n => m ≤ n
    | _, _ => false

/-- A file that is to replace another one. -/
structure Replacement where
  source : String
  target : String
  /-- Whether the path of the source was given to the program. -/
  isOperand : Bool := true
  /-- What the source is, and whether a link at its end was followed. -/
  node : Node
  followsSource : Bool := false
  /-- What is at the target, and whether a link at its end was followed. -/
  old : Node
  followsTarget : Bool := false
  /-- Whether the source goes. -/
  moves : Bool := false
  /-- Whether some links are followed at all. -/
  follows : Bool := false
  /-- Whether the target becomes one more name of the source. -/
  links : Bool := false
  /-- Whether the target becomes a symbolic link. -/
  symbolic : Bool := false
  /-- Whether what is at the target is removed first. -/
  removes : Bool := false
  backups : Backups := {}

/-- How a file stands to the one that it is to replace. -/
inductive Relationship where
  | different
  | same
  /-- They are the same already, as is wanted. -/
  | settled
  deriving Repr, DecidableEq

namespace Replacement

/-- How the file stands to the one that it is to replace: the same file is not to get lost by
replacing it with itself. -/
def relationship (r : Replacement) (t : Tree) (cwd : Place) : Relationship :=
  let source := Octets.toText r.source
  let target := Octets.toText r.target
  let isLink : Node → Bool := fun
    | .link _ => true
    | _ => false
  let seen := t.identity? cwd r.followsSource source
  let isSame := seen.isSome && seen = t.identity? cwd r.followsTarget target
  let isSameName := t.isSameEntry cwd source target
  -- What is at the ends of both paths, and whether that is the same.
  let sourceIsLink := if r.follows then t.isLink cwd source else isLink r.node
  let targetIsLink := if r.follows then t.isLink cwd target else isLink r.old
  let isSameEnd := if r.follows then t.isSameFile cwd false source target else isSame
  if isSame && r.links then .settled
  else if r.follows && !isSame then .different
  else if r.follows && sourceIsLink && targetIsLink && r.removes then .different
  else if !r.follows && sourceIsLink && targetIsLink then
    if isSameName then .same else .different
  else if r.backups.kind ≠ .none then
    let dangles := !r.moves && r.follows && sourceIsLink && !targetIsLink
    if isSameEnd && isSameName || !isSameEnd && dangles then .same else .different
  else if (r.moves || r.removes) && targetIsLink then .different
  else if r.removes && isSameEnd && !isSameName && 1 < t.nameCount r.old then .different
  else if !sourceIsLink && !targetIsLink && !isSameEnd then .different
  else if r.moves && sourceIsLink && 1 < t.nameCount r.old then
    let goal := (t.resolve cwd source).toOption
    if goal.isSome && goal = (t.resolve cwd target false).toOption then .same else .different
  else if r.symbolic && targetIsLink then .different
  else if !r.follows && !t.isSameFile cwd true source target then .different
  else if !r.follows && r.links then if targetIsLink then .different else .settled
  else .same

/-- Whether the backup of what is at the target would take the place of the source. -/
def isBackup (r : Replacement) (t : Tree) (cwd : Place) : Bool :=
  let saved := r.target ++ r.backups.suffix
  lastName r.source = lastName r.target ++ r.backups.suffix &&
    t.identity? cwd r.followsSource (Octets.toText r.source) =
      t.identity? cwd true (Octets.toText saved)

/-- Whether what is at the target is kept under a further name. -/
def keepsOld (r : Replacement) : Bool :=
  r.backups.kind ≠ .none && !([".", ".."].contains (lastName r.source)) &&
    (r.moves || !r.old.isDirectory)

/-- Why the file cannot take the place of the other one. -/
def obstacle? (r : Replacement) (t : Tree) (cwd : Place) (g : Progress) : Option String :=
  let backs := r.backups.kind ≠ .none
  let isNew : Bool := match t.identity? cwd r.followsTarget (Octets.toText r.target) with
    | some identity => g.targets.contains (r.target, identity)
    | none => false
  if !r.old.isDirectory && r.node.isDirectory && !(r.moves && backs) then
    some ("cannot overwrite non-directory " ++ quoted r.target ++ " with directory " ++
      quoted r.source)
  else if !r.old.isDirectory && r.isOperand && r.backups.kind ≠ .numbered && isNew then
    some ("will not overwrite just-created " ++ quoted r.target ++ " with " ++ quoted r.source)
  else if !r.node.isDirectory && r.old.isDirectory && !(r.moves && backs) then
    some ("cannot overwrite directory " ++ quoted r.target ++ " with non-directory")
  else if r.keepsOld && r.backups.kind ≠ .numbered && r.isBackup t cwd then
    some ("backing up " ++ quoted r.target ++ " might destroy source;  " ++ quoted r.source ++
      (if r.moves then " not moved" else " not copied"))
  else none

end Replacement

/-! ## Sources and targets -/

/-- The operands of a program that puts things into a directory: the things, and where each goes. -/
def intoDirectory (directory : String) (operands : List String) : List (String × String) :=
  operands.map fun operand => (operand, pathIn directory (lastName operand))

/-- The sources and targets that operands name. -/
def pairsOf (s : Setting) (w : World) (a : Arguments) :
    Except (String × Bool) (List (String × String)) :=
  let directory (path : String) (what : String) : Except (String × Bool) Unit :=
    match w.tree.stat s.cwd (Octets.toText path) with
    | .ok n => if n.isDirectory then .ok ()
        else .error (what ++ " " ++ quoted path ++ ": " ++ Fault.notDirectory.description, false)
    | .error fault => .error (what ++ " " ++ quoted path ++ ": " ++ fault.description, false)
  match a.value? 't', a.operands with
  | _, [] => .error ("missing file operand", true)
  | some target, operands =>
    if a.has 'T' then .error
      ("cannot combine --target-directory (-t) and --no-target-directory (-T)", false)
    else do
      directory target "target directory"
      return intoDirectory target operands
  | none, [source] => .error ("missing destination file operand after " ++ quoted source, true)
  | none, [source, target] =>
    if !a.has 'T' && w.tree.isDirectory s.cwd (Octets.toText target) then
      .ok (intoDirectory target [source])
    else .ok [(source, target)]
  | none, operands =>
    if a.has 'T' then .error ("extra operand " ++ quoted (operands.getD 2 ""), true)
    else do
      let target := operands.getLast?.getD ""
      directory target "target"
      return intoDirectory target operands.dropLast

/-- Arguments whose operands but the last one have no slashes at their ends. -/
def Arguments.stripped (a : Arguments) : Arguments :=
  let strip : String → String := withoutEndSlashes
  { a with operands := if a.has 't' then a.operands.map strip
      else a.operands.dropLast.map strip ++ a.operands.drop (a.operands.length - 1) }

/-- Does something with each source and its target. -/
def withPairs (p : Printer) (a : Arguments)
    (each : String → String → Progress → (Progress → Behaviour) → Behaviour) : Behaviour :=
  .look fun w => match pairsOf p.setting w a with
    | .error (text, true) => misused p.setting p.name text 1
    | .error (text, false) => Utility.complain p.setting p.name text (exit 1)
    | .ok pairs => p.runThrough (fun (source, target) => each source target) pairs

end LangBundle.Utility
