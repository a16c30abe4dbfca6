import LangBundle.Utility.Account

/-!
# Backups

A file that another one replaces may be kept under a further name: its own with an ending, or with
the next number that is free.
-/

namespace LangBundle.Utility

open Files (Fault Tree Place)
open Process

/-- Whether the file that another one replaces is kept under a further name. -/
inductive BackupKind where
  | none
  | simple
  /-- With numbers if there are such backups already. -/
  | existing
  | numbered
  deriving Repr, DecidableEq

/-- The words for kinds of backups. -/
def backupWords : List (Wording BackupKind) :=
  [⟨["none", "off"], .none⟩, ⟨["simple", "never"], .simple⟩, ⟨["existing", "nil"], .existing⟩,
    ⟨["numbered", "t"], .numbered⟩]

/-- How backups are made. -/
structure Backups where
  kind : BackupKind := .none
  suffix : String := "~"

namespace Backups

/-- The letter of the option for backups that has a long name. -/
def letter : Char := '\x0b'

/-- How backups are made as options say. -/
def ofArguments (a : Arguments) : Except String Backups := do
  let asked : BackupKind := if a.has 'b' || a.has 'S' then .existing else .none
  let kind ← (a.values letter).foldlM (fun _ text =>
    if text.isEmpty then .ok BackupKind.existing else worded backupWords "backup type" text) asked
  return { kind, suffix := (a.value? 'S').getD "~" }

/-- The number in the name of a backup. -/
def number? (name backup : String) : Option Nat :=
  let start := name ++ ".~"
  if backup.startsWith start && backup.endsWith "~" then
    Text.decimal? ((backup.toList.drop start.length).dropLast)
  else none

/-- The path under which the file at a path is kept. -/
def path? (b : Backups) (t : Tree) (cwd : Place) (path : String) : Option String :=
  let names := (t.list cwd (Octets.toText (pathAbove path))).toOption.getD []
  let numbers := names.filterMap fun name => number? (lastName path) (Octets.ofText name)
  let numbered := path ++ ".~" ++ toString (numbers.foldl max 0 + 1) ++ "~"
  match b.kind with
  | .none => none
  | .simple => some (path ++ b.suffix)
  | .existing => some (if numbers.isEmpty then path ++ b.suffix else numbered)
  | .numbered => some numbered

/-- Keeps the file at a path under another name; goes on with that, if backups are made. -/
def keep (b : Backups) (p : Printer) (path : String) (acc : Account)
    (k : Account → Behaviour) (kept : Option String → Behaviour) : Behaviour :=
  let cwd := p.setting.cwd
  .look fun w => match b.path? w.tree cwd path with
    | none => kept none
    | some saved => attempt (·.rename cwd (Octets.toText path) (Octets.toText saved)) fun
      | .ok () => kept (some saved)
      | .error fault =>
        p.fail ("cannot backup " ++ quoted path ++ ": " ++ fault.description) 1 acc k

end Backups

end LangBundle.Utility
