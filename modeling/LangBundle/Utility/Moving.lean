import LangBundle.Utility.Replacing

/-!
# Moving files

A file gets another path, and what was there goes unless it is kept under a further name.
-/

namespace LangBundle.Utility

open Files (Fault Tree Place Node Identity)
open Process

/-- How files are moved. -/
structure Moving where
  /-- Whether files that are there are kept. -/
  keeps : Bool
  updating : Updating
  asks : Bool
  verbose : Bool
  backups : Backups

/-- Gives a file another path. -/
def moveFile (p : Printer) (m : Moving) (source target : String) (g : Progress)
    (k : Progress → Behaviour) : Behaviour :=
  let cwd := p.setting.cwd
  let sourcePath := Octets.toText source
  let targetPath := Octets.toText target
  let cannot (fault : Fault) (g : Progress) : Behaviour :=
    p.refuse ("cannot move " ++ quoted source ++ " to " ++ quoted target ++ ": " ++
      fault.description) g k
  let rename (saved : Option String) (g : Progress) : Behaviour :=
    if [".", "..", "/"].contains (lastName sourcePath) then cannot .busy g
    else attempt (·.rename cwd sourcePath targetPath) fun
      | .ok () =>
        p.report m.verbose ("renamed " ++ pairText source target saved ++ "\n") g fun g =>
          .look fun w =>
            let made := (w.tree.identity? cwd false targetPath).toList.map (target, ·)
            k { g with targets := made ++ g.targets }
      | .error .invalidArgument => p.refuse ("cannot move " ++ quoted source ++
          " to a subdirectory of itself, " ++ quoted target) g k
      | .error fault =>
        if [Fault.alreadyExists, .isDirectory, .noSpace, .notEmpty].contains fault then
          p.refuse ("cannot overwrite " ++ quoted target ++ ": " ++ fault.description) g k
        else cannot fault g
  .look fun w =>
    let t := w.tree
    match t.lstat cwd sourcePath with
    | .error fault => p.refuse ("cannot stat " ++ quoted source ++ ": " ++ fault.description) g k
    | .ok node => match t.lstat cwd targetPath with
      | .error .notFound => rename none g
      | .error fault => p.refuse ("cannot stat " ++ quoted target ++ ": " ++ fault.description) g k
      | .ok old =>
        let r : Replacement := { source, target, node, old, moves := true, backups := m.backups }
        let move (g : Progress) : Behaviour := match r.obstacle? t cwd g with
          | some text => p.refuse text g k
          | none =>
            if r.keepsOld then
              m.backups.keep p target g.account (fun account => k { g with account })
                fun saved => rename saved g
            else rename none g
        if m.updating ≠ .none && !m.keeps && r.relationship t cwd = .same then
          p.refuse (quoted source ++ " and " ++ quoted target ++ " are the same file") g k
        else if m.updating = .none || m.updating.isCurrent node old then k g
        else if m.keeps then p.refuse ("not replacing " ++ quoted target) g k
        else if m.asks then p.askReplacing "overwrite" target g move k
        else move g

/-- The options of `mv`. -/
def mvChoices : List Choice :=
  [⟨Backups.letter, "backup", .maybe⟩, ⟨'b', "", .no⟩, ⟨'\x0e', "context", .no⟩,
    ⟨'f', "force", .no⟩, ⟨'i', "interactive", .no⟩, ⟨'n', "no-clobber", .no⟩,
    ⟨'\x02', "no-copy", .no⟩, ⟨'T', "no-target-directory", .no⟩,
    ⟨'\x08', "strip-trailing-slashes", .no⟩, ⟨'S', "suffix", .yes⟩,
    ⟨'t', "target-directory", .yes⟩, ⟨'u', "", .no⟩, ⟨'\x09', "update", .maybe⟩,
    ⟨'v', "verbose", .no⟩, ⟨'Z', "", .no⟩]

/-- How options say that files are moved. -/
def movingOf (a : Arguments) : Except String Moving := do
  let backups ← Backups.ofArguments a
  let updating ← updatingOf a
  let last := a.last? ['f', 'i', 'n']
  if backups.kind ≠ .none && last = some 'n' then
    throw "options --backup and --no-clobber are mutually exclusive"
  return {
    backups, updating, keeps := last = some 'n', asks := last = some 'i'
    verbose := a.has 'v' }

/-- Moves files. -/
def mv : Program := fun s name args =>
  withArguments s name 1 mvChoices args fun a => match movingOf a with
  | .error text => misused s name text 1
  | .ok m =>
    let a := if a.has '\x08' then a.stripped else a
    withPairs { setting := s, name } a (moveFile { setting := s, name } m)

end LangBundle.Utility
