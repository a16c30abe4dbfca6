import LangBundle.Files.Mode
import LangBundle.Utility.Account

/-!
# Changing permissions
-/

namespace LangBundle.Utility

open Files (Fault Tree Place Node)
open Process

/-- The letters of permission bits. -/
def modeLetters (mode : Nat) : String :=
  let has (bit : Nat) : Bool := mode &&& bit != 0
  let triple (shift : Nat) (special : Bool) (both alone : Char) : List Char :=
    let executes := has (1 <<< shift)
    [if has (4 <<< shift) then 'r' else '-', if has (2 <<< shift) then 'w' else '-',
      if special then if executes then both else alone else if executes then 'x' else '-']
  String.ofList (triple 6 (has 0o4000) 's' 'S' ++ triple 3 (has 0o2000) 's' 'S' ++
    triple 0 (has 0o1000) 't' 'T')

/-- The octal digits of permission bits. -/
def modeDigits (mode : Nat) : String :=
  let ds := Nat.toDigits 8 mode
  String.ofList (List.replicate (4 - ds.length) '0' ++ ds)

/-- Permission bits as digits and as letters. -/
def shownMode (mode : Nat) : String :=
  modeDigits mode ++ " (" ++ modeLetters mode ++ ")"

/-- How permissions are changed. -/
structure ModeChange where
  text : String
  /-- Whether bits that the mask keeps are reported. -/
  guarded : Bool
  recursive : Bool
  silent : Bool
  /-- The letter for what is told: every file, those that change, or nothing. -/
  telling : Option Char

/-- Gives a node other permission bits. -/
def setMode (cwd : Place) (path : String) (mode : Nat) (t : Tree) : Except Fault Tree := do
  let place ← t.resolve cwd path
  match t.get? place with
  | some (.device _) | some (.program _) => throw .notPermitted
  | some n => if place.isEmpty then throw .notPermitted else
      pure (t.replaceNode place (n.withMode mode))
  | none => throw .notFound

/-- Changes the permissions of one file. -/
def changeMode (p : Printer) (c : ModeChange) (path : String) (n : Node) (a : Account)
    (k : Account → Behaviour) : Behaviour :=
  let mask := p.setting.mask
  let old := n.mode
  match Files.Mode.changed? mask n.isDirectory old c.text with
  | none => k a
  | some new =>
    let naive := (Files.Mode.changed? 0 n.isDirectory old c.text).getD new
    let tell (a : Account) : Behaviour :=
      let changed := old != new
      if c.telling = some 'v' && !changed then
        p.tell ("mode of " ++ quoted path ++ " retained as " ++ shownMode old ++ "\n") a k
      else if c.telling.isSome && changed then
        p.tell ("mode of " ++ quoted path ++ " changed from " ++ shownMode old ++ " to " ++
          shownMode new ++ "\n") a k
      else k a
    attempt (setMode p.setting.cwd (Octets.toText path) new) fun
      | .ok () =>
        if c.guarded && new - (new &&& naive) != 0 then
          p.fail (shown path ++ ": new permissions are " ++ modeLetters new ++ ", not " ++
            modeLetters naive) 1 a tell
        else tell a
      | .error fault =>
        let told (a : Account) : Behaviour :=
          p.tellIf (c.telling = some 'v') ("failed to change mode of " ++ quoted path ++ " from " ++
            shownMode old ++ " to " ++ shownMode new ++ "\n") a k
        if c.silent then told { a with code := 1 }
        else p.fail ("changing permissions of " ++ quoted path ++ ": " ++ fault.description) 1 a
          told

/-- Changes the permissions of a file and, if it is a directory, of what is below it. -/
def changeModes (p : Printer) (c : ModeChange) : (fuel : Nat) → (isOperand : Bool) →
    (path : String) → Account → (Account → Behaviour) → Behaviour
  | 0, _, _, a, k => k a
  | fuel + 1, isOperand, path, a, k =>
    let cwd := p.setting.cwd
    let text := Octets.toText path
    let unknown (a : Account) : Behaviour :=
      p.tellIf (c.telling = some 'v') (quoted path ++ " could not be accessed\n") a k
    let fail (text : String) (a : Account) : Behaviour :=
      if c.silent then unknown { a with code := 1 } else p.fail text 1 a unknown
    .look fun w => match w.tree.lstat cwd text with
      | .error fault => fail ("cannot access " ++ quoted path ++ ": " ++ fault.description) a
      | .ok n =>
        let isLink : Bool := match n with
          | .link _ => true
          | _ => false
        match w.tree.stat cwd text with
        | .error _ => if isOperand then fail ("cannot operate on dangling symlink " ++ quoted path) a
            else k a
        | .ok n =>
          if isLink && !isOperand then
            p.tellIf (c.telling = some 'v') ("neither symbolic link " ++ quoted path ++
              " nor referent has been changed\n") a k
          else changeMode p c path n a fun a =>
            if !(c.recursive && n.isDirectory) then k a
            else .look fun w => match w.tree.list cwd text with
              | .error fault =>
                fail ("cannot read directory " ++ quoted path ++ ": " ++ fault.description) a
              | .ok names =>
                forEach (fun name => changeModes p c fuel false (pathIn path (Octets.ofText name)))
                  names a k

/-- The options of `chmod`; those that are a mode keep what stands behind them. -/
def chmodChoices : List Choice :=
  [⟨'c', "changes", .no⟩, ⟨'f', "silent", .no⟩, ⟨'f', "quiet", .no⟩, ⟨'v', "verbose", .no⟩,
    ⟨'R', "recursive", .no⟩, ⟨'\x00', "reference", .yes⟩, ⟨'\x01', "preserve-root", .no⟩,
    ⟨'\x02', "no-preserve-root", .no⟩] ++
    ("rwxXstugoa,+=01234567".toList.map fun c => ⟨c, "", .maybe⟩)

/-- Changes permissions. -/
def chmod : Program := fun s name args =>
  withArguments s name 1 chmodChoices args fun a =>
    let p : Printer := { setting := s, name }
    let isMode (c : Char) : Bool := "rwxXstugoa,+=01234567".toList.contains c
    let written := (a.options.filter (isMode ·.1)).map fun (c, rest) =>
      "-" ++ c.toString ++ rest
    let run (text : String) (guarded : Bool) (operands : List String) : Behaviour :=
      if (Files.Mode.changed? s.mask false 0 text).isNone then
        misused s name ("invalid mode: " ++ quoted text) 1
      else
        let c : ModeChange :=
          { text, guarded, recursive := a.has 'R', silent := a.has 'f'
            telling := a.last? ['c', 'v'] }
        p.runEach (changeModes p c deepest true) operands
    match written, a.value? '\x00', a.operands with
    | [], some reference, operands => .look fun w =>
      match w.tree.stat s.cwd (Octets.toText reference) with
      | .ok n => run (modeDigits n.mode) false operands
      | .error fault => complain s name
          ("failed to get attributes of " ++ quoted reference ++ ": " ++ fault.description) (exit 1)
    | [], none, [] => missing s name "operand"
    | [], none, [text] => misused s name ("missing operand after " ++ quoted text) 1
    | [], none, text :: operands => run text false operands
    | written, _, operands =>
      let text := ",".intercalate written
      if operands.isEmpty then misused s name ("missing operand after " ++ quoted text) 1
      else run text true operands

end LangBundle.Utility
