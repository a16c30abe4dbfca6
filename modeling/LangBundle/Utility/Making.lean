import LangBundle.Files.Mode
import LangBundle.Utility.Amount
import LangBundle.Utility.Account
import LangBundle.Utility.Moment

/-!
# Making files and directories
-/

namespace LangBundle.Utility

open Files (Fault Tree Place)
open Process

/-- The mode that an option asks for; the mask does not touch it.  What is said if it is none. -/
def modeOf (s : Setting) (a : Arguments) (base : Nat) : Except String Nat :=
  match a.value? 'm' with
  | none => .ok (base - (base &&& s.mask))
  | some text => match Files.Mode.changed? s.mask (base = 0o777) base text with
    | some mode => .ok mode
    | none => .error ("invalid mode " ++ quoted text)

/-- The paths of the directories on the way to a path, this included. -/
def pathsTo (path : String) : List String :=
  let names := Text.split '/' path
  let paths := (List.range names.length).map fun i => "/".intercalate (names.take (i + 1))
  (paths.zip names).filterMap fun (path, name) => if name.isEmpty then none else some path

/-- Makes a directory. -/
def mkdir : Program := fun s name args =>
  let choices : List Choice :=
    [⟨'m', "mode", .yes⟩, ⟨'p', "parents", .no⟩, ⟨'v', "verbose", .no⟩, ⟨'Z', "", .no⟩]
  withArguments s name 1 choices args fun a =>
    let p : Printer := { setting := s, name }
    let make (path : String) (mode : Nat) (isLast : Bool) (acc : Account)
        (k : Bool → Account → Behaviour) : Behaviour :=
      let text := Octets.toText path
      attempt (·.makeDirectory s.cwd text mode) fun
        | .ok () => p.tellIf (a.has 'v') (name ++ ": created directory " ++ quoted path ++ "\n") acc
            (k true)
        | .error fault => .look fun w =>
          let fault : Fault := match fault, w.tree.stat s.cwd text with
            | .alreadyExists, .ok n => if !a.has 'p' || isLast then .alreadyExists
                else if n.isDirectory then .permissionDenied
                else .notDirectory
            | fault, _ => fault
          let isThere : Bool := match w.tree.stat s.cwd text with
            | .ok n => n.isDirectory && (isLast || n.allows .execute)
            | .error _ => false
          if a.has 'p' && isThere then k true acc
          else p.fail ("cannot create directory " ++ quoted path ++ ": " ++ fault.description) 1 acc
            (k false)
    if a.operands.isEmpty then missing s name "operand"
    else match modeOf s a 0o777 with
      | .error text => complain s name text (exit 1)
      | .ok mode =>
        let above := (0o777 - (0o777 &&& s.mask)) ||| 0o300
        let one (operand : String) (acc : Account) (k : Account → Behaviour) : Behaviour :=
          let paths := if a.has 'p' && !operand.isEmpty then pathsTo operand else [operand]
          let step (path : String) (state : Bool × Account) (k : Bool × Account → Behaviour) :
              Behaviour :=
            if state.1 then
              make path (if some path = paths.getLast? then mode else above)
                (some path = paths.getLast?) state.2 fun fine acc => k (fine, acc)
            else k state
          forEach step paths (true, acc) fun (_, acc) => k acc
        p.runEach one a.operands

/-- Makes pipes with names. -/
def mkfifo : Program := fun s name args =>
  withArguments s name 1 [⟨'m', "mode", .yes⟩, ⟨'Z', "", .no⟩] args fun a =>
    let p : Printer := { setting := s, name }
    if a.operands.isEmpty then missing s name "operand"
    else match modeOf s a 0o666 with
      | .error text => complain s name text (exit 1)
      | .ok mode => p.runEach (fun operand acc k =>
          attempt (·.makePipe s.cwd (Octets.toText operand) mode) fun
            | .ok () => k acc
            | .error fault =>
              p.fail ("cannot create fifo " ++ quoted operand ++ ": " ++ fault.description) 1 acc k)
          a.operands

/-- The words for the times of a file. -/
def timeWords : List (Wording Char) :=
  [⟨["atime", "access", "use"], 'a'⟩, ⟨["mtime", "modify"], 'm'⟩]

/-- What is wrong with the times that options give, and whether help is offered. -/
def timesFault? (a : Arguments) : Option (String × Bool) :=
  let wrong (letter : Char) (isFine : String → Bool) : Option (String × Bool) :=
    ((a.values letter).find? (!isFine ·)).map fun text =>
      ("invalid date format " ++ quoted text, false)
  let kinds := (a.values '\x00').findSome? fun text =>
    match worded timeWords "--time" text with
    | .ok _ => none
    | .error text => some (text, true)
  let sources : Option (String × Bool) :=
    if a.has 't' && (a.has 'd' || a.has 'r') then
      some ("cannot specify times from more than one source", true)
    else none
  (kinds.or (wrong 't' Moment.isStamp)).or (sources.or (wrong 'd' Moment.isMoment))

/-- Makes files that are missing. -/
def touch : Program := fun s name args =>
  let choices : List Choice :=
    [⟨'a', "", .no⟩, ⟨'c', "no-create", .no⟩, ⟨'d', "date", .yes⟩, ⟨'f', "", .no⟩,
      ⟨'h', "no-dereference", .no⟩, ⟨'m', "", .no⟩, ⟨'r', "reference", .yes⟩, ⟨'t', "", .yes⟩,
      ⟨'\x00', "time", .yes⟩]
  withArguments s name 1 choices args fun a =>
    let p : Printer := { setting := s, name }
    let one (operand : String) (acc : Account) (k : Account → Behaviour) : Behaviour :=
      let path := Octets.toText operand
      let mode := 0o666 - (0o666 &&& s.mask)
      let fail (what : String) (fault : Fault) : Behaviour :=
        p.fail (what ++ " " ++ quoted operand ++ ": " ++ fault.description) 1 acc k
      -- `refusal` says why the file could not be opened.
      let set (refusal : Option Fault) : Behaviour := .look fun w =>
        match if a.has 'h' then w.tree.lstat s.cwd path else w.tree.stat s.cwd path with
        | .ok _ => k acc
        | .error fault => match refusal with
          | some cause =>
            if cause = .isDirectory then fail "setting times of" fault
            else fail "cannot touch" cause
          | none =>
            if a.has 'c' && fault = .notFound then k acc else fail "setting times of" fault
      if operand = "-" then k acc
      else if a.has 'c' || a.has 'h' then set none
      else attempt (fun t => (t.openWrite s.cwd path .append mode).map (·.2)) fun
        | .ok () => set none
        | .error fault => set (some fault)
    let run : Behaviour :=
      if a.operands.isEmpty then missing s name "file operand" else p.runEach one a.operands
    match timesFault? a, a.value? 'r' with
    | some (text, true), _ => misused s name text 1
    | some (text, false), _ => complain s name text (exit 1)
    | none, none => run
    | none, some reference => .look fun w => match w.tree.stat s.cwd (Octets.toText reference) with
      | .ok _ => run
      | .error fault => complain s name
          ("failed to get attributes of " ++ quoted reference ++ ": " ++ fault.description)
          (exit 1)

/-! ## Sizes -/

/-- How a size is changed: the sign in front of the number, and the number. -/
def resized (sign : Option Char) (n old : Nat) : Nat :=
  match sign with
  | some '+' => old + n
  | some '-' => old - n
  | some '<' => min old n
  | some '>' => max old n
  | some '/' => if n = 0 then old else old / n * n
  | some '%' => if n = 0 then old else (old + n - 1) / n * n
  | _ => n

/-- Gives data another length. -/
def withLength (n : Nat) (data : Bytes) : Bytes :=
  data.take n ++ List.replicate (n - data.length) 0

/-- Cuts files off or fills them with zeros. -/
def truncate : Program := fun s name args =>
  let choices : List Choice :=
    [⟨'c', "no-create", .no⟩, ⟨'o', "io-blocks", .no⟩, ⟨'r', "reference", .yes⟩,
      ⟨'s', "size", .yes⟩]
  withArguments s name 1 choices args fun a =>
    let p : Printer := { setting := s, name }
    let one (change : Nat → Nat) (operand : String) (acc : Account) (k : Account → Behaviour) :
        Behaviour :=
      let path := Octets.toText operand
      let mode := 0o666 - (0o666 &&& s.mask)
      .look fun w =>
        if a.has 'c' && !(w.tree.stat s.cwd path).isOk then k acc
        else attempt (fun t => do
            let (sink, t) ← t.openWrite s.cwd path .append mode
            return match sink with
              | .file serial => t.modifyFile serial fun data => withLength (change data.length) data
              | _ => t) fun
          | .ok () => k acc
          | .error fault =>
            p.fail ("cannot open " ++ quoted operand ++ " for writing: " ++ fault.description) 1
              acc k
    let run (change : Nat → Nat) : Behaviour :=
      if a.operands.isEmpty then missing s name "file operand"
      else p.runEach (one change) a.operands
    match a.value? 's', a.value? 'r' with
    | none, none =>
      misused s name "you must specify either '--size' or '--reference'" 1
    | none, some reference => .look fun w =>
      match w.tree.stat s.cwd (Octets.toText reference) with
      | .ok (.file _ _ data) => run fun _ => data.length
      | .ok _ => run fun _ => 0
      | .error fault =>
        complain s name ("cannot stat " ++ quoted reference ++ ": " ++ fault.description) (exit 1)
    | some text, _ =>
      let (sign, digits) := match text.toList.dropWhile Text.isGap with
        | c :: cs => if ['+', '-', '<', '>', '/', '%'].contains c then (some c, cs)
            else (none, c :: cs)
        | [] => (none, [])
      match amount? digits with
      | some n => run (resized sign n)
      | none => complain s name ("Invalid number: " ++ quoted text) (exit 1)

end LangBundle.Utility
