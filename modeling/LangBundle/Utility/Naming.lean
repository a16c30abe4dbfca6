import LangBundle.Utility.Account

/-!
# Names of files

The parts of paths, and where paths lead.
-/

namespace LangBundle.Utility

open Files (Fault Tree)
open Process

/-- Prints texts, each with a line end or a zero byte behind it. -/
def printNames (s : Setting) (name : String) (zero : Bool) (texts : List String) : Behaviour :=
  finishText s name (String.join (texts.map (· ++ if zero then "\x00" else "\n"))) 0

/-- A name without an ending that is not all of it. -/
def withoutEnding (ending name : String) : String :=
  if ending != name && !ending.isEmpty && name.endsWith ending && name != "/" then
    String.ofList (name.toList.take (name.length - ending.length))
  else name

/-- Prints the last names of paths. -/
def basename : Program := fun s name args =>
  let choices : List Choice :=
    [⟨'a', "multiple", .no⟩, ⟨'s', "suffix", .yes⟩, ⟨'z', "zero", .no⟩]
  withArguments s name 1 choices args (fun a =>
    let print (ending : String) (paths : List String) : Behaviour :=
      printNames s name (a.has 'z') (paths.map fun path => withoutEnding ending (lastName path))
    let ending := (a.value? 's').getD ""
    if a.operands.isEmpty then missing s name "operand"
    else if a.has 'a' || a.has 's' then print ending a.operands
    else match a.operands with
      | [path, ending] => print ending [path]
      | _ :: _ :: extra :: _ => misused s name ("extra operand " ++ quoted extra) 1
      | paths => print "" paths) isOperand

/-- Prints what stands in front of the last names of paths. -/
def dirname : Program := fun s name args =>
  withArguments s name 1 [⟨'z', "zero", .no⟩] args fun a =>
    if a.operands.isEmpty then missing s name "operand"
    else printNames s name (a.has 'z') (a.operands.map pathAbove)

/-- The text of a place. -/
def textOfPlace (p : Files.Place) : String :=
  Octets.ofText ("/" ++ "/".intercalate p)

/-- The place that a path leads to if all its names are taken as they are. -/
def plainPlace (cwd : Files.Place) (path : String) : Files.Place :=
  (Text.split '/' path).foldl (fun p name =>
    if name.isEmpty || name = "." then p
    else if name = ".." then p.dropLast
    else p ++ [name]) (if Path.isAbsolute path then [] else cwd)

/-- The place that a path leads to in the end: everything has to be there, or everything but the
last name, or nothing. -/
def finalPlace (t : Tree) (cwd : Files.Place) (mode : Char) (path : String) :
    Except Fault Files.Place :=
  let path := Octets.toText path
  match mode with
  | 'e' => do
    let _ ← t.stat cwd path
    t.resolve cwd path
  | 'm' => if path.isEmpty then throw .notFound else
    match t.resolve cwd path with
    | .ok p => .ok p
    | .error _ => .ok (plainPlace cwd path)
  | _ => do
    let place ← t.resolve cwd (if path = "/" then path else Files.withoutSlashes path)
    if path.endsWith "/" && (t.get? place).any (!·.isDirectory) then throw .notDirectory
    return place

/-- Prints where symbolic links lead. -/
def readlink : Program := fun s name args =>
  let choices : List Choice :=
    [⟨'f', "canonicalize", .no⟩, ⟨'e', "canonicalize-existing", .no⟩,
      ⟨'m', "canonicalize-missing", .no⟩, ⟨'n', "no-newline", .no⟩, ⟨'q', "quiet", .no⟩,
      ⟨'s', "silent", .no⟩, ⟨'v', "verbose", .no⟩, ⟨'z', "zero", .no⟩]
  withArguments s name 1 choices args fun a =>
    let p : Printer := { setting := s, name }
    let several := 1 < a.operands.length
    let ending := if a.has 'n' && !several then "" else if a.has 'z' then "\x00" else "\n"
    let speaks := a.last? ['q', 's', 'v'] = some 'v'
    let one (operand : String) (acc : Account) (k : Account → Behaviour) : Behaviour :=
      .look fun w =>
        let found : Except Fault String := match a.last? ['f', 'e', 'm'] with
          | some mode => (finalPlace w.tree s.cwd mode operand).map textOfPlace
          | none => do
            match ← w.tree.lstat s.cwd (Octets.toText operand) with
            | .link target => return Octets.ofText target
            | _ => throw .invalidArgument
        match found with
        | .ok text => p.tell (text ++ ending) acc k
        | .error fault =>
          if speaks then p.fail (shown operand ++ ": " ++ fault.description) 1 acc k
          else k { acc with code := 1 }
    if a.operands.isEmpty then missing s name "operand"
    else if several && a.has 'n' then
      complain s name "ignoring --no-newline with multiple arguments" (p.runEach one a.operands)
    else p.runEach one a.operands

/-- The path from one place to another. -/
def pathBetween (start target : Files.Place) : String :=
  let shared := (start.zip target).takeWhile fun (a, b) => a = b
  let names := (start.drop shared.length).map (fun _ => "..") ++ target.drop shared.length
  if names.isEmpty then "." else Octets.ofText ("/".intercalate names)

/-- How places are shown as paths: from where, and below which place only. -/
structure Relation where
  start : Option Files.Place := none
  base : Option Files.Place := none

/-- The path that shows a place. -/
def Relation.text (r : Relation) (p : Files.Place) : String :=
  let isBelow := (r.base.getD []).isPrefixOf p
  match r.start.or r.base with
  | some start => if isBelow then pathBetween start p else textOfPlace p
  | none => textOfPlace p

/-- Prints where paths lead. -/
def realpath : Program := fun s name args =>
  let choices : List Choice :=
    [⟨'e', "canonicalize-existing", .no⟩, ⟨'m', "canonicalize-missing", .no⟩,
      ⟨'\x00', "relative-to", .yes⟩, ⟨'\x01', "relative-base", .yes⟩,
      ⟨'q', "quiet", .no⟩, ⟨'s', "strip", .no⟩, ⟨'s', "no-symlinks", .no⟩, ⟨'z', "zero", .no⟩,
      ⟨'L', "logical", .no⟩, ⟨'P', "physical", .no⟩]
  withArguments s name 1 choices args fun a =>
    let p : Printer := { setting := s, name }
    let mode := (a.last? ['e', 'm']).getD 'f'
    let placeOf (t : Tree) (path : String) : Except Fault Files.Place := do
      if a.last? ['s', 'P', 'L'] = some 's' then
        -- Links are names like all others, and only their being there matters.
        if mode != 'm' then
          let _ ← finalPlace t s.cwd mode path
        return plainPlace s.cwd (Octets.toText path)
      else finalPlace t s.cwd mode path
    let one (relation : Relation) (operand : String) (acc : Account) (k : Account → Behaviour) :
        Behaviour :=
      .look fun w =>
        match placeOf w.tree operand with
        | .ok place => p.tell (relation.text place ++ if a.has 'z' then "\x00" else "\n") acc k
        | .error fault =>
          if a.has 'q' then k { acc with code := 1 }
          else p.fail (shown operand ++ ": " ++ fault.description) 1 acc k
    if a.operands.isEmpty then missing s name "operand"
    else .look fun w =>
      let place (letter : Char) : Except (String × Fault) (Option Files.Place) :=
        match a.value? letter with
        | none => .ok none
        | some path => match placeOf w.tree path with
          | .ok place => .ok (some place)
          | .error fault => .error (path, fault)
      match place '\x00', place '\x01' with
      | .ok start, .ok base => p.runEach (one { start, base }) a.operands
      | .error (path, fault), _ | _, .error (path, fault) =>
        complain s name (shown path ++ ": " ++ fault.description) (exit 1)

/-- Prints the working directory. -/
def pwd : Program := fun s name args =>
  withArguments s name 1 [⟨'L', "logical", .no⟩, ⟨'P', "physical", .no⟩] args fun a =>
    let print : Behaviour := finishText s name (textOfPlace s.cwd ++ "\n") 0
    if a.operands.isEmpty then print
    else complain s name "ignoring non-option arguments" print

end LangBundle.Utility
