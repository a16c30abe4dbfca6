import LangBundle.Shell.Invocation
import LangBundle.Utility.Supplied

/-!
# Starting programs

A program is named by a path or looked up in the search path.  A file with execute permission whose
first line names an interpreter is given to that interpreter, and the programs of the system are run
as they are.
-/

namespace LangBundle.Shell

open Files (Tree Place Fault Node)
open Process

/-- The path of the program that a name means.  A name with a slash is a path itself; any other is
looked up, and a file there that may not be executed is remembered. -/
def findProgram (t : Tree) (cwd : Place) (searchPath : List String) (name : String) :
    Except Fault String :=
  if name.toList.contains '/' then .ok name
  else if name.isEmpty then .error .notFound
  else if Tree.maxName < name.utf8ByteSize then .error .nameTooLong
  else
    let candidates := searchPath.map (Path.join · name)
    match candidates.find? fun path => match t.stat cwd path with
      | .ok n => n.isExecutable
      | .error _ => false with
    | some path => .ok path
    | none =>
      if candidates.any fun path => (t.stat cwd path).isOk then .error .permissionDenied
      else .error .notFound

/-- The interpreter and its argument that the first line of a file names: two words at most, the
second of which takes in the rest of the line.  Neither goes beyond a zero byte. -/
def interpreter? (data : Bytes) : Option (String × List String) :=
  match data with
  | 0x23 :: 0x21 :: rest =>
    let line := Octets.ofBytes ((rest.take 254).takeWhile (· != newline))
    let cs := (line.toList.dropWhile Reader.isSpace).reverse.dropWhile Reader.isSpace |>.reverse
    let upToZero (cs : List Char) : String := String.ofList (cs.takeWhile (· != '\x00'))
    let argument := (cs.dropWhile (!Reader.isSpace ·)).dropWhile Reader.isSpace
    let first := upToZero (cs.takeWhile (!Reader.isSpace ·))
    if cs.isEmpty then none
    else some (first, if argument.isEmpty then [] else [upToZero argument])
  | _ => none

/-- How long it takes until a program has been loaded, in microseconds. -/
def loadTime : Nat := 600

/-- Starts the file at a path with arguments, the first of which is its name.  `fuel` bounds how
many interpreters and programs start each other. -/
def startFile : (fuel : Nat) → Starter
  | 0, _, _, _, _ => .error .tooManyLinks
  | fuel + 1, setting, path, args, t => do
    let start : Starter := startFile fuel
    let name := args.headD path
    match ← t.stat setting.cwd (Octets.toText path) with
    | .program "sh" => pure (.sleep loadTime (Invocation.program start setting name args.tail))
    | .program program =>
      match Utility.starting? program with
      | some utility => pure (.sleep loadTime (utility start setting name args.tail))
      | none => match Utility.named? program with
        | some utility => pure (.sleep loadTime (utility setting name args.tail))
        | none => throw .notExecutableFormat
    | .file _ mode data =>
      if mode &&& 0o111 = 0 then throw .permissionDenied
      else match interpreter? data with
        | some (interpreter, extra) =>
          startFile fuel setting interpreter (interpreter :: extra ++ path :: args.tail) t
        | none => throw .notExecutableFormat
    | _ => throw .permissionDenied

/-- How many programs start each other at most. -/
def maxStarts : Nat := 64

/-- Starts a program in a working directory, with no input and both output streams captured. -/
def launch (searchPath : List String) (t : Tree) (cwd : Place) (workdir program : String)
    (args : List String) : Except Fault (Nat → Behaviour) := do
  if (program :: workdir :: args).any (·.toList.contains '\x00') then throw .nulInArgument
  let place ← t.directoryAt cwd workdir
  let path ← findProgram t place searchPath program
  let setting (process : Nat) : Setting :=
    { process
      cwd := place
      descriptors := [(0, .device .null), (1, .captured .out), (2, .captured .err)]
      environment := [("PATH", Octets.ofText (":".intercalate searchPath))] }
  let path := Octets.ofText path
  let argv := (program :: args).map Octets.ofText
  let _ ← startFile maxStarts (setting 0) path argv t
  return fun process =>
    match startFile maxStarts (setting process) path argv t with
    | .ok behaviour => behaviour
    | .error _ => exit 127

/-- Adds the programs of the system to a tree, in a directory. -/
def install (directory : Place) (t : Tree) : Tree :=
  Utility.supplied.foldl (fun t name => t.put (directory ++ [name]) (.program name)) t

end LangBundle.Shell
