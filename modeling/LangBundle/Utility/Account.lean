import LangBundle.Utility.Stream

/-!
# Working through operands

Many programs do the same for each operand, tell what they did, say what went wrong and go on.
-/

namespace LangBundle.Utility

open Files (Fault Tree)
open Process

/-- How a program has done so far: the code it will end with, how much went wrong, and what it has
told. -/
structure Account where
  code : Nat := 0
  faults : Nat := 0
  told : Buffer := {}

namespace Printer

/-- Says what went wrong and goes on. -/
def fail (p : Printer) (text : String) (code : Nat) (a : Account) (k : Account → Behaviour) :
    Behaviour :=
  p.complain a.told text fun told =>
    k { code := max a.code code, faults := a.faults + 1, told }

/-- Tells what was done. -/
def tell (p : Printer) (text : String) (a : Account) (k : Account → Behaviour) : Behaviour :=
  p.print (bytes text) a.told fun told => k { a with told }

/-- Tells what was done, if that is wanted. -/
def tellIf (p : Printer) (wanted : Bool) (text : String) (a : Account) (k : Account → Behaviour) :
    Behaviour :=
  if wanted then p.tell text a k else k a

/-- Does something for each of a row and ends the program. -/
def runEach {α : Type} (p : Printer) (each : α → Account → (Account → Behaviour) → Behaviour)
    (row : List α) : Behaviour :=
  forEach each row {} fun a => p.finish a.told a.code

end Printer

/-- Changes the file tree, if that is possible. -/
def attempt (f : Tree → Except Fault Tree) (k : Except Fault Unit → Behaviour) : Behaviour :=
  .change (fun w => match f w.tree with
    | .ok tree => (.ok (), { w with tree })
    | .error fault => (.error fault, w)) k

/-- The first byte of a line of the standard input, which is read up to its end. -/
def readAnswer (s : Setting) (first : Option UInt8) (k : Option UInt8 → Behaviour) :
    (bytes : Nat) → Behaviour
  | 0 => k first
  | bytes + 1 => s.read 0 1 fun
    | .ok (b :: _) => if b = newline then k first else readAnswer s (first.or (some b)) k bytes
    | _ => k first

/-- Asks a question and goes on with the answer. -/
def Printer.ask (p : Printer) (question : String) (a : Account)
    (k : Bool → Account → Behaviour) : Behaviour :=
  p.flush a.told (p.setting.say (p.name ++ ": " ++ question ++ "? ")
    (readAnswer p.setting none (fun answer =>
      k (answer = some 0x79 || answer = some 0x59) { a with told := {} }) endlessPieces))

/-- How deep directories are followed. -/
def deepest : Nat := 4096

/-- What kind of file a node is. -/
def kindOf : Files.Node → String
  | .directory _ => "directory"
  | .file _ _ data => if data.isEmpty then "regular empty file" else "regular file"
  | .program _ => "regular file"
  | .link _ => "symbolic link"
  | .pipe .. => "fifo"
  | .device _ => "character special file"

/-- A path without the slashes at its end, unless it consists of slashes. -/
def withoutEndSlashes (path : String) : String :=
  match path.toList.reverse.dropWhile (· == '/') with
  | [] => if path.isEmpty then "" else "/"
  | cs => String.ofList cs.reverse

/-- The last name of a path. -/
def lastName (path : String) : String :=
  let path := withoutEndSlashes path
  if path = "/" then path
  else String.ofList (path.toList.reverse.takeWhile (· != '/')).reverse

/-- What stands in front of the last name of a path. -/
def pathAbove (path : String) : String :=
  let name := (withoutEndSlashes path).toList.reverse
  match name.dropWhile (· != '/') with
  | [] => "."
  | above =>
    match above.dropWhile (· == '/') with
    | [] => "/"
    | above => String.ofList above.reverse

/-- The path of a name in a directory. -/
def pathIn (directory name : String) : String :=
  if directory.endsWith "/" then directory ++ name else directory ++ "/" ++ name

end LangBundle.Utility
