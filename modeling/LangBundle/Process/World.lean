import LangBundle.Files.Access

/-!
# What processes share

Processes meet in a world: the file tree, the pipes between them, the files they have open, and what
they know of each other.  Two processes that have the same open file share its offset.  A pipe is
ready to be read as long as bytes wait in it or somebody holds its writing end, and signals end,
stop or wake processes unless these ignore or catch them.
-/

namespace LangBundle.Process

open Files (Tree Place Fault)

/-- The two output streams of a process that are captured. -/
inductive Channel where
  | out
  | err
  deriving Repr, DecidableEq

/-- How a process ended. -/
inductive ExitStatus where
  | exited (code : Nat)
  | signalled (number : Nat)
  deriving Repr, DecidableEq

namespace ExitStatus

/-- Whether the process ended well: by itself and with code zero. -/
def isSuccess : ExitStatus → Bool
  | .exited 0 => true
  | _ => false

/-- The exit code, if the process ended by itself. -/
def code? : ExitStatus → Option Nat
  | .exited code => some code
  | .signalled _ => none

end ExitStatus

/-- A pipe: one that a process made, or one that has a name in the file tree. -/
inductive PipeId where
  | made (number : Nat)
  | named (serial : Nat)
  deriving Repr, DecidableEq

/-- A way of a process to the outside on whose end others wait. -/
inductive Port where
  | captured (channel : Channel)
  | reader (pipe : PipeId)
  | writer (pipe : PipeId)
  deriving Repr, DecidableEq

/-- A file that is open. -/
structure OpenFile where
  serial : Nat
  offset : Nat := 0
  /-- Whether everything is written at the end. -/
  appends : Bool := false
  readable : Bool := true
  writable : Bool := false
  deriving Repr, DecidableEq

/-- What others see of a process that lives. -/
structure Member where
  parent : Nat := 0
  /-- The signals that do nothing to it. -/
  ignored : List Nat := []
  /-- The signals that it answers itself. -/
  caught : List Nat := []
  /-- Caught signals that it has not answered yet. -/
  pending : List Nat := []
  stopped : Bool := false
  /-- The signal that ends it. -/
  doom : Option Nat := none
  deriving Repr, DecidableEq

/-- What processes share besides files. -/
structure System where
  /-- The bytes that wait in pipes. -/
  pipes : List (PipeId × Bytes) := []
  /-- How often a named pipe was opened for reading and for writing. -/
  openings : List (Port × Nat) := []
  files : List (Nat × OpenFile) := []
  members : List (Nat × Member) := []
  /-- How the processes ended that nobody has waited for. -/
  ended : List (Nat × ExitStatus) := []
  /-- The number of the next open file or pipe. -/
  nextNumber : Nat := 0
  nextProcess : Nat := 2

/-- What processes share. -/
structure World where
  tree : Tree
  system : System := {}
  /-- The ports that processes hold, each as often as it is held. -/
  held : List Port := []
  /-- The time in microseconds. -/
  clock : Nat := 0

/-- Replaces the value of a key. -/
def assign {α β : Type} [BEq α] (key : α) (value : β) (l : List (α × β)) : List (α × β) :=
  (key, value) :: l.filter (·.1 != key)

namespace World

/-- Changes what is shared besides files. -/
def onSystem (w : World) (f : System → System) : World :=
  { w with system := f w.system }

/-! ## Pipes -/

/-- The number that a new pipe or open file gets. -/
def nextNumber (w : World) : Nat :=
  w.system.nextNumber

/-- Makes a pipe with bytes in it, under the next number. -/
def addPipe (w : World) (data : Bytes := []) : World :=
  w.onSystem fun s =>
    { s with
      pipes := (.made s.nextNumber, data) :: s.pipes
      nextNumber := s.nextNumber + 1 }

/-- The bytes that wait in a pipe. -/
def waiting (w : World) (pipe : PipeId) : Bytes :=
  (w.system.pipes.lookup pipe).getD []

/-- Replaces the bytes that wait in a pipe. -/
def setWaiting (w : World) (pipe : PipeId) (data : Bytes) : World :=
  w.onSystem fun s => { s with pipes := assign pipe data s.pipes }

/-- Whether somebody can still read a pipe. -/
def hasReader (w : World) (pipe : PipeId) : Bool :=
  w.held.contains (.reader pipe)

/-- Whether somebody can still write to a pipe. -/
def hasWriter (w : World) (pipe : PipeId) : Bool :=
  w.held.contains (.writer pipe)

/-- How many bytes wait in a pipe at most. -/
def pipeSize : Nat := 65536

/-- A process gives its number of bytes in one piece if they are at most this many. -/
def atomicSize : Nat := 4096

/-- Whether a pipe has room for a piece of data. -/
def hasRoom (w : World) (pipe : PipeId) (length : Nat) : Bool :=
  (w.waiting pipe).length + min length atomicSize ≤ pipeSize

/-- How often a port of a named pipe was opened. -/
def openingsOf (w : World) (port : Port) : Nat :=
  (w.system.openings.lookup port).getD 0

/-- Notes that a port of a named pipe was opened. -/
def noteOpening (w : World) (port : Port) : World :=
  w.onSystem fun s => { s with openings := assign port (w.openingsOf port + 1) s.openings }

/-! ## Open files -/

/-- Opens a file, under the next number. -/
def addFile (w : World) (file : OpenFile) : World :=
  { w with
    tree := w.tree.pin file.serial
    system := { w.system with
      files := (w.system.nextNumber, file) :: w.system.files
      nextNumber := w.system.nextNumber + 1 } }

/-- An open file. -/
def file? (w : World) (number : Nat) : Option OpenFile :=
  w.system.files.lookup number

/-- The data of an open file. -/
def dataOf (w : World) (file : OpenFile) : Bytes :=
  (w.tree.dataOf? file.serial).getD []

/-- Moves the offset of an open file. -/
def seek (w : World) (number offset : Nat) : World :=
  match w.file? number with
  | some file => w.onSystem fun s => { s with files := assign number { file with offset } s.files }
  | none => w

/-- The bytes of an open file behind its offset. -/
def restOf (w : World) (number : Nat) : Bytes :=
  match w.file? number with
  | some file => (w.dataOf file).drop file.offset
  | none => []

/-- Moves the offset of an open file behind some more bytes. -/
def advance (w : World) (number count : Nat) : World :=
  match w.file? number with
  | some file => w.seek number (file.offset + count)
  | none => w

/-- Moves the offset of an open file back. -/
def rewind (w : World) (number count : Nat) : World :=
  match w.file? number with
  | some file => w.seek number (file.offset - count)
  | none => w

/-- Writes to an open file. -/
def writeFile (w : World) (number : Nat) (data : Bytes) : World :=
  match w.file? number with
  | some file =>
    let offset := if file.appends then (w.dataOf file).length else file.offset
    let w := { w with tree := w.tree.modifyFile file.serial (Files.overwrite · offset data) }
    w.seek number (offset + data.length)
  | none => w

/-! ## Processes -/

/-- A process that lives. -/
def member? (w : World) (process : Nat) : Option Member :=
  w.system.members.lookup process

/-- Changes what others see of a process. -/
def onMember (w : World) (process : Nat) (f : Member → Member) : World :=
  w.onSystem fun s =>
    { s with members := s.members.map fun (n, m) => if n = process then (n, f m) else (n, m) }

/-- The caught signals that a process has not answered. -/
def pending (w : World) (process : Nat) : List Nat :=
  ((w.member? process).map (·.pending)).getD []

/-- How a process ended, if it has and nobody has waited for it. -/
def ended? (w : World) (process : Nat) : Option ExitStatus :=
  w.system.ended.lookup process

/-- Forgets how a process ended. -/
def forget (w : World) (process : Nat) : World :=
  w.onSystem fun s => { s with ended := s.ended.filter (·.1 != process) }

/-- The signals that do nothing unless they are caught. -/
def isHarmless (signal : Nat) : Bool :=
  [17, 18, 23, 28].contains signal

/-- The signals that stop a process. -/
def stops (signal : Nat) : Bool :=
  [19, 20, 21, 22].contains signal

/-- What a signal does to a process. -/
def Member.receive (signal : Nat) (m : Member) : Member :=
  let m := if signal = 18 || signal = 9 then { m with stopped := false } else m
  if signal = 9 then { m with doom := some signal }
  else if signal = 19 then { m with stopped := true }
  else if m.ignored.contains signal then m
  else if m.caught.contains signal then
    { m with pending := if m.pending.contains signal then m.pending else m.pending ++ [signal] }
  else if isHarmless signal then m
  else if stops signal then { m with stopped := true }
  else if m.doom.isSome then m
  else { m with doom := some signal }

/-- Sends a signal to a process. -/
def signal (w : World) (process number : Nat) : World :=
  if number = 0 then w else w.onMember process (Member.receive number)

/-- The signal that ends a process. -/
def doomOf? (w : World) (process : Nat) : Option Nat :=
  (w.member? process).bind (·.doom)

/-- Whether a process is stopped. -/
def isStopped (w : World) (process : Nat) : Bool :=
  ((w.member? process).map (·.stopped)).getD false

/-- Adds a process that another one started, under the next number. -/
def addMember (w : World) (parent : Nat) : World :=
  let inherited := (w.member? parent).getD {}
  w.onSystem fun s =>
    { s with
      members := (s.nextProcess, { inherited with parent, pending := [], doom := none }) :: s.members
      nextProcess := s.nextProcess + 1 }

/-- Takes a process away that has ended; the one that started it is told. -/
def removeMember (w : World) (process : Nat) (status : ExitStatus) : World :=
  let parent := ((w.member? process).map (·.parent)).getD 0
  let w := w.onSystem fun s =>
    { s with
      members := s.members.filter (·.1 != process)
      ended := (process, status) :: s.ended }
  w.signal parent 17

end World

end LangBundle.Process
