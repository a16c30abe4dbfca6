import LangBundle.Path
import LangBundle.Process.Behaviour
import LangBundle.Text.Octets

/-!
# What a process works with

A process has a working directory, variables, and numbered descriptors.  A descriptor stands for a
captured stream, an open file, an end of a pipe or a device, and everything a process reads or
writes goes through one.
-/

namespace LangBundle.Process

open Files (Place Device Fault)

/-- What a descriptor stands for. -/
inductive Stream where
  | captured (channel : Channel)
  | file (number : Nat)
  | reader (pipe : PipeId)
  | writer (pipe : PipeId)
  /-- Both ends of a pipe that has a name. -/
  | duplex (pipe : PipeId)
  | device (kind : Device)
  | directory
  deriving Repr, DecidableEq

namespace Stream

/-- The ports that somebody who has a stream holds. -/
def ports : Stream → List Port
  | .captured channel => [.captured channel]
  | .reader pipe => [.reader pipe]
  | .writer pipe => [.writer pipe]
  | .duplex pipe => [.reader pipe, .writer pipe]
  | .file _ | .device _ | .directory => []

/-- The pipe that can be read through a stream. -/
def source? : Stream → Option PipeId
  | .reader pipe | .duplex pipe => some pipe
  | _ => none

end Stream

/-- What a process works with. -/
structure Setting where
  /-- The number of the process. -/
  process : Nat
  cwd : Place
  descriptors : List (Nat × Stream)
  /-- Streams that are held beside the descriptors. -/
  kept : List Stream := []
  environment : List (String × String) := []
  /-- The permissions that new files do not get. -/
  mask : Nat := 0o022

/-- Starts the program at a path with arguments, the first of which is its name. -/
abbrev Starter := Setting → (path : String) → List String → Files.Tree → Except Fault Behaviour

/-- How a file is opened. -/
inductive Opening where
  | read
  | write
  | append
  | readWrite
  deriving Repr, DecidableEq

/-- The end of a process by itself. -/
def exit (code : Nat) : Behaviour :=
  .done (.exited code)

namespace Setting

/-- The ports that a process holds. -/
def ports (s : Setting) : List Port :=
  (s.descriptors.map (·.2) ++ s.kept).flatMap Stream.ports

/-- Goes on with the ports that a process has now. -/
def settle (s : Setting) (next : Behaviour) : Behaviour :=
  .hold s.ports next

/-- The stream that a descriptor stands for. -/
def stream? (s : Setting) (descriptor : Nat) : Option Stream :=
  s.descriptors.lookup descriptor

/-- Replaces what a descriptor stands for. -/
def set (s : Setting) (descriptor : Nat) (stream : Option Stream) : Setting :=
  let others := s.descriptors.filter (·.1 != descriptor)
  { s with descriptors := match stream with
      | some stream => (descriptor, stream) :: others
      | none => others }

/-- The value of a variable that the process was started with. -/
def environmentValue (s : Setting) (name : String) : Option String :=
  s.environment.lookup name

end Setting

/-! ## Reading and writing -/

/-- Reads some of the bytes that a stream has, as `choose` cuts them; there are none at the end.
While it waits for a pipe, reading can be interrupted. -/
def readStream (stream : Option Stream) (interrupt : World → Bool) (choose : Bytes → Bytes)
    (k : Except Fault Bytes → Behaviour) : Behaviour :=
  match stream with
  | none | some (.captured _) | some (.writer _) => k (.error .badDescriptor)
  | some .directory => k (.error .isDirectory)
  | some (.device .null) => k (.ok [])
  | some (.device _) => k (.ok (choose (List.replicate World.pipeSize 0)))
  | some (.file number) =>
    let next (w : World) : Bytes := choose (w.restOf number)
    .act (fun w => w.advance number (next w).length) fun w =>
      if ((w.file? number).map (·.readable)).getD false then k (.ok (next w))
      else k (.error .badDescriptor)
  | some (.reader pipe) | some (.duplex pipe) =>
    .await (fun w => !(w.waiting pipe).isEmpty || !w.hasWriter pipe || interrupt w)
      (.act (fun w => w.setWaiting pipe ((w.waiting pipe).drop (choose (w.waiting pipe)).length))
        fun w =>
          if (w.waiting pipe).isEmpty && w.hasWriter pipe then k (.error .interrupted)
          else k (.ok (choose (w.waiting pipe))))

/-- Reads what is left of a stream behind the pieces read so far, the newest of which is first. -/
def readPieces (stream : Option Stream) (k : Except Fault Bytes → Behaviour) :
    (fuel : Nat) → List Bytes → Behaviour
  | 0, pieces => k (.ok pieces.reverse.flatten)
  | fuel + 1, pieces => readStream stream (fun _ => false) (List.take World.pipeSize) fun
    | .ok [] => k (.ok pieces.reverse.flatten)
    | .ok data => readPieces stream k fuel (data :: pieces)
    | .error fault => k (.error fault)

/-- Reads all of a stream up to its end. -/
def readAll (stream : Option Stream) (k : Except Fault Bytes → Behaviour) : Behaviour :=
  readPieces stream k 0x1000000000000 []

namespace Setting

/-- Reads at most `count` bytes; there are none at the end. -/
def read (s : Setting) (descriptor count : Nat) (k : Except Fault Bytes → Behaviour) : Behaviour :=
  readStream (s.stream? descriptor) (fun _ => false) (List.take count) k

/-- Writes to a pipe piece by piece as there is room.  Without a reader the writer gets the signal
for that. -/
def writePipe (s : Setting) (pipe : PipeId) (k : Except Fault Unit → Behaviour) :
    (pieces : Nat) → Bytes → Behaviour
  | 0, _ => k (.ok ())
  | pieces + 1, data =>
    let room (w : World) : Nat := World.pipeSize - (w.waiting pipe).length
    .await (fun w => !w.hasReader pipe || w.hasRoom pipe data.length)
      (.act (fun w =>
          if w.hasReader pipe then w.setWaiting pipe (w.waiting pipe ++ data.take (room w))
          else w.signal s.process 13)
        fun w =>
          if !w.hasReader pipe then k (.error .brokenPipe)
          else if data.length ≤ room w then k (.ok ())
          else s.writePipe pipe k pieces (data.drop (room w)))

/-- Writes all of some data. -/
def write (s : Setting) (descriptor : Nat) (data : Bytes) (k : Except Fault Unit → Behaviour) :
    Behaviour :=
  match s.stream? descriptor with
  | none | some (.reader _) | some .directory => k (.error .badDescriptor)
  | some (.captured channel) => if data.isEmpty then k (.ok ()) else .emit channel data (k (.ok ()))
  | some (.device .full) => if data.isEmpty then k (.ok ()) else k (.error .noSpace)
  | some (.device _) => k (.ok ())
  | some (.file number) =>
    let isWritable (w : World) : Bool := ((w.file? number).map (·.writable)).getD false
    .act (fun w => if isWritable w then w.writeFile number data else w) fun w =>
      if isWritable w then k (.ok ()) else k (.error .badDescriptor)
  | some (.writer pipe) | some (.duplex pipe) =>
    if data.isEmpty then k (.ok ()) else s.writePipe pipe k data.length data

/-- Writes a text of bytes to the standard error stream, whether or not that works. -/
def say (s : Setting) (text : String) (next : Behaviour) : Behaviour :=
  s.write 2 (Octets.toBytes text) fun _ => next

/-! ## Opening files -/

/-- Waits until the other end of a pipe with a name has been opened, the process holding its own
end. -/
def meet (s : Setting) (stream : Stream) (other : Port) (openedBefore : Nat) (next : Behaviour) :
    Behaviour :=
  .hold (stream.ports ++ s.ports)
    (.await (fun w => w.held.contains other || openedBefore < w.openingsOf other) next)

/-- The stream that an open file is reached through; a new file is made with a mode that the mask
reduces. -/
def opened (s : Setting) (opening : Opening) (path : String) (mode : Nat) (w : World) :
    Except Fault Stream × World :=
  let path := Octets.toText path
  let permissions := mode - (mode &&& s.mask)
  let add (file : OpenFile) (w : World) : Except Fault Stream × World :=
    (.ok (.file w.nextNumber), w.addFile file)
  let written (how : Files.WriteMode) (file : Nat → OpenFile) (stream : PipeId → Stream)
      (port : PipeId → Port) : Except Fault Stream × World :=
    match w.tree.openWrite s.cwd path how permissions with
    | .error fault => (.error fault, w)
    | .ok (sink, tree) =>
      let w := { w with tree }
      match sink with
      | .file serial => add (file serial) w
      | .device kind => (.ok (.device kind), w)
      | .pipe serial => (.ok (stream (.named serial)), w.noteOpening (port (.named serial)))
  match opening with
  | .read =>
    match w.tree.openRead s.cwd path with
    | .error fault => (.error fault, w)
    | .ok (.file serial) => add { serial } w
    | .ok .directory => (.ok .directory, w)
    | .ok (.device kind) => (.ok (.device kind), w)
    | .ok (.pipe serial) =>
      (.ok (.reader (.named serial)), w.noteOpening (.reader (.named serial)))
    | .ok .empty => (.ok (.device .null), w)
  | .write => written .truncate (fun serial => { serial, readable := false, writable := true })
      .writer .writer
  | .append => written .append
      (fun serial => { serial, readable := false, writable := true, appends := true })
      .writer .writer
  | .readWrite =>
    match w.tree.stat s.cwd path with
    | .ok n =>
      if n.isDirectory || n.allows .read then
        written .append (fun serial => { serial, writable := true }) .duplex .writer
      else (.error .permissionDenied, w)
    | .error _ => written .append (fun serial => { serial, writable := true }) .duplex .writer

/-- The descriptor of its own that a process means by a path. -/
def ownDescriptor? (s : Setting) (path : String) : Option Nat :=
  let place := if Path.isAbsolute path then Path.names path else s.cwd ++ Path.names path
  match place with
  | ["dev", "stdin"] => some 0
  | ["dev", "stdout"] => some 1
  | ["dev", "stderr"] => some 2
  | ["dev", "fd", n] | ["proc", "self", "fd", n] => Text.decimal? n.toList
  | _ => none

/-- The stream that what a descriptor stands for is reached through when it is opened once more: a
file from its beginning, and either end of a pipe. -/
def reopened (s : Setting) (opening : Opening) (descriptor : Nat) (w : World) :
    Except Fault Stream × World :=
  let pipeEnd (pipe : PipeId) : Stream := match opening with
    | .read => .reader pipe
    | .write | .append => .writer pipe
    | .readWrite => .duplex pipe
  match s.stream? descriptor with
  | none => (.error .notFound, w)
  | some (.reader pipe) | some (.writer pipe) | some (.duplex pipe) => (.ok (pipeEnd pipe), w)
  | some .directory => (if opening = .read then .ok .directory else .error .isDirectory, w)
  | some (.captured channel) => (.ok (.captured channel), w)
  | some (.device kind) => (.ok (.device kind), w)
  | some (.file number) =>
    match w.file? number with
    | none => (.error .notFound, w)
    | some old =>
      let w := if opening = .write then
          { w with tree := w.tree.modifyFile old.serial fun _ => [] }
        else w
      let file : OpenFile :=
        { serial := old.serial
          appends := opening = .append
          readable := opening = .read || opening = .readWrite
          writable := opening != .read }
      (.ok (.file w.nextNumber), w.addFile file)

/-- Opens a file. -/
def openFile (s : Setting) (opening : Opening) (path : String) (mode : Nat)
    (k : Except Fault Stream → Behaviour) : Behaviour :=
  match s.ownDescriptor? path with
  | some descriptor =>
    .act (fun w => (s.reopened opening descriptor w).2) fun w =>
      k (s.reopened opening descriptor w).1
  | none =>
  .act (fun w => (s.opened opening path mode w).2) fun w =>
    match (s.opened opening path mode w).1 with
    | .ok (.reader pipe) =>
      s.meet (.reader pipe) (.writer pipe) (w.openingsOf (.writer pipe)) (k (.ok (.reader pipe)))
    | .ok (.writer pipe) =>
      s.meet (.writer pipe) (.reader pipe) (w.openingsOf (.reader pipe)) (k (.ok (.writer pipe)))
    | result => k result

end Setting

end LangBundle.Process
