import LangBundle.Files.Resolve

/-!
# Operations on the file tree

Each operation takes the working directory and a path, as programs name files, and either gives the
new tree or says why it failed.  A failed operation leaves the tree as it was; only the operations on
many directories, `makeDirectories` and `removeDirectoryTree`, may have done a part of their work
before they fail, so they always give a tree.

Opening a file takes its read or write permission, listing a directory its read permission, and
making or removing a name in a directory its write permission.
-/

namespace LangBundle.Files

/-- A file opened for reading. -/
inductive Source where
  | file (serial : Nat)
  | directory
  | device (kind : Device)
  | pipe (serial : Nat)
  | empty
  deriving Repr, DecidableEq

/-- A file opened for writing. -/
inductive Sink where
  | file (serial : Nat)
  | device (kind : Device)
  | pipe (serial : Nat)
  deriving Repr, DecidableEq

/-- What opening for writing does to a file that is there already. -/
inductive WriteMode where
  | truncate
  | append
  deriving Repr, DecidableEq

/-- `data` with `new` written over it from `offset` on; a gap is filled with zeros. -/
def overwrite (data : Bytes) (offset : Nat) (new : Bytes) : Bytes :=
  data.take offset ++ List.replicate (offset - data.length) 0 ++ new ++
    data.drop (offset + new.length)

/-- A path without the slashes at its end. -/
def withoutSlashes (path : String) : String :=
  match path.toList.reverse.dropWhile (· == '/') with
  | [] => path
  | cs => String.ofList cs.reverse

namespace Tree

/-- Fails without a permission. -/
def require (n : Node) (p : Permission) : Except Fault Unit :=
  if n.allows p then .ok () else .error .permissionDenied

/-- Fails if no name may be made or removed in the directory above a place. -/
def requireAbove (t : Tree) (p : Place) : Except Fault Unit :=
  match t.get? p.dropLast with
  | some n => do
    require n .write
    require n .execute
  | none => .error .notFound

/-- Opens a file for reading.  A directory opens as well; only reading it fails. -/
def openRead (t : Tree) (cwd : Place) (path : String) : Except Fault Source := do
  let n ← t.stat cwd path
  require n .read
  match n with
  | .file serial _ _ => pure (.file serial)
  | .directory _ => pure .directory
  | .device .terminal => throw .noDevice
  | .device kind => pure (.device kind)
  | .pipe serial _ => pure (.pipe serial)
  | _ => pure .empty

/-- Everything that an open file holds; what has no end counts as empty. -/
def readAll (t : Tree) : Source → Except Fault Bytes
  | .file serial => .ok ((t.dataOf? serial).getD [])
  | .directory => .error .isDirectory
  | .device _ | .pipe _ | .empty => .ok []

/-- The data of the file that a path names. -/
def read (t : Tree) (cwd : Place) (path : String) : Except Fault Bytes := do
  t.readAll (← t.openRead cwd path)

/-- Opens a file for writing, making it with a mode if it is not there.  A slash at the end of the
path asks for a directory, which cannot be written. -/
def openWrite (t : Tree) (cwd : Place) (path : String) (mode : WriteMode := .truncate)
    (permissions : Nat := fileMode) : Except Fault (Sink × Tree) := do
  let asksDirectory := path.toList.getLast? = some '/'
  match t.resolve cwd (if asksDirectory then withoutSlashes path else path) (!asksDirectory) with
  | .error fault => throw fault
  | .ok p =>
    if asksDirectory then throw .isDirectory
    match t.get? p with
    | none =>
      t.requireAbove p
      pure (.file t.nextSerial, t.newFile p permissions)
    | some (.directory _) => throw .isDirectory
    | some n =>
      require n .write
      match n with
      | .file serial _ _ =>
        pure (.file serial, match mode with
          | .truncate => t.modifyFile serial fun _ => []
          | .append => t)
      | .pipe serial _ => pure (.pipe serial, t)
      | .device .terminal => throw .noDevice
      | .device kind => pure (.device kind, t)
      | _ => throw .busy

/-- Writes into an open file from an offset on. -/
def writeAt (t : Tree) (sink : Sink) (offset : Nat) (new : Bytes) : Except Fault Tree :=
  match sink with
  | .file serial => .ok (t.modifyFile serial fun data => overwrite data offset new)
  | .device .full => if new.isEmpty then .ok t else .error .noSpace
  | .device _ | .pipe _ => .ok t

/-- Makes the file at a path hold the given bytes. -/
def write (t : Tree) (cwd : Place) (path : String) (data : Bytes) : Except Fault Tree := do
  let (sink, t) ← t.openWrite cwd path
  t.writeAt sink 0 data

/-- Makes one directory; fails if anything is there. -/
def makeDirectory (t : Tree) (cwd : Place) (path : String) (mode : Nat := directoryMode) :
    Except Fault Tree := do
  let p ← t.resolve cwd (withoutSlashes path) false
  match t.get? p with
  | some _ => throw .alreadyExists
  | none =>
    t.requireAbove p
    pure (t.put p (.directory mode))

/-- Whether a path names a directory. -/
def isDirectory (t : Tree) (cwd : Place) (path : String) : Bool :=
  match t.stat cwd path with
  | .ok n => n.isDirectory
  | .error _ => false

/-- Makes a directory at `path`, for which `above` makes the directories over it if they are
missing. A directory that is there already is fine. -/
def makeDirectoryOver (t : Tree) (cwd : Place) (path : String)
    (above : Unit → Except Fault Unit × Tree) : Except Fault Unit × Tree :=
  match t.makeDirectory cwd path with
  | .ok t => (.ok (), t)
  | .error .notFound =>
    match above () with
    | (.error fault, t) => (.error fault, t)
    | (.ok (), t) =>
      match t.makeDirectory cwd path with
      | .ok t => (.ok (), t)
      | .error fault => (if t.isDirectory cwd path then .ok () else .error fault, t)
  | .error fault => (if t.isDirectory cwd path then .ok () else .error fault, t)

/-- Makes the directory with the names `namesUp`, listed from the last one up, and those over it. -/
def makeDirectoriesUp (t : Tree) (cwd : Place) (absolute : Bool) :
    (namesUp : List String) → Except Fault Unit × Tree
  | [] => (.ok (), t)
  | name :: above =>
    let path := (if absolute then "/" else "") ++ String.intercalate "/" (name :: above).reverse
    t.makeDirectoryOver cwd path fun _ => t.makeDirectoriesUp cwd absolute above

/-- Makes a directory and all directories over it that are missing. -/
def makeDirectories (t : Tree) (cwd : Place) (path : String) : Except Fault Unit × Tree :=
  if path.toList.contains '\x00' then (.error .nulInPath, t)
  else t.makeDirectoriesUp cwd (Path.isAbsolute path) (Path.names path).reverse

/-- Whether some directory at or below a place cannot be emptied. -/
def isGuarded (t : Tree) (p : Place) : Bool :=
  t.entries.any fun (q, n) => p.isPrefixOf q && n.isDirectory &&
    !(n.allows .read && (n.allows .write && n.allows .execute || (t.children q).isEmpty))

/-- Removes a directory with everything below it; a symbolic link is removed itself.  Nothing is
removed if some directory below cannot be emptied, and the directory stays empty if its own name
cannot be removed. -/
def removeDirectoryTree (t : Tree) (cwd : Place) (path : String) : Except Fault Unit × Tree :=
  match t.resolve cwd path false with
  | .error fault => (.error fault, t)
  | .ok p =>
    match t.get? p with
    | none => (.error .notFound, t)
    | some (.link _) =>
      match t.requireAbove p with
      | .ok () => (.ok (), t.erase p)
      | .error fault => (.error fault, t)
    | some (.directory mode) =>
      if t.isGuarded p then (.error .permissionDenied, t)
      else match t.requireAbove p with
        | .ok () => (.ok (), t.erase p)
        | .error fault => (.error fault, (t.erase p).put p (.directory mode))
    | some _ => (.error .notDirectory, t)

/-- Removes anything but a directory. -/
def removeFile (t : Tree) (cwd : Place) (path : String) : Except Fault Tree := do
  let p ← t.resolve cwd path false
  match t.get? p with
  | none => throw .notFound
  | some (.directory _) => throw .isDirectory
  | some _ =>
    t.requireAbove p
    pure (t.erase p)

/-- Removes an empty directory. -/
def removeDirectory (t : Tree) (cwd : Place) (path : String) : Except Fault Tree := do
  let p ← t.resolve cwd path false
  match t.get? p with
  | none => throw .notFound
  | some (.directory _) =>
    t.requireAbove p
    if (t.children p).isEmpty then pure (t.erase p) else throw .notEmpty
  | some _ => throw .notDirectory

/-- The place of a directory whose names may be read. -/
def readableAt (t : Tree) (cwd : Place) (path : String) : Except Fault Place := do
  let p ← t.directoryAt cwd path
  match t.get? p with
  | some n => require n .read
  | none => throw .notFound
  pure p

/-- The names in a directory, sorted. -/
def list (t : Tree) (cwd : Place) (path : String) : Except Fault (List String) :=
  (t.readableAt cwd path).map t.children

/-- The names in a directory, those of older nodes first. -/
def listByAge (t : Tree) (cwd : Place) (path : String) : Except Fault (List String) :=
  (t.readableAt cwd path).map t.childrenByAge

/-- Puts a new node at a path where nothing is. -/
def makeNode (t : Tree) (cwd : Place) (path : String) (n : Node) : Except Fault Tree := do
  let p ← t.resolve cwd path false
  match t.get? p with
  | some _ => throw .alreadyExists
  | none =>
    t.requireAbove p
    pure (t.put p n)

/-- Makes a pipe at a path where nothing is. -/
def makePipe (t : Tree) (cwd : Place) (path : String) (mode : Nat) : Except Fault Tree := do
  let t ← t.makeNode cwd path (.pipe t.nextSerial mode)
  pure { t with nextSerial := t.nextSerial + 1 }

/-- Moves what is below a place to another place. -/
def relocate (t : Tree) (source target : Place) : Tree :=
  { t with entries := t.entries.map fun (q, n) =>
      (if source.isPrefixOf q then target ++ q.drop source.length else q, n) }

/-- Gives a node another path.  What is at the new path is replaced if it is of the same kind, a
directory only if it is empty. -/
def rename (t : Tree) (cwd : Place) (source target : String) : Except Fault Tree := do
  let p ← t.resolve cwd (withoutSlashes source) false
  let q ← t.resolve cwd (withoutSlashes target) false
  match t.get? p with
  | none => throw .notFound
  | some n =>
    let wantsDirectory := withoutSlashes source != source || withoutSlashes target != target
    if wantsDirectory && !n.isDirectory then throw .notDirectory
    t.requireAbove p
    t.requireAbove q
    if p = q then pure t
    else if p.isPrefixOf q then throw .invalidArgument
    else if n.isDirectory && p.dropLast != q.dropLast && !n.allows .write then
      throw .permissionDenied
    else match t.get? q with
      | none => pure (t.relocate p q)
      | some m =>
        if n.serial?.isSome && n.serial? = m.serial? then pure t
        else if n.isDirectory then
          if !m.isDirectory then throw .notDirectory
          else if (t.children q).isEmpty then pure ((t.erase q).relocate p q)
          else throw .notEmpty
        else if m.isDirectory then throw .isDirectory
        else pure ((t.erase q).relocate p q)

end Tree

end LangBundle.Files
