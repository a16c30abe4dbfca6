import LangBundle.Uuid
import LangBundle.Files.Access
import LangBundle.Process.Schedule
import LangBundle.Stage.Command

/-!
# The host that a build runs on

What a build finds around it: files, a working directory, a way to start programs, a clock,
processes that earlier stages left behind, a supply of identifiers, and a journal of what builds
did.  `Service α` is a computation on a host that may fail with a build error; what it changed
before it failed stays changed.
-/

namespace LangBundle

open Files (Tree Place Fault)
open Process (Behaviour System Thread)

/-- Starts a program: the files, the directory that relative paths are resolved from, the working
directory of the program, its name and its arguments.  The program learns its process number. -/
abbrev Launcher := Tree → Place → (workdir program : String) → List String →
  Except Fault (Nat → Behaviour)

/-- What a journal tells of. -/
inductive Event where
  /-- A workspace was made. -/
  | acquired (path : String)
  /-- An input goes to a file. -/
  | storing (path : String)
  /-- The tool of a stage is called. -/
  | called (command : Stage.Command)
  /-- The directory of a workspace was removed. -/
  | released (path : String)
  deriving Repr, DecidableEq

/-- What a build runs on. -/
structure Host where
  files : Tree := {}
  cwd : Place := []
  searchPath : List String := []
  /-- The directory for temporary files. -/
  temporary : String := "/tmp"
  launch : Launcher := fun _ _ _ _ _ => .error .notFound
  /-- Microseconds since the host began. -/
  clock : Nat := 0
  /-- What processes share besides files. -/
  system : System := {}
  /-- Processes of earlier stages that still run. -/
  leftovers : List Thread := []
  /-- The identifiers that are drawn, one after the other. -/
  ids : Nat → Uuid := Uuid.ofBits
  drawn : Nat := 0
  /-- What builds did, one after the other. -/
  journal : List Event := []

/-- Writes an event into the journal. -/
def Host.note (h : Host) (e : Event) : Host :=
  { h with journal := h.journal ++ [e] }

/-- A computation on a host that may fail. -/
abbrev Service (α : Type) := EStateM BuildError Host α

namespace Service

section
variable {ε σ α β : Type} {x : EStateM ε σ α} {k : α → EStateM ε σ β} {s s' s'' : σ}

theorem bind_of_ok {a : α} (hx : x s = .ok a s') : (x >>= k) s = k a s' := by
  simp only [bind, EStateM.bind, hx]

theorem bind_of_error {e : ε} (hx : x s = .error e s') : (x >>= k) s = .error e s' := by
  simp only [bind, EStateM.bind, hx]

theorem bind_eq_ok {b : β} (h : (x >>= k) s = .ok b s'') :
    ∃ a s', x s = .ok a s' ∧ k a s' = .ok b s'' := by
  rcases hx : x s with ⟨a, s'⟩ | ⟨e, s'⟩
  · rw [bind_of_ok hx] at h
    exact ⟨a, s', rfl, h⟩
  · rw [bind_of_error hx] at h
    cases h

end

variable {α : Type}

/-- An operation on the files; its fault is reported with the path it concerns. -/
def onFiles (path : String) (op : Tree → Place → Except Fault (α × Tree)) : Service α := fun h =>
  match op h.files h.cwd with
  | .ok (a, t) => .ok a { h with files := t }
  | .error fault => .error (.io path fault.message) h

/-- A look at the files; its fault is reported with the path it concerns. -/
def look (path : String) (op : Tree → Place → Except Fault α) : Service α := fun h =>
  match op h.files h.cwd with
  | .ok a => .ok a h
  | .error fault => .error (.io path fault.message) h

/-- Writes an event into the journal. -/
def note (e : Event) : Service Unit := fun h =>
  .ok () (h.note e)

/-- Draws the next identifier. -/
def drawId : Service Uuid := fun h =>
  .ok (h.ids h.drawn) { h with drawn := h.drawn + 1 }

end Service

namespace Host

/-- The path at which a program is found: a path with a slash is taken as it is, a bare name is
looked up in the search path.  Only a regular file that may be executed counts. -/
def which? (h : Host) (program : String) : Option String :=
  let isProgram (path : String) : Bool := match h.files.stat h.cwd path with
    | .ok n => n.isExecutable
    | .error _ => false
  if program.toList.contains '/' then
    if isProgram program then some program else none
  else if program.isEmpty then none
  else (h.searchPath.map (Path.join · program)).find? isProgram

end Host

/-- Whether one tool can be found. -/
structure ToolStatus where
  path : String
  available : Bool
  deriving Repr, DecidableEq

/-- Which of the three tools can be found. -/
structure ToolchainReport where
  bison : ToolStatus
  flex : ToolStatus
  emcc : ToolStatus
  deriving Repr, DecidableEq

/-- Whether all three tools were found. -/
def ToolchainReport.isComplete (r : ToolchainReport) : Bool :=
  r.bison.available && r.flex.available && r.emcc.available

/-- Looks for the three tools. -/
def Toolchain.report (t : Toolchain) (h : Host) : ToolchainReport :=
  let status (program : String) : ToolStatus := ⟨program, (h.which? program).isSome⟩
  ⟨status t.bison, status t.flex, status t.emcc⟩

/-- Where the support library of the scanners may be. -/
def Toolchain.supportCandidates : List String :=
  ["/usr/lib/x86_64-linux-gnu/libfl.a", "/usr/lib/aarch64-linux-gnu/libfl.a", "/usr/lib/libfl.a",
    "/usr/local/lib/libfl.a"]

/-- The tools as they are found in the search path, or their bare names, and the support library if
there is one. -/
def Toolchain.detect (h : Host) : Toolchain :=
  let find (name : String) : String := (h.which? name).getD name
  let isFile (path : String) : Bool := match h.files.stat h.cwd path with
    | .ok n => n.isFile
    | .error _ => false
  { bison := find "bison", flex := find "flex", emcc := find "emcc"
    supportLibs := (supportCandidates.find? isFile).toList }

end LangBundle
