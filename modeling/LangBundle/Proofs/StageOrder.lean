import LangBundle.Proofs.SoleTool

/-!
# The order of the stages

Each stage is tried exactly if the one before it did what it has to.

* `Meets`: the tool of a command ends within the limit with status zero, and every output that the
  command declares is then a regular file that is not empty.
* `run_by`, `run_of_calls`: **one stage**: it succeeds exactly if it meets that condition, and its
  error tells of nothing but its own tool's output.
* `runAll_inOrder`: **the three stages**: which are tried, when the build goes on, and the error.
* `runAll_eq_ok`, `runAll_ok`: the files that the stages leave, and when they go through.
-/

namespace LangBundle.Stage

open Files (Tree Place Fault Node)
open Process

/-- A regular file with something in it. -/
def IsFilled : Node → Prop
  | .file _ _ data => data ≠ []
  | .program _ => True
  | _ => False

theorem isPresent_iff (h : Host) (path : String) :
    isPresent h path = true ↔ ∃ n, h.files.stat h.cwd path = .ok n ∧ IsFilled n := by
  unfold isPresent
  rcases h.files.stat h.cwd path with fault | n
  · simp
  · cases n <;> simp [IsFilled]

/-- The tool of a command, called on the files `t`, ends within the limit with status zero, and then
all outputs of the command are regular files that are not empty. -/
def Meets (f : ToolFunction) (cwd : Place) (workdir : String) (limit : Nat) (c : Command)
    (t : Tree) : Prop :=
  ∃ d, f t cwd workdir c.program c.args = .ok d ∧ d.statusWithin limit = some (.exited 0) ∧
    ∀ path ∈ c.outputs, ∃ n, (d.filesAfter limit t).stat cwd path = .ok n ∧ IsFilled n

/-- The files that the tool of a command leaves. -/
def leftBy (f : ToolFunction) (cwd : Place) (workdir : String) (limit : Nat) (c : Command)
    (t : Tree) : Tree :=
  match f t cwd workdir c.program c.args with
  | .ok d => d.filesAfter limit t
  | .error _ => t

/-- The text of what is captured of the output of a command's tool. -/
def saidBy (f : ToolFunction) (cwd : Place) (workdir : String) (limit : Nat) (c : Command)
    (t : Tree) : String :=
  match f t cwd workdir c.program c.args with
  | .ok d => Utf8.decodeLossy (d.heard limit)
  | .error _ => ""

/-- Why a command fails whose tool is called on the files `t`, if it does. -/
def failureBy (f : ToolFunction) (cwd : Place) (workdir : String) (limit : Nat) (c : Command)
    (t : Tree) : Option Failure :=
  match f t cwd workdir c.program c.args with
  | .error fault => some (.launch fault.message)
  | .ok d =>
    match d.statusWithin limit with
    | none => some (.timeout limit)
    | some status => (failureOf? (some status)).or
        ((c.outputs.find? (!isPresent { files := d.filesAfter limit t, cwd } ·)).map .missingOutput)

/-- What the run of a command leaves of a host. -/
structure RanOn (f : ToolFunction) (c : Command) (h h' : Host) (t : Tree) : Prop where
  calls : h'.CallsOnly f
  cwd : h'.cwd = h.cwd
  files : h'.files = t
  journal : h'.journal = h.journal ++ [.called c]

theorem failureOf?_eq_none_iff (status : ExitStatus) :
    failureOf? (some status) = none ↔ status = .exited 0 := by
  rcases status with code | number
  · rcases code with _ | code <;> simp [failureOf?, ExitStatus.isSuccess]
  · simp [failureOf?, ExitStatus.isSuccess]

theorem find?_isPresent_eq_none_iff (h : Host) (c : Command) :
    c.outputs.find? (!isPresent h ·) = none ↔
      ∀ path ∈ c.outputs, ∃ n, h.files.stat h.cwd path = .ok n ∧ IsFilled n := by
  rw [List.find?_eq_none]
  refine forall_congr' fun path => imp_congr_right fun _ => ?_
  rw [← isPresent_iff]
  simp

section
variable {f : ToolFunction} {h : Host} (hh : h.CallsOnly f) (c : Command) (workdir : String)
  (limit : Nat)
include hh

/-- **One stage**: what it leaves of the host, and how it ends. -/
theorem run_by :
    ∃ h', RanOn f c h h' (leftBy f h.cwd workdir limit c h.files) ∧
      match failureBy f h.cwd workdir limit c h.files with
      | none => ∃ o, c.run workdir limit h = .ok o h'
      | some failure =>
        c.run workdir limit h = .error (c.fail failure (saidBy f h.cwd workdir limit c h.files)) h'
      := by
  rcases hf : f h.files h.cwd workdir c.program c.args with fault | d
  · have hlaunch : h.launch h.files h.cwd workdir c.program c.args = .error fault := by
      rw [hh.launch, ToolFunction.launcher, hf]
      rfl
    refine ⟨h.note (.called c), ⟨⟨hh.launch, hh.leftovers, hh.members⟩, rfl, ?_, rfl⟩, ?_⟩
    · simp only [leftBy, hf, Host.note]
    · simp only [failureBy, saidBy, hf, Command.run, Host.note, hlaunch]
  have hlaunch : (h.note (.called c)).launch (h.note (.called c)).files (h.note (.called c)).cwd
      workdir c.program c.args = .ok fun _ => d.behaviour := by
    rw [show (h.note (.called c)).launch = f.launcher from hh.launch, ToolFunction.launcher,
      show f (h.note (.called c)).files (h.note (.called c)).cwd workdir c.program c.args = .ok d
        from hf]
    rfl
  obtain ⟨r, now, hrun, htree, hheard, hthreads, hmembers, hstatus⟩ :=
    runProgram_deed (h.note (.called c)) hh.leftovers hh.members d limit
  let after : Host := { h.note (.called c) with
    files := r.world.tree, system := r.world.system, clock := now, leftovers := r.threads }
  have hfiles : after.files = d.filesAfter limit h.files := htree
  refine ⟨after, ⟨⟨hh.launch, hthreads, hmembers⟩, rfl, ?_, rfl⟩, ?_⟩
  · simp only [leftBy, hf, hfiles]
  have hrun' : c.run workdir limit h =
      (if !(d.statusWithin limit).isSome then
        .error (c.fail (.timeout limit) (Utf8.decodeLossy r.capture.merged)) after
      else c.conclude r.status (Utf8.decodeLossy r.capture.merged) ((now - h.clock) / 1000)
        after) := by
    simp only [Command.run, hlaunch, hrun]
    rfl
  have hsaid : saidBy f h.cwd workdir limit c h.files = Utf8.decodeLossy (d.heard limit) := by
    simp only [saidBy, hf]
  rw [hrun', hheard, hsaid]
  simp only [failureBy, hf]
  rcases hd : d.statusWithin limit with _ | status
  · rfl
  · rw [hstatus status hd]
    simp only [Option.isSome_some, Bool.not_true, Bool.false_eq_true, if_false, Command.conclude]
    rcases failureOf? (some status) with _ | failure
    · have hpresent (path : String) :
          isPresent after path = isPresent { files := d.filesAfter limit h.files, cwd := h.cwd } path :=
        by rw [← hfiles]; rfl
      simp only [Option.none_or, hpresent]
      rcases c.outputs.find? _ with _ | path
      · exact ⟨_, rfl⟩
      · rfl
    · rfl

omit hh in
/-- A command fails for no reason exactly if it meets its condition. -/
theorem failureBy_eq_none_iff (cwd : Place) (t : Tree) :
    failureBy f cwd workdir limit c t = none ↔ Meets f cwd workdir limit c t := by
  unfold failureBy Meets
  rcases f t cwd workdir c.program c.args with fault | d
  · simp
  rcases hd : d.statusWithin limit with _ | status
  · simp [hd]
  · have houtputs :=
      find?_isPresent_eq_none_iff { files := d.filesAfter limit t, cwd } c
    simp only [Except.ok.injEq, exists_eq_left', hd, Option.some.injEq, Option.or_eq_none_iff,
      Option.map_eq_none_iff, failureOf?_eq_none_iff, houtputs]

/-- A stage succeeds exactly if it does what it has to, and its error tells of nothing but its own
tool's output. -/
theorem run_of_calls :
    ∃ h', RanOn f c h h' (leftBy f h.cwd workdir limit c h.files) ∧
      (Meets f h.cwd workdir limit c h.files ∧ (∃ o, c.run workdir limit h = .ok o h') ∨
        ¬ Meets f h.cwd workdir limit c h.files ∧ ∃ failure, c.run workdir limit h =
          .error (c.fail failure (saidBy f h.cwd workdir limit c h.files)) h') := by
  obtain ⟨h', hran, hend⟩ := run_by hh c workdir limit
  refine ⟨h', hran, ?_⟩
  rw [← failureBy_eq_none_iff]
  rcases hfailure : failureBy f h.cwd workdir limit c h.files with _ | failure
  · rw [hfailure] at hend
    exact .inl ⟨rfl, hend⟩
  · rw [hfailure] at hend
    exact .inr ⟨by simp, failure, hend⟩

end

/-! ## The three stages -/

/-- The files that the tool of a stage finds, if the stages before it have left theirs. -/
def foundBy (f : ToolFunction) (cwd : Place) (workdir : String) (limit : Nat)
    (command : Stage → Command) (t : Tree) : Stage → Tree
  | .grammar => t
  | .lexer => leftBy f cwd workdir limit (command .grammar) t
  | .link => leftBy f cwd workdir limit (command .lexer)
      (leftBy f cwd workdir limit (command .grammar) t)

/-- What a run of the stages comes to, if `tried` are the stages that were tried, `met` tells which
stages do what they have to, and `said` what their tools say. -/
structure Ends {α : Type} (met : Stage → Prop) (said : Stage → String) (command : Stage → Command)
    (h : Host) (tried : List Stage) (result : EStateM.Result BuildError Host α) : Prop where
  in_order : tried <+: Stage.all
  once : tried.Nodup
  journal : ∀ h', (∃ a, result = .ok a h') ∨ (∃ e, result = .error e h') →
    h'.journal = h.journal ++ tried.map fun s => .called (command s)
  grammar_tried : .grammar ∈ tried
  lexer_tried : .lexer ∈ tried ↔ .grammar ∈ tried ∧ met .grammar
  link_tried : .link ∈ tried ↔ .lexer ∈ tried ∧ met .lexer
  ok_iff : (∃ a h', result = .ok a h') ↔ ∀ s, met s
  error_of_last : ∀ e h', result = .error e h' →
    ∃ s failure, tried.getLast? = some s ∧ e = .stage s failure (said s)

theorem commandFor_stage (tools : Toolchain) (workspace : String) (inputs : Inputs) (s : Stage) :
    (commandFor tools workspace inputs s).stage = s := by
  cases s <;> rfl

section
variable {α : Type} {met : Stage → Prop} {said : Stage → String} {command : Stage → Command}
  {h h' : Host} {failure : Failure}

theorem Ends.of_grammar (hmet : ¬ met .grammar)
    (hjournal : h'.journal = h.journal ++ [.called (command .grammar)]) :
    Ends (α := α) met said command h [.grammar]
      (.error (.stage .grammar failure (said .grammar)) h') where
  in_order := by decide
  once := by decide
  journal := by simp [hjournal]
  grammar_tried := by decide
  lexer_tried := by simp [hmet]
  link_tried := by simp
  ok_iff := by simpa using ⟨_, hmet⟩
  error_of_last := by simp

theorem Ends.of_lexer (hgrammar : met .grammar) (hmet : ¬ met .lexer)
    (hjournal : h'.journal =
      h.journal ++ [.called (command .grammar), .called (command .lexer)]) :
    Ends (α := α) met said command h [.grammar, .lexer]
      (.error (.stage .lexer failure (said .lexer)) h') where
  in_order := by decide
  once := by decide
  journal := by simp [hjournal]
  grammar_tried := by decide
  lexer_tried := by simp [hgrammar]
  link_tried := by simp [hmet]
  ok_iff := by simpa using ⟨_, hmet⟩
  error_of_last := by simp

theorem Ends.of_link (hgrammar : met .grammar) (hlexer : met .lexer) (hmet : ¬ met .link)
    (hjournal : h'.journal = h.journal ++ Stage.all.map fun s => .called (command s)) :
    Ends (α := α) met said command h Stage.all
      (.error (.stage .link failure (said .link)) h') where
  in_order := by decide
  once := by decide
  journal := by simp [hjournal]
  grammar_tried := by decide
  lexer_tried := by simp [hgrammar, Stage.all]
  link_tried := by simp [hlexer, Stage.all]
  ok_iff := by simpa using ⟨_, hmet⟩
  error_of_last := by simp [Stage.all]

theorem Ends.of_all {a : α} (hmet : ∀ s, met s)
    (hjournal : h'.journal = h.journal ++ Stage.all.map fun s => .called (command s)) :
    Ends met said command h Stage.all (.ok a h') where
  in_order := by decide
  once := by decide
  journal := by simp [hjournal]
  grammar_tried := by decide
  lexer_tried := by simp [hmet, Stage.all]
  link_tried := by simp [hmet, Stage.all]
  ok_iff := by simpa using hmet
  error_of_last := by simp

end

/-- **The three stages**: a stage is tried exactly if the one before it ended in time with status
zero and left its outputs, the build goes on exactly if all three did, and otherwise the error is
that of the stage tried last, with nothing but the output of its tool. -/
theorem runAll_inOrder (tools : Toolchain) (workspace : String) (inputs : Inputs) (f : ToolFunction)
    (h : Host) :
    let command := commandFor tools workspace inputs
    let found := foundBy f h.cwd workspace tools.stageTimeout command h.files
    ∃ tried, Ends (fun s => Meets f h.cwd workspace tools.stageTimeout (command s) (found s))
      (fun s => saidBy f h.cwd workspace tools.stageTimeout (command s) (found s)) command h tried
      (runAll tools workspace inputs (h.withTools f)) := by
  intro command found
  obtain ⟨h₁, hran₁, hgrammar⟩ := run_of_calls (h.callsOnly_withTools f) (command .grammar)
    workspace tools.stageTimeout
  obtain ⟨h₂, hran₂, hlexer⟩ := run_of_calls hran₁.calls (command .lexer) workspace
    tools.stageTimeout
  obtain ⟨h₃, hran₃, hlink⟩ := run_of_calls hran₂.calls (command .link) workspace
    tools.stageTimeout
  have hfiles₁ : h₁.files = found .lexer := hran₁.files
  have hcwd₁ : h₁.cwd = h.cwd := hran₁.cwd
  have hcwd₂ : h₂.cwd = h.cwd := hran₂.cwd.trans hcwd₁
  have hfiles₂ : h₂.files = found .link := by
    rw [hran₂.files, hfiles₁, hcwd₁]
    rfl
  rw [hfiles₁, hcwd₁] at hlexer
  rw [hfiles₂, hcwd₂] at hlink
  have hjournal₁ : h₁.journal = h.journal ++ [.called (command .grammar)] := hran₁.journal
  have hjournal₂ : h₂.journal =
      h.journal ++ [.called (command .grammar), .called (command .lexer)] := by
    rw [hran₂.journal, hjournal₁, List.append_assoc]
    rfl
  have hjournal₃ : h₃.journal = h.journal ++ Stage.all.map fun s => .called (command s) := by
    rw [hran₃.journal, hjournal₂, List.append_assoc]
    rfl
  obtain ⟨hmet₁, o₁, hrun₁⟩ | ⟨hmet₁, failure, hrun₁⟩ := hgrammar
  · obtain ⟨hmet₂, o₂, hrun₂⟩ | ⟨hmet₂, failure, hrun₂⟩ := hlexer
    · obtain ⟨hmet₃, o₃, hrun₃⟩ | ⟨hmet₃, failure, hrun₃⟩ := hlink
      · have hall : runAll tools workspace inputs (h.withTools f) =
            .ok (artifacts workspace inputs) h₃ := by
          rw [runAll, Service.bind_of_ok hrun₁, Service.bind_of_ok hrun₂, Service.bind_of_ok hrun₃]
          rfl
        rw [hall]
        exact ⟨_, .of_all (fun s => by cases s <;> assumption) hjournal₃⟩
      · rw [runAll, Service.bind_of_ok hrun₁, Service.bind_of_ok hrun₂,
          Service.bind_of_error hrun₃]
        exact ⟨_, .of_link hmet₁ hmet₂ hmet₃ hjournal₃⟩
    · rw [runAll, Service.bind_of_ok hrun₁, Service.bind_of_error hrun₂]
      exact ⟨_, .of_lexer hmet₁ hmet₂ hjournal₂⟩
  · rw [runAll, Service.bind_of_error hrun₁]
    exact ⟨_, .of_grammar hmet₁ hjournal₁⟩

/-! ## What the stages leave -/

/-- The files that the three tools leave, one after the other. -/
def leftByAll (f : ToolFunction) (cwd : Place) (workdir : String) (limit : Nat)
    (command : Stage → Command) (t : Tree) : Tree :=
  leftBy f cwd workdir limit (command .link) (foundBy f cwd workdir limit command t .link)

section
variable {f : ToolFunction} {h h' : Host} (hcalls : h.CallsOnly f) {tools : Toolchain}
  {workspace : String} {inputs : Inputs}
include hcalls

theorem run_eq_ok {c : Command} {limit : Nat} {o : Output}
    (hrun : c.run workspace limit h = .ok o h') :
    RanOn f c h h' (leftBy f h.cwd workspace limit c h.files) := by
  obtain ⟨h'', hran, ⟨-, o', hok⟩ | ⟨-, failure, hfail⟩⟩ := run_of_calls hcalls c workspace limit
  · rw [hrun] at hok
    cases hok
    exact hran
  · rw [hrun] at hfail
    cases hfail

theorem run_ok {c : Command} {limit : Nat} (hmeets : Meets f h.cwd workspace limit c h.files) :
    ∃ o h', c.run workspace limit h = .ok o h' := by
  obtain ⟨h', -, ⟨-, o, hok⟩ | ⟨hnot, -⟩⟩ := run_of_calls hcalls c workspace limit
  · exact ⟨o, h', hok⟩
  · exact absurd hmeets hnot

/-- **The stages that have run**, and what they leave. -/
theorem runAll_eq_ok {a : ArtifactSet} (hrun : runAll tools workspace inputs h = .ok a h') :
    a = artifacts workspace inputs ∧ h'.cwd = h.cwd ∧
      h'.files = leftByAll f h.cwd workspace tools.stageTimeout
        (commandFor tools workspace inputs) h.files := by
  obtain ⟨_, h₁, hgrammar, hrest⟩ := Service.bind_eq_ok hrun
  obtain ⟨_, h₂, hlexer, hrest⟩ := Service.bind_eq_ok hrest
  obtain ⟨_, h₃, hlink, hrest⟩ := Service.bind_eq_ok hrest
  cases hrest
  have hran₁ := run_eq_ok hcalls hgrammar
  have hran₂ := run_eq_ok hran₁.calls hlexer
  have hran₃ := run_eq_ok hran₂.calls hlink
  refine ⟨rfl, ?_, ?_⟩
  · rw [hran₃.cwd, hran₂.cwd, hran₁.cwd]
  · rw [hran₃.files, hran₂.cwd, hran₁.cwd, hran₂.files, hran₁.cwd, hran₁.files]
    rfl

/-- **The stages** go through if each tool does what it has to. -/
theorem runAll_ok (hmeets : ∀ s, Meets f h.cwd workspace tools.stageTimeout
      (commandFor tools workspace inputs s)
      (foundBy f h.cwd workspace tools.stageTimeout (commandFor tools workspace inputs) h.files s)) :
    ∃ a h', runAll tools workspace inputs h = .ok a h' := by
  obtain ⟨_, h₁, hgrammar⟩ := run_ok hcalls (hmeets .grammar)
  have hran₁ := run_eq_ok hcalls hgrammar
  have hlexer := hmeets .lexer
  simp only [foundBy] at hlexer
  rw [← hran₁.files, ← hran₁.cwd] at hlexer
  obtain ⟨_, h₂, hlexer⟩ := run_ok hran₁.calls hlexer
  have hran₂ := run_eq_ok hran₁.calls hlexer
  have hlink := hmeets .link
  simp only [foundBy] at hlink
  rw [← hran₁.files, ← hran₁.cwd, ← hran₂.files, ← hran₂.cwd] at hlink
  obtain ⟨_, h₃, hlink⟩ := run_ok hran₂.calls hlink
  exact ⟨_, _, by
    rw [runAll, Service.bind_of_ok hgrammar, Service.bind_of_ok hlexer, Service.bind_of_ok hlink]
    rfl⟩

end

end LangBundle.Stage
