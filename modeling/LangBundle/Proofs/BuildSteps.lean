import LangBundle.Proofs.FrontEnds

/-!
# A build step by step

A build makes its workspace, stores its inputs piece by piece, runs one tool after the other, writes
both archives, sends the bundle in pieces and removes the workspace.  Between any two of these steps
others may be at work on the same files.

* `Build.Phase`: how far a build has come; `Build.step`: **one step** of a build on a host.
* `Build.rest`: what a build that is left alone comes to; `Build.rest_step`: **each step** keeps it.
* `Build.Halts`: a build that is left alone ends; `Build.halts_waiting`: **every build** does.
* `Build.endsAlone`: **what it comes to** is what a server answers that has nothing else to do.
-/

namespace LangBundle

open Files (Tree Fault Source)
open Http (Field Download)

/-- A build that is asked for: the identifier of its workspace, the fields of the upload, and how much
of the bundle is sent at once. -/
structure Build where
  id : Uuid
  fields : List Field
  pieceSize : Nat
  pieceSize_pos : 0 < pieceSize

namespace Build

/-- What the caller gets: an error, a bundle, or a bundle that cannot be read. -/
inductive Outcome where
  | failed (e : BuildError)
  | delivered (data : Bytes)
  | broken (fault : Fault)

/-- How far a build has come. -/
inductive Phase where
  /-- Its workspace is to be made. -/
  | waiting
  /-- Fields are stored; `current` is the upload that has begun, and what is to come of it. -/
  | storing (w : Workspace) (i : Intake) (current : Option (Upload × List Bytes))
      (fields : List Field)
  /-- Tools are to be run. -/
  | running (w : Workspace) (inputs : Inputs) (stages : List Stage)
  /-- The archive of the sources is to be written. -/
  | packing (w : Workspace) (a : ArtifactSet)
  /-- The bundle is to be written. -/
  | wrapping (w : Workspace) (a : ArtifactSet)
  /-- The bundle is to be opened. -/
  | opening (w : Workspace) (bundle : String)
  /-- The bundle is sent. -/
  | sending (d : Download) (sent : Bytes)
  /-- The workspace is to be removed. -/
  | closing (w : Workspace) (outcome : Outcome)
  | ended (outcome : Outcome)

/-- The phase and the host that a computation comes to. -/
def settle {σ α : Type} (host : σ → Host) (fail : BuildError → Phase) (next : α → σ → Phase) :
    EStateM.Result BuildError σ α → Phase × Host
  | .ok a s => (next a s, host s)
  | .error e s => (fail e, host s)

/-- Ends a build whose workspace is still there with an error. -/
def Phase.giveUp (w : Workspace) (e : BuildError) : Phase :=
  .closing w (.failed e)

/-- What follows when no field is left. -/
def finished (w : Workspace) : Except BuildError Inputs → Phase
  | .ok inputs => .running w inputs Stage.all
  | .error e => .giveUp w e

/-- What follows when the bundle is to be opened. -/
def opened (w : Workspace) (bundle : String) : Except Fault Source → Phase
  | .ok source => .sending { source, workspace := w } []
  | .error fault => .giveUp w (.io bundle fault.message)

/-- What follows when the next piece of the bundle is read. -/
def pieceRead (d : Download) (sent : Bytes) : Except Fault (Option Bytes × Download) → Phase
  | .ok (some piece, d) => .sending d (sent ++ piece)
  | .ok (none, d) => .closing d.workspace (.delivered sent)
  | .error fault => .closing d.workspace (.broken fault)

/-- The next step of an intake: an upload that has begun is gone on with. -/
def stepStoring (w : Workspace) (i : Intake) (h : Host) :
    Option (Upload × List Bytes) → List Field → Phase × Host
  | some (u, []), fields =>
    settle Prod.snd (.giveUp w) (fun _ s => .storing w s.1 none fields) (Intake.commit u (i, h))
  | some (u, piece :: more), fields =>
    settle Prod.snd (.giveUp w) (fun u s => .storing w s.1 (some (u, more)) fields)
      (Intake.write u piece (i, h))
  | none, f :: fields =>
    match f.role? with
    | none => (.storing w i none fields, h)
    | some role =>
      settle Prod.snd (.giveUp w) (fun u s => .storing w s.1 (some (u, f.chunks)) fields)
        (Intake.begin role f.head.fileName (i, h))
  | none, [] => (finished w i.finish, h)

/-- **One step** of a build. -/
def step (p : Pipeline) (b : Build) : Phase → Host → Phase × Host
  | .waiting, h =>
    settle (fun h => h) (.ended <| .failed ·) (fun w _ => .storing w { workspace := w.path } none b.fields)
      (Workspace.acquire p.root b.id h)
  | .storing w i current fields, h => stepStoring w i h current fields
  | .running w inputs [], h => (.packing w (Stage.artifacts w.path inputs), h)
  | .running w inputs (s :: stages), h =>
    settle (fun h => h) (.giveUp w) (fun _ _ => .running w inputs stages)
      ((Stage.commandFor p.tools w.path inputs s).run w.path p.tools.stageTimeout h)
  | .packing w a, h =>
    settle (fun h => h) (.giveUp w) (fun _ _ => .wrapping w a)
      (Bundle.writeArchive (Path.join w.path Bundle.sourcesArchive) a.sources h)
  | .wrapping w a, h =>
    settle (fun h => h) (.giveUp w) (fun _ _ => .opening w (Path.join w.path Bundle.resultArchive))
      (Bundle.writeArchive (Path.join w.path Bundle.resultArchive)
        (Bundle.resultArtifacts a w.path) h)
  | .opening w bundle, h => (opened w bundle (h.files.openRead h.cwd bundle), h)
  | .sending d sent, h => (pieceRead d sent (d.next b.pieceSize h), h)
  | .closing w outcome, h => (.ended outcome, w.drop h)
  | .ended outcome, h => (.ended outcome, h)

/-! ## What is left to do -/

/-- What the caller gets of a bundle of which some has been sent, and the rest is read at once. -/
def readOut (sent : Bytes) : Except Fault Bytes → Outcome
  | .ok data => .delivered (sent ++ data)
  | .error fault => .broken fault

/-- What the caller gets of a bundle that is to be opened. -/
def readOpened (w : Workspace) (bundle : String) (h : Host) : Except Fault Source → Outcome
  | .ok source => readOut [] ((Http.Body.download { source, workspace := w }).readAll h)
  | .error fault => .failed (.io bundle fault.message)

/-- What the caller gets of a bundle. -/
def deliver (w : Workspace) (bundle : String) (h : Host) : Outcome :=
  readOpened w bundle h (h.files.openRead h.cwd bundle)

/-- What the caller gets of a computation: its error, or what follows. -/
def outcome {σ α : Type} (next : α → σ → Outcome) : EStateM.Result BuildError σ α → Outcome
  | .ok a s => next a s
  | .error e _ => .failed e

/-- What the caller gets of what makes a bundle. -/
def outcomeOf (w : Workspace) (make : Service String) (h : Host) : Outcome :=
  outcome (deliver w) (make h)

/-- Runs some stages. -/
def runStages (tools : Toolchain) (workspace : String) (inputs : Inputs) : List Stage → Service Unit
  | [] => pure ()
  | s :: stages => do
    let _ ← (Stage.commandFor tools workspace inputs s).run workspace tools.stageTimeout
    runStages tools workspace inputs stages

/-- Stores the rest of an upload that has begun. -/
def storeCurrent : Option (Upload × List Bytes) → Intake.Step Unit
  | none => pure ()
  | some (u, pieces) => do
    let u ← Intake.writeAll u pieces
    Intake.commit u

/-- What a build comes to whose inputs are being stored. -/
def restOfStoring (p : Pipeline) (w : Workspace) (take : Intake.Step Unit) (s : Intake × Host) :
    Outcome :=
  outcome (fun _ s => match s.1.finish with
    | .ok inputs => outcomeOf w (p.build w.path inputs) s.2
    | .error e => .failed e) (take s)

/-- What a build comes to if nobody else does anything any more. -/
def rest (p : Pipeline) (b : Build) : Phase → Host → Outcome
  | .waiting, h =>
    outcome (fun w => outcomeOf w (p.produce (Http.Upload.storeFields b.fields) w))
      (Workspace.acquire p.root b.id h)
  | .storing w i current fields, h =>
    restOfStoring p w (do storeCurrent current; Http.Upload.storeFields fields) (i, h)
  | .running w inputs stages, h =>
    outcomeOf w (do
      runStages p.tools w.path inputs stages
      Bundle.assemble (Stage.artifacts w.path inputs) w.path) h
  | .packing w a, h => outcomeOf w (Bundle.assemble a w.path) h
  | .wrapping w a, h =>
    outcomeOf w (do
      Bundle.writeArchive (Path.join w.path Bundle.resultArchive) (Bundle.resultArtifacts a w.path)
      return Path.join w.path Bundle.resultArchive) h
  | .opening w bundle, h => deliver w bundle h
  | .sending d sent, h => readOut sent ((Http.Body.download d).readAll h)
  | .closing _ outcome, _ => outcome
  | .ended outcome, _ => outcome

theorem outcomeOf_bind {α : Type} (w : Workspace) (x : Service α) (k : α → Service String)
    (h : Host) :
    outcomeOf w (x >>= k) h = outcome (fun a h => outcomeOf w (k a) h) (x h) := by
  unfold outcomeOf
  rcases hx : x h with ⟨a, h'⟩ | ⟨e, h'⟩
  · rw [Service.bind_of_ok hx, outcome]
  · rw [Service.bind_of_error hx, outcome, outcome]

theorem outcomeOf_build (p : Pipeline) (w : Workspace) (inputs : Inputs) (h : Host) :
    outcomeOf w (p.build w.path inputs) h = outcomeOf w (do
      runStages p.tools w.path inputs Stage.all
      Bundle.assemble (Stage.artifacts w.path inputs) w.path) h := by
  have hrun : Stage.runAll p.tools w.path inputs = do
      runStages p.tools w.path inputs Stage.all
      return Stage.artifacts w.path inputs := by
    simp [Stage.runAll, Stage.all, runStages]
  rw [Pipeline.build, hrun, bind_assoc]
  simp only [pure_bind]

theorem restOfStoring_bind {α : Type} (p : Pipeline) (w : Workspace) (x : Intake.Step α)
    (k : α → Intake.Step Unit) (s : Intake × Host) :
    restOfStoring p w (x >>= k) s = outcome (fun a s => restOfStoring p w (k a) s) (x s) := by
  unfold restOfStoring
  rcases hx : x s with ⟨a, s'⟩ | ⟨e, s'⟩
  · rw [Service.bind_of_ok hx, outcome]
  · rw [Service.bind_of_error hx, outcome, outcome]

theorem outcomeOf_produce (p : Pipeline) (w : Workspace) (take : Intake.Step Unit) (h : Host) :
    outcomeOf w (p.produce take w) h = restOfStoring p w take ({ workspace := w.path }, h) := by
  unfold outcomeOf Pipeline.produce restOfStoring
  rcases take ({ workspace := w.path }, h) with ⟨_, i, h'⟩ | ⟨e, i, h'⟩
  · dsimp only [outcome]
    rcases i.finish with e | inputs <;> rfl
  · rfl

theorem readAll_download {d : Download} {h : Host} {data : Bytes}
    (hread : h.files.readAll d.source = .ok data) :
    (Http.Body.download d).readAll h = .ok (data.drop d.offset) := by
  rw [Http.Body.readAll, hread]
  rfl

/-- Reading a piece of a bundle leaves the rest of it to be read. -/
theorem readOut_next {d : Download} {h : Host} {size : Nat} (hsize : 0 < size) (sent : Bytes) :
    readOut sent ((Http.Body.download d).readAll h) = match d.next size h with
      | .ok (some piece, d') => readOut (sent ++ piece) ((Http.Body.download d').readAll h)
      | .ok (none, _) => .delivered sent
      | .error fault => .broken fault := by
  rcases hread : h.files.readAll d.source with fault | data
  · simp only [Http.Body.readAll, Download.next, hread]
    rfl
  rw [readAll_download hread]
  simp only [Download.next, hread, bind, Except.bind]
  by_cases hempty : ((data.drop d.offset).take size).isEmpty = true
  · have hdrop : data.drop d.offset = [] := by
      rcases List.take_eq_nil_iff.1 (List.isEmpty_iff.1 hempty) with hzero | hnil
      · omega
      · exact hnil
    rw [if_pos hempty, hdrop]
    exact congrArg Outcome.delivered (List.append_nil sent)
  · rw [if_neg hempty]
    dsimp only [pure, Except.pure]
    rw [Http.Body.readAll, hread]
    have hpiece : (data.drop d.offset).take size ++
        data.drop (d.offset + ((data.drop d.offset).take size).length) = data.drop d.offset := by
      rw [← List.drop_drop, List.length_take]
      rcases Nat.le_total size (data.drop d.offset).length with hle | hle
      · rw [Nat.min_eq_left hle, List.take_append_drop]
      · rw [Nat.min_eq_right hle, List.take_of_length_le hle, List.drop_length, List.append_nil]
    exact congrArg Outcome.delivered (by rw [List.append_assoc, hpiece])

/-- What is left to do behind a computation whose error ends the build. -/
theorem rest_settle {σ α : Type} (p : Pipeline) (b : Build) (host : σ → Host)
    {fail : BuildError → Phase} (hfail : ∀ e h, b.rest p (fail e) h = .failed e)
    (next : α → σ → Phase) (r : EStateM.Result BuildError σ α) :
    b.rest p (settle host fail next r).1 (settle host fail next r).2 =
      outcome (fun a s => b.rest p (next a s) (host s)) r := by
  cases r with
  | ok a s => rfl
  | error e s => exact hfail e _

theorem rest_giveUp (p : Pipeline) (b : Build) (w : Workspace) (e : BuildError) (h : Host) :
    b.rest p (.giveUp w e) h = .failed e :=
  rfl

/-- **Each step** of an intake keeps what a build comes to. -/
theorem rest_stepStoring (p : Pipeline) (b : Build) (w : Workspace) (i : Intake) (h : Host)
    (current : Option (Upload × List Bytes)) (fields : List Field) :
    b.rest p (stepStoring w i h current fields).1 (stepStoring w i h current fields).2 =
      b.rest p (.storing w i current fields) h := by
  rcases current with _ | ⟨u, _ | ⟨piece, more⟩⟩
  · rcases fields with _ | ⟨f, fields⟩
    · rw [stepStoring, rest, storeCurrent, pure_bind, Http.Upload.storeFields]
      show _ = match i.finish with
        | .ok inputs => outcomeOf w (p.build w.path inputs) h
        | .error e => .failed e
      rcases i.finish with e | inputs
      · rfl
      · exact (outcomeOf_build p w inputs h).symm
    · rw [stepStoring, rest, storeCurrent, pure_bind, Http.Upload.storeFields,
        Http.Upload.storeField]
      rcases f.role? with _ | role
      · dsimp only
        rw [rest, storeCurrent, pure_bind]
      · dsimp only
        rw [rest_settle p b Prod.snd (rest_giveUp p b w), Intake.take, bind_assoc,
          restOfStoring_bind]
        rfl
  · rw [stepStoring, rest_settle p b Prod.snd (rest_giveUp p b w), rest, storeCurrent,
      Intake.writeAll, pure_bind, restOfStoring_bind]
    rfl
  · rw [stepStoring, rest_settle p b Prod.snd (rest_giveUp p b w), rest, storeCurrent,
      Intake.writeAll, bind_assoc, bind_assoc, restOfStoring_bind]
    refine congrArg (outcome · _) (funext fun u => funext fun s => ?_)
    rw [rest, storeCurrent, bind_assoc]

/-- **Each step** keeps what a build comes to. -/
theorem rest_step (p : Pipeline) (b : Build) (phase : Phase) (h : Host) :
    b.rest p (b.step p phase h).1 (b.step p phase h).2 = b.rest p phase h := by
  cases phase with
  | waiting =>
    rw [step, rest_settle p b _ fun _ _ => rfl, rest]
    rcases Workspace.acquire p.root b.id h with ⟨w, h⟩ | ⟨e, h⟩
    · exact (outcomeOf_produce p w _ h).symm
    · rfl
  | storing w i current fields => exact rest_stepStoring p b w i h current fields
  | running w inputs stages =>
    cases stages with
    | nil => rw [step, rest, rest, runStages, pure_bind]
    | cons s stages =>
      rw [step, rest_settle p b _ (rest_giveUp p b w), rest, runStages, bind_assoc, outcomeOf_bind]
      rfl
  | packing w a =>
    rw [step, rest_settle p b _ (rest_giveUp p b w), rest, Bundle.assemble, outcomeOf_bind]
    rfl
  | wrapping w a =>
    rw [step, rest_settle p b _ (rest_giveUp p b w), rest, outcomeOf_bind]
    rfl
  | opening w bundle =>
    rw [step, rest, deliver]
    rcases h.files.openRead h.cwd bundle with fault | source <;> rfl
  | sending d sent =>
    rw [step, rest, readOut_next b.pieceSize_pos]
    rcases d.next b.pieceSize h with fault | ⟨_ | piece, d'⟩ <;> rfl
  | closing w outcome => rfl
  | ended outcome => rfl

/-! ## A build that is left alone -/

/-- One step of a build on its host. -/
def advance (p : Pipeline) (b : Build) (s : Phase × Host) : Phase × Host :=
  b.step p s.1 s.2

theorem rest_iterate (p : Pipeline) (b : Build) (n : Nat) (s : Phase × Host) :
    b.rest p ((b.advance p)^[n] s).1 ((b.advance p)^[n] s).2 = b.rest p s.1 s.2 := by
  induction n with
  | zero => rfl
  | succ n ih =>
    rw [Function.iterate_succ_apply']
    exact (rest_step p b _ _).trans ih

/-- How many kinds of steps are still to come. -/
def Phase.rank : Phase → Nat
  | .waiting => 8
  | .storing .. => 7
  | .running .. => 6
  | .packing .. => 5
  | .wrapping .. => 4
  | .opening .. => 3
  | .sending .. => 2
  | .closing .. => 1
  | .ended _ => 0

/-- How many pieces of an upload that has begun are to be stored, and its end. -/
def currentSteps : Option (Upload × List Bytes) → Nat
  | none => 0
  | some (_, pieces) => pieces.length + 1

/-- How many steps some fields take. -/
def fieldSteps : List Field → Nat
  | [] => 0
  | f :: fields => f.chunks.length + 2 + fieldSteps fields

/-- How many steps of its kind a phase has left, at most. -/
def Phase.steps (h : Host) : Phase → Nat
  | .storing _ _ current fields => currentSteps current + fieldSteps fields
  | .running _ _ stages => stages.length
  | .sending d _ => ((h.files.readAll d.source).toOption.getD []).length - d.offset
  | _ => 0

/-- One phase on its host is behind another one. -/
def Behind (s s' : Phase × Host) : Prop :=
  Prod.Lex (· < ·) (· < ·) (s.1.rank, s.1.steps s.2) (s'.1.rank, s'.1.steps s'.2)

theorem behind_of_rank {s s' : Phase × Host} (h : s.1.rank < s'.1.rank) : Behind s s' :=
  .left _ _ h

theorem behind_of_steps {s s' : Phase × Host} (hrank : s.1.rank = s'.1.rank)
    (h : s.1.steps s.2 < s'.1.steps s'.2) : Behind s s' := by
  rw [Behind, hrank]
  exact .right _ h

theorem behind_settle {σ α : Type} {host : σ → Host} {fail : BuildError → Phase}
    {next : α → σ → Phase} {s : Phase × Host} (hfail : ∀ e, (fail e).rank < s.1.rank)
    (hnext : ∀ a t, Behind (next a t, host t) s) (r : EStateM.Result BuildError σ α) :
    Behind (settle host fail next r) s := by
  cases r with
  | ok a t => exact hnext a t
  | error e t => exact behind_of_rank (hfail e)

/-- **Each step** of an intake brings it forward. -/
theorem behind_stepStoring (w : Workspace) (i : Intake) (h : Host)
    (current : Option (Upload × List Bytes)) (fields : List Field) :
    Behind (stepStoring w i h current fields) (.storing w i current fields, h) := by
  rcases current with _ | ⟨u, _ | ⟨piece, more⟩⟩
  · rcases fields with _ | ⟨f, fields⟩
    · rw [stepStoring]
      rcases i.finish with e | inputs
      · exact behind_of_rank (by simp [finished, Phase.giveUp, Phase.rank])
      · exact behind_of_rank (by simp [finished, Phase.rank])
    · rw [stepStoring]
      rcases f.role? with _ | role
      · refine behind_of_steps (by rfl) ?_
        simp only [Phase.steps, currentSteps, fieldSteps]
        omega
      · apply behind_settle
        · simp [Phase.giveUp, Phase.rank]
        · intro u s
          refine behind_of_steps (by rfl) ?_
          simp only [Phase.steps, currentSteps, fieldSteps]
          omega
  · rw [stepStoring]
    apply behind_settle
    · simp [Phase.giveUp, Phase.rank]
    · intro _ s
      refine behind_of_steps (by rfl) ?_
      simp only [Phase.steps, currentSteps]
      omega
  · rw [stepStoring]
    apply behind_settle
    · simp [Phase.giveUp, Phase.rank]
    · intro _ s
      refine behind_of_steps (by rfl) ?_
      simp only [Phase.steps, currentSteps, List.length_cons]
      omega

/-- A piece that is read is not empty, and something of the bundle was left. -/
theorem steps_next {d d' : Download} {size : Nat} {h : Host} {piece : Bytes}
    (hnext : d.next size h = .ok (some piece, d')) (sent sent' : Bytes) :
    (Phase.sending d' sent').steps h < (Phase.sending d sent).steps h := by
  rcases hread : h.files.readAll d.source with fault | data
  · simp only [Download.next, hread] at hnext
    cases hnext
  simp only [Download.next, hread, bind, Except.bind] at hnext
  split at hnext
  · cases hnext
  · rename_i hpiece
    obtain ⟨-, rfl⟩ := Prod.mk.inj (Except.ok.inj hnext)
    have hlength : 0 < ((data.drop d.offset).take size).length :=
      List.length_pos_iff.2 fun hnil => hpiece (hnil ▸ rfl)
    simp only [Phase.steps, hread, Except.toOption, Option.getD_some]
    rw [List.length_take, List.length_drop] at hlength ⊢
    omega

/-- **Each step** brings a build forward that has not ended. -/
theorem behind_step (p : Pipeline) (b : Build) {phase : Phase} (h : Host)
    (hgoing : ∀ o, phase ≠ .ended o) : Behind (b.step p phase h) (phase, h) := by
  cases phase with
  | waiting =>
    rw [step]
    apply behind_settle
    · simp [Phase.rank]
    · exact fun _ _ => behind_of_rank (by simp [Phase.rank])
  | storing w i current fields => exact behind_stepStoring w i h current fields
  | running w inputs stages =>
    cases stages with
    | nil => exact behind_of_rank (by simp [step, Phase.rank])
    | cons s stages =>
      rw [step]
      apply behind_settle
      · simp [Phase.giveUp, Phase.rank]
      · exact fun _ _ => behind_of_steps rfl (Nat.lt_succ_self stages.length)
  | packing w a =>
    rw [step]
    apply behind_settle
    · simp [Phase.giveUp, Phase.rank]
    · exact fun _ _ => behind_of_rank (by simp [Phase.rank])
  | wrapping w a =>
    rw [step]
    apply behind_settle
    · simp [Phase.giveUp, Phase.rank]
    · exact fun _ _ => behind_of_rank (by simp [Phase.rank])
  | opening w bundle =>
    rw [step]
    rcases h.files.openRead h.cwd bundle with fault | source
    · exact behind_of_rank (by simp [opened, Phase.giveUp, Phase.rank])
    · exact behind_of_rank (by simp [opened, Phase.rank])
  | sending d sent =>
    rw [step]
    rcases hnext : d.next b.pieceSize h with fault | ⟨_ | piece, d'⟩
    · exact behind_of_rank (by simp [pieceRead, Phase.rank])
    · exact behind_of_rank (by simp [pieceRead, Phase.rank])
    · exact behind_of_steps rfl (steps_next hnext _ _)
  | closing w outcome => exact behind_of_rank (by simp [step, Phase.rank])
  | ended outcome => exact absurd rfl (hgoing outcome)

/-- **A build that is left alone** ends, and comes to what was left to do. -/
theorem exists_iterate_ended (p : Pipeline) (b : Build) (s : Phase × Host) :
    ∃ n h', (b.advance p)^[n] s = (.ended (b.rest p s.1 s.2), h') := by
  have hends (s : Phase × Host) : ∃ n o h', (b.advance p)^[n] s = (.ended o, h') := by
    induction s using (InvImage.wf (fun s : Phase × Host => (s.1.rank, s.1.steps s.2))
      (Prod.lex ⟨_, Nat.lt_wfRel.wf⟩ ⟨_, Nat.lt_wfRel.wf⟩).wf).induction with
    | _ s ih =>
      obtain ⟨phase, h⟩ := s
      by_cases hended : ∃ o, phase = .ended o
      · obtain ⟨o, rfl⟩ := hended
        exact ⟨0, o, h, rfl⟩
      · obtain ⟨n, o, h', hn⟩ := ih (b.step p phase h)
          (behind_step p b h fun o ho => hended ⟨o, ho⟩)
        exact ⟨n + 1, o, h', hn⟩
  obtain ⟨n, o, h', hn⟩ := hends s
  have hrest := rest_iterate p b n s
  rw [hn] at hrest
  exact ⟨n, h', hrest ▸ hn⟩

/-! ## What a server answers -/

/-- The host of a server that has nothing else to do and draws the identifier of a build. -/
def onlyHost (b : Build) (h : Host) : Host :=
  { h with ids := fun _ => b.id }

/-- The host of a server once the identifier has been drawn. -/
def drawnHost (b : Build) (h : Host) : Host :=
  { b.onlyHost h with drawn := h.drawn + 1 }

/-- What a server answers that has nothing else to do: an error, or a response with a body that is
read to its end, or cannot be read. -/
inductive Answers (p : Pipeline) (b : Build) (h : Host) : Outcome → Prop
  | failed {e : BuildError} {h' : Host}
      (answer : Http.Server.compileFields p b.fields (b.onlyHost h) = (.error (.build e), h')) :
      Answers p b h (.failed e)
  | delivered {response : Http.Response} {h' : Host} {data : Bytes}
      (answer : Http.Server.compileFields p b.fields (b.onlyHost h) = (.ok response, h'))
      (status : response.status = 200) (body : response.body.readAll h' = .ok data) :
      Answers p b h (.delivered data)
  | broken {response : Http.Response} {h' : Host} {fault : Fault}
      (answer : Http.Server.compileFields p b.fields (b.onlyHost h) = (.ok response, h'))
      (status : response.status = 200) (body : response.body.readAll h' = .error fault) :
      Answers p b h (.broken fault)

/-- **What a build comes to** that is left alone is what a server answers. -/
theorem answers_rest (p : Pipeline) (b : Build) (h : Host) :
    b.Answers p h (b.rest p .waiting (b.drawnHost h)) := by
  have hacquire : p.acquireWorkspace (b.onlyHost h) =
      Workspace.acquire p.root b.id (b.drawnHost h) := by
    have hdrawn : Service.drawId (b.onlyHost h) = .ok b.id (b.drawnHost h) := rfl
    exact Service.bind_of_ok hdrawn
  rw [rest]
  rcases hmade : Workspace.acquire p.root b.id (b.drawnHost h) with ⟨w, h₁⟩ | ⟨e, h₁⟩
  swap
  · exact .failed (by unfold Http.Server.compileFields; rw [hacquire, hmade])
  rw [outcome, outcomeOf]
  rcases hmake : p.produce (Http.Upload.storeFields b.fields) w h₁ with ⟨bundle, h₂⟩ | ⟨e, h₂⟩
  swap
  · have hgone : Http.Server.compileFields p b.fields (b.onlyHost h) =
        (.error (.build e), w.drop h₂) := by
      unfold Http.Server.compileFields
      simp only [hacquire, hmade, hmake]
    exact .failed hgone
  have hanswer : Http.Server.compileFields p b.fields (b.onlyHost h) =
      Http.Server.deliver bundle w h₂ := by
    unfold Http.Server.compileFields
    simp only [hacquire, hmade, hmake]
  rw [outcome, deliver]
  rcases hopen : h₂.files.openRead h₂.cwd bundle with fault | source
  · have hgone : Http.Server.compileFields p b.fields (b.onlyHost h) =
        (.error (.build (.io bundle fault.message)), w.drop h₂) := by
      rw [hanswer]
      simp only [Http.Server.deliver, hopen]
    exact .failed hgone
  · have hresponse : ∃ response, Http.Server.compileFields p b.fields (b.onlyHost h) =
        (.ok response, h₂) ∧ response.status = 200 ∧
          response.body = .download { source, workspace := w } := by
      rw [hanswer]
      simp only [Http.Server.deliver, hopen]
      exact ⟨_, rfl, rfl, rfl⟩
    obtain ⟨response, heq, hstatus, hbody⟩ := hresponse
    rw [readOpened]
    rcases hread : (Http.Body.download { source, workspace := w }).readAll h₂ with fault | data
    · exact .broken heq hstatus (hbody ▸ hread)
    · exact .delivered heq hstatus (hbody ▸ hread)

end Build

end LangBundle
