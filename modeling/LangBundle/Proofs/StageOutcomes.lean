import LangBundle.Proofs.StageHistories
import LangBundle.Proofs.StageOrder

/-!
# How a stage ends

A stage has five ways to end.  Its tool cannot be started; it has not ended by the limit; it has ended
badly; an output is left out; or all is well.  Which of them it is, is decided in this order by what
the tool does.

* `Ended`: what a command gives that has failed, or has not.
* `failureAfter`, `conclude_ended`: the failure of a tool that has ended.
* `run_ended`: **what a command gives** that has seen some part of the history.
* `Accounted`: **when** a stage ends in which way.
* `run_accounted`: a stage does, if no captured stream is held any more when the launched process
  ends.
-/

namespace LangBundle.Stage

open Files (Fault Node)
open Process

/-! ## Failures -/

/-- A command gives a failure of its own stage, or else its outputs, and a text. -/
def Ended (c : Command) (failure : Option Failure) (text : String) (h' : Host)
    (result : EStateM.Result BuildError Host Output) : Prop :=
  match failure with
  | some failure => result = .error (.stage c.stage failure text) h'
  | none => ∃ elapsed, result = .ok ⟨c.stage, c.outputs, text, elapsed⟩ h'

/-- Why a command fails whose launched process has ended. -/
def failureAfter (c : Command) (status : ExitStatus) (h : Host) : Option Failure :=
  (failureOf? (some status)).or ((c.outputs.find? (!isPresent h ·)).map .missingOutput)

theorem conclude_ended (c : Command) (status : ExitStatus) (text : String) (elapsed : Nat)
    (h : Host) :
    Ended c (failureAfter c status h) text h (c.conclude (some status) text elapsed h) := by
  unfold failureAfter Command.conclude
  rcases failureOf? (some status) with _ | failure
  · rcases c.outputs.find? (!isPresent h ·) with _ | path
    · exact ⟨elapsed, rfl⟩
    · rfl
  · rfl

theorem failureOf?_of_ne {status : ExitStatus} (hne : status ≠ .exited 0) :
    failureOf? (some status) = some (.exitStatus (status.code?.map Int.ofNat)) := by
  rcases status with code | number
  · rcases code with _ | code
    · exact absurd rfl hne
    · rfl
  · rfl

section
variable {c : Command} {status : ExitStatus} {h : Host}

theorem failureAfter_of_ne (hne : status ≠ .exited 0) :
    failureAfter c status h = some (.exitStatus (status.code?.map Int.ofNat)) := by
  rw [failureAfter, failureOf?_of_ne hne]
  rfl

theorem failureAfter_zero :
    failureAfter c (.exited 0) h = (c.outputs.find? (!isPresent h ·)).map .missingOutput :=
  rfl

variable (c status h) in
/-- A tool that has ended has not run too long. -/
theorem failureAfter_ne_timeout (milliseconds : Nat) :
    failureAfter c status h ≠ some (.timeout milliseconds) := by
  by_cases hzero : status = .exited 0
  · subst hzero
    rw [failureAfter_zero]
    simp
  · rw [failureAfter_of_ne hzero]
    simp

end

/-! ## The five ways -/

/-- At a moment, a path names a regular file with something in it. -/
def FilledAt (h : Host) (s : Moment) (path : String) : Prop :=
  ∃ n, s.2.world.tree.stat h.cwd path = .ok n ∧ IsFilled n

/-- The tool of a command is refused or started. -/
def launched (h : Host) (c : Command) (workdir : String) : Except Fault (Nat → Behaviour) :=
  h.launch h.files h.cwd workdir c.program c.args

/-- The tool of a command is started, and the launched process ends within the limit. -/
def EndsWithin (h : Host) (c : Command) (workdir : String) (limit : Nat) (s : Moment)
    (status : ExitStatus) : Prop :=
  ∃ program, launched h c workdir = .ok program ∧ EndsAt (h.begun program) s status ∧
    s.1 < h.deadline limit

/-- **When** a command fails, and why. -/
structure Accounted (h : Host) (c : Command) (workdir : String) (limit : Nat)
    (failure : Option Failure) : Prop where
  launch : ∀ detail, failure = some (.launch detail) ↔
    ∃ fault, launched h c workdir = .error fault ∧ detail = fault.message
  timeout : ∀ milliseconds, failure = some (.timeout milliseconds) ↔
    milliseconds = limit ∧ (∃ program, launched h c workdir = .ok program) ∧
      ∀ s status, ¬ EndsWithin h c workdir limit s status
  exitStatus : ∀ code, failure = some (.exitStatus code) ↔
    ∃ s status, EndsWithin h c workdir limit s status ∧ status ≠ .exited 0 ∧
      code = status.code?.map Int.ofNat
  missingOutput : ∀ path, failure = some (.missingOutput path) ↔
    ∃ s, EndsWithin h c workdir limit s (.exited 0) ∧ ∃ before behind,
      c.outputs = before ++ path :: behind ∧ (∀ p ∈ before, FilledAt h s p) ∧ ¬ FilledAt h s path
  success : failure = none ↔
    ∃ s, EndsWithin h c workdir limit s (.exited 0) ∧ ∀ path ∈ c.outputs, FilledAt h s path

section
variable {h h' : Host} {c : Command} {workdir : String} {limit : Nat} {s : Moment}
  {status : ExitStatus}

theorem EndsWithin.unique {s' : Moment} {status' : ExitStatus}
    (hends : EndsWithin h c workdir limit s status)
    (hends' : EndsWithin h c workdir limit s' status') : s' = s ∧ status' = status := by
  obtain ⟨program, hlaunch, hat, -⟩ := hends
  obtain ⟨program', hlaunch', hat', -⟩ := hends'
  obtain rfl := Except.ok.inj (hlaunch.symm.trans hlaunch')
  exact hat'.unique hat

/-- A tool that is refused. -/
theorem Accounted.of_refused {fault : Fault} (hlaunch : launched h c workdir = .error fault) :
    Accounted h c workdir limit (some (.launch fault.message)) := by
  have hnever (s : Moment) (status : ExitStatus) : ¬ EndsWithin h c workdir limit s status :=
    fun ⟨program, hprogram, _⟩ => by simp [hlaunch] at hprogram
  constructor <;> simp [hlaunch, hnever, eq_comm]

/-- A tool that does not end in time. -/
theorem Accounted.of_never {program : Nat → Behaviour} (hlaunch : launched h c workdir = .ok program)
    (hnever : ∀ s status, ¬ EndsWithin h c workdir limit s status) :
    Accounted h c workdir limit (some (.timeout limit)) := by
  constructor <;> simp [hlaunch, hnever, eq_comm]

theorem isPresent_iff_filledAt (hfiles : h'.files = s.2.world.tree) (hcwd : h'.cwd = h.cwd)
    (path : String) : isPresent h' path = true ↔ FilledAt h s path := by
  rw [isPresent_iff, hfiles, hcwd, FilledAt]

/-- The first output that is left out. -/
theorem find?_isPresent_eq_some_iff (hfiles : h'.files = s.2.world.tree) (hcwd : h'.cwd = h.cwd)
    (path : String) :
    c.outputs.find? (!isPresent h' ·) = some path ↔ ∃ before behind,
      c.outputs = before ++ path :: behind ∧ (∀ p ∈ before, FilledAt h s p) ∧
        ¬ FilledAt h s path := by
  have hpresent := isPresent_iff_filledAt hfiles hcwd
  rw [List.find?_eq_some_iff_append]
  simp only [Bool.not_eq_true', Bool.not_not, hpresent, ← Bool.not_eq_true]
  constructor
  · rintro ⟨hnot, before, behind, heq, hall⟩
    exact ⟨before, behind, heq, hall, hnot⟩
  · rintro ⟨before, behind, heq, hall, hnot⟩
    exact ⟨hnot, before, behind, heq, hall⟩

/-- A tool that ends in time. -/
theorem Accounted.of_ends (hends : EndsWithin h c workdir limit s status)
    (hfiles : h'.files = s.2.world.tree) (hcwd : h'.cwd = h.cwd) :
    Accounted h c workdir limit (failureAfter c status h') := by
  have hwithin (s' : Moment) (status' : ExitStatus) :
      EndsWithin h c workdir limit s' status' ↔ s' = s ∧ status' = status :=
    ⟨fun hends' => hends.unique hends', fun ⟨hs, hstatus⟩ => hs ▸ hstatus ▸ hends⟩
  obtain ⟨program, hlaunch, -⟩ := id hends
  by_cases hzero : status = .exited 0
  · subst hzero
    have hmissing := find?_isPresent_eq_some_iff (c := c) hfiles hcwd
    have hpresent := isPresent_iff_filledAt hfiles hcwd
    rw [failureAfter_zero]
    refine ⟨?_, ?_, ?_, fun path => ?_, ?_⟩
    · simp [hlaunch]
    · simp [hwithin]
    · simp [hwithin]
    · simp [hwithin, hmissing]
    · simp [hwithin, hpresent]
  · rw [failureAfter_of_ne hzero]
    have hne := Ne.symm hzero
    refine ⟨?_, ?_, fun code => ?_, ?_, ?_⟩
    · simp [hlaunch]
    · simp [hwithin]
    · simp only [hwithin, Option.some.injEq, Failure.exitStatus.injEq]
      constructor
      · rintro rfl
        exact ⟨s, status, ⟨rfl, rfl⟩, hzero, rfl⟩
      · rintro ⟨_, _, ⟨rfl, rfl⟩, -, rfl⟩
        rfl
    · simp [hwithin, hne]
    · simp [hwithin, hne]

/-! ## The run of a command -/

/-- Where a stage stops that has started its tool: at the end of the launched process, or else at the
last moment before the limit. -/
def StopsAt (h : Host) (c : Command) (workdir : String) (limit : Nat) (s : Moment) : Prop :=
  (∃ status, EndsWithin h c workdir limit s status) ∨
    (∀ s' status, ¬ EndsWithin h c workdir limit s' status) ∧
      ∀ next, s.wake? = some next → h.deadline limit ≤ next.1

/-- **What a command gives** whose tool was started, and the part of the history that it has seen. -/
theorem run_ended {program : Nat → Behaviour} (hlaunch : launched h c workdir = .ok program)
    (limit : Nat) :
    ∃ said s ended failure h', Watched (h.deadline limit) (h.begun program) said s ended ∧
      Left h program s ended h' ∧ Ended c failure (textAt s) h' (c.run workdir limit h) ∧
      (failure = some (.timeout limit) ↔ ended = false) ∧
      (ended = true → ∃ status, s.2.status = some status ∧ failure = failureAfter c status h') := by
  obtain ⟨said, s, ended, h', hwatched, hleft, hover, hnot⟩ := run_history hlaunch limit
  cases ended with
  | true =>
    obtain ⟨status, hstatus⟩ := Option.isSome_iff_exists.1 (isOver_iff.1 hwatched.isOver).1
    refine ⟨said, s, true, failureAfter c status h', h', hwatched, hleft, ?_, ?_, fun _ =>
      ⟨status, hstatus, rfl⟩⟩
    · rw [hover rfl, hstatus]
      exact conclude_ended c status _ _ h'
    · simp [failureAfter_ne_timeout]
  | false =>
    exact ⟨said, s, false, some (.timeout limit), h', hwatched, hleft, hnot rfl, by simp, by simp⟩

/-- **How a stage ends**, if no captured stream is held any more when the launched process ends.  The
stage itself changes no file: those that it finds in the end are those that its tool leaves. -/
theorem run_accounted (c : Command) (workdir : String) (limit : Nat) (h : Host)
    (hcloses : ∀ program, launched h c workdir = .ok program → ClosesInTime (h.begun program)) :
    ∃ failure text h', Ended c failure text h' (c.run workdir limit h) ∧
      Accounted h c workdir limit failure ∧
      (∀ fault, launched h c workdir = .error fault → text = "" ∧ h'.files = h.files) ∧
      ∀ program, launched h c workdir = .ok program → ∃ said s,
        Elapses (h.begun program) said s ∧ StopsAt h c workdir limit s ∧ text = textAt s ∧
          h'.files = s.2.world.tree := by
  rcases hlaunch : launched h c workdir with fault | program
  · refine ⟨_, "", h.note (.called c), ?_, .of_refused hlaunch, fun _ _ => ⟨rfl, rfl⟩,
      fun _ hprogram => by cases hprogram⟩
    have hrefused : (h.note (.called c)).launch (h.note (.called c)).files (h.note (.called c)).cwd
        workdir c.program c.args = .error fault := hlaunch
    simp only [Ended, Command.run, hrefused]
    rfl
  have hcloses := hcloses program hlaunch
  obtain ⟨said, s, ended, failure, h', hwatched, hleft, hended, htimeout, hstatus⟩ :=
    run_ended hlaunch limit
  suffices hstops : Accounted h c workdir limit failure ∧ StopsAt h c workdir limit s by
    refine ⟨failure, textAt s, h', hended, hstops.1, (fun _ hfault => by cases hfault), ?_⟩
    rintro program' hprogram
    obtain rfl := Except.ok.inj hprogram
    exact ⟨said, s, hwatched.elapses, hstops.2, rfl, hleft.files⟩
  cases ended with
  | true =>
    obtain ⟨status, hat⟩ := hwatched.endsAt hcloses
    obtain ⟨status', hsome, rfl⟩ := hstatus rfl
    obtain rfl := Option.some.inj (hat.status.symm.trans hsome)
    have htime : s.1 < h.deadline limit := by
      rcases hwatched.in_time with hin | rfl
      · exact hin
      · cases hat.status
    have hends : EndsWithin h c workdir limit s status := ⟨program, hlaunch, hat, htime⟩
    exact ⟨.of_ends hends hleft.files hleft.cwd, .inl ⟨status, hends⟩⟩
  | false =>
    have hnever (s' : Moment) (status : ExitStatus) : ¬ EndsWithin h c workdir limit s' status := by
      rintro ⟨program', hprogram, hat, htime⟩
      obtain rfl := Except.ok.inj (hlaunch.symm.trans hprogram)
      exact absurd (hwatched.eq_of_endsAt hcloses hat htime).1 Bool.false_ne_true
    rw [htimeout.2 rfl]
    exact ⟨.of_never hlaunch hnever, .inr ⟨hnever, hwatched.last rfl⟩⟩

end

/-- Whether a path names a regular file with something in it, at a moment. -/
def isFilledAt (h : Host) (s : Moment) (path : String) : Bool :=
  isPresent { h with files := s.2.world.tree } path

theorem isFilledAt_iff {h : Host} {s : Moment} {path : String} :
    isFilledAt h s path = true ↔ FilledAt h s path :=
  isPresent_iff_filledAt rfl rfl path

/-- A tool that leaves a file with something in it, and ends. -/
def leaving (place : Files.Place) (status : ExitStatus) : Behaviour :=
  .act (fun w => { w with tree := w.tree.put place (.file 0 Files.Tree.fileMode [1]) })
    fun _ => .done status

/-- A command whose tool leaves one of two outputs out. -/
def sloppyCommand : Command :=
  ⟨.grammar, "tool", [], ["/a", "/b"]⟩

/-- The host of a tool that leaves one file. -/
def sloppyHost : Host :=
  { launch := fun _ _ _ _ _ => .ok fun _ => leaving ["a"] (.exited 0) }

theorem missing_of_sloppy :
    (∀ program, launched sloppyHost sloppyCommand "/" = .ok program →
      ClosesInTime (sloppyHost.begun program)) ∧
    ∃ text h', sloppyCommand.run "/" 1 sloppyHost =
      .error (.stage .grammar (.missingOutput "/b") text) h' := by
  let program : Nat → Behaviour := fun _ => leaving ["a"] (.exited 0)
  have hlaunch : launched sloppyHost sloppyCommand "/" = .ok program := rfl
  have hcloses (program : Nat → Behaviour)
      (hprogram : launched sloppyHost sloppyCommand "/" = .ok program) :
      ClosesInTime (sloppyHost.begun program) := by
    obtain rfl := Except.ok.inj (hlaunch.symm.trans hprogram)
    have hlength : ((sloppyHost.begun program).firsts 6).length ≤ 6 := by decide +kernel
    exact .of_firsts hlength (by decide +kernel)
  refine ⟨hcloses, ?_⟩
  obtain ⟨failure, text, h', hended, haccounted, -⟩ :=
    run_accounted sloppyCommand "/" 1 sloppyHost hcloses
  have hmissing : failure = some (.missingOutput "/b") := by
    -- the moment at which the launched process ends, found among the first ones
    have hmoment : ∃ s ∈ (sloppyHost.begun program).firsts 6, s.2.status = some (.exited 0) ∧
        (∀ s' ∈ (sloppyHost.begun program).firsts 6, s'.1 < s.1 → s'.2.status = none) ∧
        s.1 < sloppyHost.deadline 1 ∧
        isFilledAt sloppyHost s "/a" = true ∧ isFilledAt sloppyHost s "/b" = false := by
      decide +kernel
    obtain ⟨s, hmem, hstatus, hfirst, htime, ha, hb⟩ := hmoment
    refine (haccounted.missingOutput "/b").2
      ⟨s, ⟨program, hlaunch, .of_firsts hmem hstatus hfirst, htime⟩, ["/a"], [], rfl, ?_, ?_⟩
    · intro p hp
      rw [List.mem_singleton.1 hp]
      exact isFilledAt_iff.1 ha
    · exact fun hfilled => by simp [isFilledAt_iff.2 hfilled] at hb
  subst hmissing
  exact ⟨text, h', hended⟩

end LangBundle.Stage
