import LangBundle.Proofs.StageOutcomes

/-!
# Streams that are held too long

A stage is not over when its launched process ends, but when nobody holds the captured streams any
more.  So what the launched process has started decides with it how the stage ends.

* `outcome_of_closed`: if the streams are closed before the limit, and what was left as an output is
  left there, then a stage ends as the **launched process** did.
* `timeout_of_held`: if not, then it has run too long, however the launched process has ended.
-/

namespace LangBundle.Stage

open Process

section
variable {h : Host} {c : Command} {workdir : String} {program : Nat → Behaviour} {limit : Nat}

/-- A stage whose launched process ends at a moment `s` in time ends as that does, **if the streams
are closed** before the limit as well, and no output is taken away again until then. -/
theorem outcome_of_closed (hh : h.Orderly) (hlaunch : launched h c workdir = .ok program)
    (hprogram : ∀ n, (program n).IsHonest bothStreams) {s s' : Moment} {status : ExitStatus}
    (hends : EndsAt (h.begun program) s status) {said : List (Channel × Bytes)}
    (hcloses : Elapses s said s') (hfree : ∀ channel, ¬ s'.2.world.Holds channel)
    (htime : s'.1 < h.deadline limit)
    (hkept : ∀ said' s'', Elapses s said' s'' → s''.1 ≤ s'.1 →
      ∀ path ∈ c.outputs, FilledAt h s path → FilledAt h s'' path) :
    (status = .exited 0 → (∀ path ∈ c.outputs, FilledAt h s path) →
      ∃ text h', Ended c none text h' (c.run workdir limit h)) ∧
    (status ≠ .exited 0 → ∃ text h',
      Ended c (some (.exitStatus (status.code?.map Int.ofNat))) text h' (c.run workdir limit h)) := by
  obtain ⟨before, hs⟩ := hends.elapses
  have horderly : s.2.Orderly := ((hh.begun hprogram).1.elapses hs []).orderly
  -- the status of the launched process is final
  have hstatus {more : List (Channel × Bytes)} {next : Moment} (hnext : Elapses s more next) :
      next.2.status = some status :=
    (horderly.elapses hnext []).develops.status status hends.status
  have hover : s'.2.isOver = true := isOver_iff.2 ⟨by rw [hstatus hcloses]; rfl, hfree⟩
  obtain ⟨seen, stop, ended, failure, h', hwatched, hleft, hended, -, hfailure⟩ :=
    run_ended hlaunch limit
  obtain rfl := hwatched.ended_of_over (hs.trans hcloses) htime hover
  -- the stage stops between the end of the launched process and the close of the streams
  have hbehind := hends.le_of_over hwatched.elapses hwatched.isOver
  have hbefore := hwatched.le_of_over (hs.trans hcloses) hover
  obtain ⟨more, -, hstop⟩ := hs.to_later hwatched.elapses hbehind
  obtain ⟨status', hsome, rfl⟩ := hfailure rfl
  obtain rfl := Option.some.inj ((hstatus hstop).symm.trans hsome)
  constructor
  · rintro rfl hfilled
    have hall : c.outputs.find? (!isPresent h' ·) = none := by
      refine List.find?_eq_none.2 fun path hpath => ?_
      have hpresent := hkept _ _ hstop hbefore path hpath (hfilled path hpath)
      simp [(isPresent_iff_filledAt hleft.files hleft.cwd path).2 hpresent]
    rw [failureAfter_zero, hall] at hended
    exact ⟨_, _, hended⟩
  · intro hne
    rw [failureAfter_of_ne hne] at hended
    exact ⟨_, _, hended⟩

/-- A stage whose tool is not over at any moment before the limit **has run too long**. -/
theorem timeout_of_held (hlaunch : launched h c workdir = .ok program)
    (hheld : ∀ said s, Elapses (h.begun program) said s → s.1 < h.deadline limit →
      s.2.isOver = false) :
    ∃ text h', Ended c (some (.timeout limit)) text h' (c.run workdir limit h) := by
  obtain ⟨said, s, ended, failure, h', hwatched, -, hended, htimeout, -⟩ := run_ended hlaunch limit
  have hgoes : s.2.isOver = false := by
    rcases hwatched.in_time with htime | rfl
    · exact hheld said s hwatched.elapses htime
    · exact not_isOver_of_status rfl
  obtain rfl : ended = false := hwatched.isOver.symm.trans hgoes
  rw [htimeout.2 rfl] at hended
  exact ⟨_, _, hended⟩

end

/-! ## A tool that leaves a process behind -/

/-- A tool that starts a process, leaves a file, and ends; the other process ends after a while, in
microseconds, and holds the captured streams until then. -/
def leavingBehind (time : Nat) (status : ExitStatus) : Behaviour :=
  .fork (fun _ => .sleep time (.done (.exited 0))) fun _ => leaving ["a"] status

/-- The host of such a tool. -/
def heldHost (time : Nat) (status : ExitStatus) : Host :=
  { launch := fun _ _ _ _ _ => .ok fun _ => leavingBehind time status }

/-- A command with one output. -/
def plainCommand : Command :=
  ⟨.grammar, "tool", [], ["/a"]⟩

/-- What comes about when such a tool is called. -/
def leftBehind (time : Nat) (status : ExitStatus) : Moment :=
  (heldHost time status).begun fun _ => leavingBehind time status

/-- At some of the first moments, the launched process ends, and its output is there. -/
def EndsWell (time : Nat) (status : ExitStatus) (s : Moment) : Prop :=
  s.2.status = some status ∧
    (∀ s' ∈ (leftBehind time status).firsts 8, s'.1 < s.1 → s'.2.status = none) ∧
    s.1 < (heldHost time status).deadline 1 ∧
    isFilledAt (heldHost time status) s "/a" = true

instance (time : Nat) (status : ExitStatus) (s : Moment) : Decidable (EndsWell time status s) :=
  inferInstanceAs (Decidable (_ ∧ _))

theorem EndsWell.endsAt {time : Nat} {status : ExitStatus} {s : Moment}
    (h : EndsWell time status s) (hmem : s ∈ (leftBehind time status).firsts 8) :
    EndsAt (leftBehind time status) s status ∧ s.1 < (heldHost time status).deadline 1 ∧
      ∀ path ∈ plainCommand.outputs, FilledAt (heldHost time status) s path := by
  obtain ⟨hstatus, hfirst, htime, hpresent⟩ := h
  refine ⟨.of_firsts hmem hstatus hfirst, htime, fun path hpath => ?_⟩
  rw [List.mem_singleton.1 hpath]
  exact isFilledAt_iff.1 hpresent

theorem isHonest_leavingBehind (time : Nat) (status : ExitStatus) :
    (leavingBehind time status).IsHonest bothStreams :=
  ⟨fun _ => trivial, fun _ => ⟨⟨fun _ => rfl, fun _ => rfl⟩, fun _ => trivial⟩⟩

theorem outcome_of_briefly_held :
    (∃ s s' said, EndsAt (leftBehind 300 (.exited 0)) s (.exited 0) ∧ Elapses s said s' ∧
      (∀ channel, ¬ s'.2.world.Holds channel) ∧ s'.1 < (heldHost 300 (.exited 0)).deadline 1 ∧
      s.1 < s'.1) ∧
    ∃ text h', Ended plainCommand none text h' (plainCommand.run "/" 1 (heldHost 300 (.exited 0))) := by
  have hmoment : ∃ s ∈ (leftBehind 300 (.exited 0)).firsts 8, EndsWell 300 (.exited 0) s := by
    decide +kernel
  have hclosed : ∃ s ∈ (leftBehind 300 (.exited 0)).firsts 8, s.2.isOver = true ∧
      s.1 < (heldHost 300 (.exited 0)).deadline 1 ∧
      ∀ s' ∈ (leftBehind 300 (.exited 0)).firsts 8, EndsWell 300 (.exited 0) s' → s'.1 < s.1 := by
    decide +kernel
  have hthere : ∀ s ∈ (leftBehind 300 (.exited 0)).firsts 8, EndsWell 300 (.exited 0) s →
      ∀ s' ∈ (leftBehind 300 (.exited 0)).firsts 8, s.1 ≤ s'.1 →
      isFilledAt (heldHost 300 (.exited 0)) s' "/a" = true := by
    decide +kernel
  have hlength : ((leftBehind 300 (.exited 0)).firsts 8).length ≤ 8 := by decide +kernel
  obtain ⟨s, hs, hwell⟩ := hmoment
  obtain ⟨s', hs', hover, htime, hlater⟩ := hclosed
  obtain ⟨hends, -, hfilled⟩ := hwell.endsAt hs
  obtain ⟨before, hbefore⟩ := Elapses.exists_of_mem_firsts hs
  obtain ⟨until', huntil⟩ := Elapses.exists_of_mem_firsts hs'
  have hlt := hlater s hs hwell
  obtain ⟨said, -, hcloses⟩ := hbefore.to_later huntil (Nat.le_of_lt hlt)
  have hfree := (isOver_iff.1 hover).2
  refine ⟨⟨s, s', said, hends, hcloses, hfree, htime, hlt⟩, ?_⟩
  refine (outcome_of_closed (Host.orderly_of_nil rfl) rfl (fun _ => isHonest_leavingBehind 300 _)
    hends hcloses hfree htime fun said' s'' hs'' _ path hpath _ => ?_).1 rfl hfilled
  rw [List.mem_singleton.1 hpath]
  exact isFilledAt_iff.1
    (hthere s hs hwell s'' ((hbefore.trans hs'').mem_firsts_of_length hlength) hs''.le)

/-- The launched process of a stage ends in time and leaves its output, and all the same the stage
says that it has run too long. -/
def IsHeldUp (h : Host) (status : ExitStatus) : Prop :=
  (∃ s, EndsWithin h plainCommand "/" 1 s status ∧ ∀ path ∈ plainCommand.outputs, FilledAt h s path) ∧
    ∃ text h', plainCommand.run "/" 1 h = .error (.stage .grammar (.timeout 1) text) h'

theorem isHeldUp_of_firsts {time : Nat} {status : ExitStatus}
    (hmoment : ∃ s ∈ (leftBehind time status).firsts 8, EndsWell time status s)
    (hheld : ∀ s ∈ (leftBehind time status).firsts 8, s.1 < (heldHost time status).deadline 1 →
      s.2.isOver = false)
    (hlong : ∃ s ∈ (leftBehind time status).firsts 8, (heldHost time status).deadline 1 ≤ s.1) :
    IsHeldUp (heldHost time status) status := by
  obtain ⟨s, hs, hwell⟩ := hmoment
  obtain ⟨hends, htime, hfilled⟩ := hwell.endsAt hs
  refine ⟨⟨s, ⟨_, rfl, hends, htime⟩, hfilled⟩, ?_⟩
  exact timeout_of_held rfl fun _ _ => Elapses.forall_of_firsts hheld hlong

/-- Streams that are **held too long**: whether the launched process has ended well or badly makes no
difference. -/
theorem isHeldUp_for_ten_seconds :
    IsHeldUp (heldHost 10000000 (.exited 0)) (.exited 0) ∧
      IsHeldUp (heldHost 10000000 (.exited 3)) (.exited 3) :=
  ⟨isHeldUp_of_firsts (by decide +kernel) (by decide +kernel) (by decide +kernel),
    isHeldUp_of_firsts (by decide +kernel) (by decide +kernel) (by decide +kernel)⟩

end LangBundle.Stage
