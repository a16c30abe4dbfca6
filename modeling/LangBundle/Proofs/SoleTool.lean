import LangBundle.Stage.Run

/-!
# A tool that works alone

A tool may be thought of as a function: called with arguments on a file tree it is refused, or it
writes some output, leaves a file tree, and ends after a while or never.  `Deed` is what one call
comes to, `ToolFunction` is such a tool, and `ToolFunction.launcher` makes a launcher of it.

The scheduler is followed through the run of one such process.

* `round_sole`: a round lets the only process have its turn.
* `round_sole_sleep`, `round_sole_work`, `round_sole_done`: the three kinds of turns of a deed.
* `runUntil_deed`: **the run of a deed**: its files are left and its output is captured, and it is
  over before the deadline exactly if its turnaround is.
* `runProgram_deed`: the same for the run of a stage's program on a host without processes.
-/

namespace LangBundle

open Files (Tree Place Fault)
open Process

/-- What a call of a tool comes to. -/
structure Deed where
  /-- What it writes to its two streams, in order. -/
  said : List (Channel × Bytes)
  /-- The files as it leaves them. -/
  files : Tree
  /-- After how many microseconds it ends, and how; none if it never ends. -/
  ending : Option (Nat × ExitStatus)

/-- Writes pieces one after the other. -/
def saying (said : List (Channel × Bytes)) (next : Behaviour) : Behaviour :=
  said.foldr (fun piece rest => .emit piece.1 piece.2 rest) next

/-- A capture that takes pieces one after the other. -/
def Process.Capture.feedAll (c : Capture) (said : List (Channel × Bytes)) : Capture :=
  said.foldl (fun c piece => c.feed piece.1 piece.2) c

namespace Deed

/-- How a deed ends. -/
def conclusion (d : Deed) : Behaviour :=
  match d.ending with
  | some (time, status) => .sleep time (.done status)
  | none => .hang

/-- The process that does a deed. -/
def behaviour (d : Deed) : Behaviour :=
  saying d.said (.act (fun w => { w with tree := d.files }) fun _ => d.conclusion)

/-- The time from the call of a tool to its end, if it takes `time` for its work. -/
def turnaround (time : Nat) : Nat :=
  1 + birthTime + max time 1 + farewellTime

/-- How a deed ends within a limit in milliseconds, if it does. -/
def statusWithin (d : Deed) (limit : Nat) : Option ExitStatus :=
  d.ending.bind fun (time, status) => if turnaround time < limit * 1000 then some status else none

/-- What is captured of a deed's output within a limit: without any time nothing, and of a deed that
does not end in time no unfinished line. -/
def heard (d : Deed) (limit : Nat) : Bytes :=
  if limit = 0 then []
  else if (d.statusWithin limit).isSome then
    (((({} : Capture).feedAll d.said).flush .out).flush .err).merged
  else (({} : Capture).feedAll d.said).merged

/-- The files after a deed on `t` that was given a limit. -/
def filesAfter (d : Deed) (limit : Nat) (t : Tree) : Tree :=
  if limit = 0 then t else d.files

end Deed

/-- A tool as a function of the files, the directories and the arguments of its call. -/
abbrev ToolFunction :=
  Tree → Place → (workdir program : String) → List String → Except Fault Deed

/-- The launcher that calls a tool. -/
def ToolFunction.launcher (f : ToolFunction) : Launcher := fun t cwd workdir program args =>
  (f t cwd workdir program args).map fun d _ => d.behaviour

/-! ## Writing -/

theorem andThen_saying (next : ExitStatus → Behaviour) (said : List (Channel × Bytes))
    (b : Behaviour) : (saying said b).andThen next = saying said (b.andThen next) := by
  induction said with
  | nil => rfl
  | cons piece said ih => exact congrArg (Behaviour.emit piece.1 piece.2) ih

theorem advance_saying (p left : Nat) (ports : List Port) (said : List (Channel × Bytes))
    (b : Behaviour) (r : Run) :
    (saying said b).advance p false left ports r =
      b.advance p false left ports { r with capture := r.capture.feedAll said } := by
  induction said generalizing r with
  | nil => rfl
  | cons piece said ih => exact ih _

/-! ## The only process -/

/-- Both captured streams. -/
def bothStreams : List Port :=
  [.captured .out, .captured .err]

/-- One process lives in the world, and it holds both captured streams. -/
structure Sole (w : World) (p : Nat) : Prop where
  members : w.system.members = [(p, {})]
  held : w.held = bothStreams

/-- The thread of a launched process. -/
def soleThread (p : Nat) (code : Behaviour) (wait : Wait) (spent : Nat) : Thread :=
  { process := p, code, ports := bothStreams, wait, spent }

/-- The run of a launched process beside which there is no other. -/
def sole (w : World) (c : Capture) (p : Nat) (code : Behaviour) (wait : Wait) (spent : Nat) : Run :=
  { world := w, capture := c, threads := [soleThread p code wait spent], launched := p }

/-- A process that is about to go. -/
def farewell (status : ExitStatus) : Behaviour :=
  .sleep farewellTime (.done status)

section
variable {w : World} {c : Capture} {p : Nat} {code : Behaviour} {wait : Wait} {spent : Nat}

variable (c code wait spent) in
theorem isReady_sole (hw : Sole w p) :
    (sole w c p code wait spent).isReady (soleThread p code wait spent) = match wait with
      | .nothing => true
      | .time moment => decide (moment ≤ w.clock)
      | .world isReady => isReady w := by
  simp only [Run.isReady, World.isStopped, World.member?, sole, soleThread, hw.members]
  simp
  rfl

theorem dismissDoomed_sole (hw : Sole w p) :
    (sole w c p code wait spent).dismissDoomed = sole w c p code wait spent := by
  simp only [Run.dismissDoomed, sole, soleThread, World.doomOf?, World.member?, hw.members]
  cases code <;> simp

/-- **A round is the turn of the only process**, if that is ready. -/
theorem round_sole (hs : spent < patience)
    (hready : (sole w c p code wait spent).isReady (soleThread p code wait spent) = true) :
    let s := code.advance p false share bothStreams (sole w c p code wait spent)
    (sole w c p code wait spent).round = (match s.pause with
      | .ended status => s.run.bury { soleThread p code wait spent with ports := s.ports } status
      | .waiting wait code =>
        s.run.update { process := p, code, ports := s.ports, wait
                       spent := spent + (share - s.left) }).dismissDoomed := by
  have hs' : ¬ patience ≤ spent := by omega
  simp only [sole, soleThread] at hready
  simp only [Run.round, Run.turn, sole, soleThread, List.map_cons, List.map_nil, List.foldl_cons,
    List.foldl_nil, List.find?_cons, decide_true, hready, hs', Bool.not_true, if_false,
    Bool.false_eq_true]
  generalize code.advance p false share bothStreams _ = s
  rcases s with ⟨_ | ⟨_ | _ | _, _⟩, _, _, _⟩ <;> rfl

variable (c code) in
theorem round_sole_sleep (hw : Sole w p) (time : Nat)
    (hwait : wait = .nothing ∨ ∃ m, wait = .time m ∧ m ≤ w.clock) (hs : spent < patience) :
    (sole w c p (.sleep time code) wait spent).round =
      sole w c p code (.time (w.clock + time)) spent := by
  have hready : (sole w c p (.sleep time code) wait spent).isReady
      (soleThread p (.sleep time code) wait spent) = true := by
    rw [isReady_sole _ _ _ _ hw]
    rcases hwait with rfl | ⟨m, rfl, hm⟩
    · rfl
    · simpa using hm
  rw [round_sole hs hready]
  simp only [Behaviour.advance, Run.update, sole, soleThread, List.map_cons, List.map_nil, if_true,
    Nat.sub_self, Nat.add_zero]
  exact dismissDoomed_sole hw

variable (c) in
/-- The turn in which a deed is done. -/
theorem round_sole_work (hw : Sole w p) (d : Deed) (next : ExitStatus → Behaviour) {m : Nat}
    (hm : m ≤ w.clock) (hs : spent < patience) :
    (sole w c p (d.behaviour.andThen next) (.time m) spent).round =
      let w' := { w with tree := d.files }
      match d.ending with
      | some (time, status) =>
        sole w' (c.feedAll d.said) p (next status) (.time (w.clock + time)) (spent + 1)
      | none =>
        sole w' (c.feedAll d.said) p (next (.exited 0)) (.world fun _ => false) (spent + 1) := by
  have hready : (sole w c p (d.behaviour.andThen next) (.time m) spent).isReady
      (soleThread p (d.behaviour.andThen next) (.time m) spent) = true := by
    rw [isReady_sole _ _ _ _ hw]
    simpa using hm
  have hw' : Sole { w with tree := d.files } p := ⟨hw.members, hw.held⟩
  rw [round_sole hs hready, Deed.behaviour, andThen_saying, advance_saying]
  simp only [Behaviour.andThen, share, Behaviour.advance, Deed.conclusion, sole, soleThread,
    World.doomOf?, World.member?, hw.members, World.isStopped]
  rcases d.ending with _ | ⟨time, status⟩
  · simp only [Behaviour.hang, Behaviour.andThen]
    simp [Behaviour.advance, Run.update]
    exact dismissDoomed_sole hw'
  · simp only [Behaviour.andThen]
    simp [Behaviour.advance, Run.update]
    exact dismissDoomed_sole hw'

variable (c) in
/-- The turn in which the only process goes: nobody is left, and what it did not end is captured. -/
theorem round_sole_done (hw : Sole w p) (status : ExitStatus) {m : Nat} (hm : m ≤ w.clock)
    (hs : spent < patience) :
    ∃ w', (sole w c p (.done status) (.time m) spent).round =
        { world := w', capture := (c.flush .out).flush .err, launched := p,
          status := some status } ∧
      w'.tree = w.tree ∧ w'.system.members = [] ∧ w'.held = [] := by
  have hready : (sole w c p (.done status) (.time m) spent).isReady
      (soleThread p (.done status) (.time m) spent) = true := by
    rw [isReady_sole _ _ _ _ hw]
    simpa using hm
  rw [round_sole hs hready]
  simp [Behaviour.advance, Run.bury, Run.exchange, sole, soleThread, hw.held, bothStreams,
    Run.isFree, World.removeMember, World.onSystem, World.signal, World.onMember, hw.members,
    Run.dismissDoomed]

end

/-! ## The run of a deed -/

theorem runUntil_of_isOver {r : Run} (h : r.isOver = true) (deadline now : Nat) :
    r.runUntil deadline now = (r, now, true) := by
  rw [Run.runUntil, if_pos h]

/-- Time goes on to the moment at which the only process wakes. -/
theorem runUntil_sole_time {w : World} {p : Nat} (c : Capture) (code : Behaviour)
    (m spent deadline : Nat) (hw : Sole w p) :
    (sole w c p code (.time m) spent).runUntil deadline w.clock =
      let next := max m (w.clock + 1)
      if next < deadline then
        (sole { w with clock := next } c p code (.time m) spent).round.runUntil deadline next
      else (sole w c p code (.time m) spent, deadline, false) := by
  have hready := isReady_sole c code (.time m) spent hw
  have hstop : w.isStopped p = false := by
    simp [World.isStopped, World.member?, hw.members]
  have hnext : max m (w.clock + 1) = max (if m ≤ w.clock then w.clock + 1 else max m (w.clock + 1))
      (w.clock + 1) := by
    split <;> omega
  have htime : (sole w c p code (.time m) spent).nextTime? w.clock =
      some (if m ≤ w.clock then w.clock + 1 else max m (w.clock + 1)) := by
    simp only [Run.nextTime?, sole, List.any_cons, List.any_nil, Bool.or_false]
    simp only [sole] at hready
    rw [hready]
    by_cases hm : m ≤ w.clock
    · simp [hm]
    · simp [hm, soleThread, hstop]
  rw [Run.runUntil, if_neg (by simp [Run.isOver, sole]), htime]
  simp only [← hnext]
  rfl

theorem runUntil_sole_first {w : World} {c : Capture} {p spent deadline : Nat} {code : Behaviour}
    (hw : Sole w p) (hd : w.clock + 1 < deadline) :
    (sole w c p code .nothing spent).runUntil deadline w.clock =
      (sole { w with clock := w.clock + 1 } c p code .nothing spent).round.runUntil deadline
        (w.clock + 1) := by
  have hready := isReady_sole c code .nothing spent hw
  have htime : (sole w c p code .nothing spent).nextTime? w.clock = some (w.clock + 1) := by
    simp only [Run.nextTime?, sole, List.any_cons, List.any_nil, Bool.or_false]
    simp only [sole] at hready
    rw [hready]
    rfl
  rw [Run.runUntil, if_neg (by simp [Run.isOver, sole]), htime]
  simp only [Nat.max_self, if_pos hd]
  rfl

/-- A process that waits for nothing that comes runs into the deadline. -/
theorem runUntil_sole_never {w : World} {c : Capture} {p spent deadline : Nat} {code : Behaviour}
    (hw : Sole w p) :
    (sole w c p code (.world fun _ => false) spent).runUntil deadline w.clock =
      (sole w c p code (.world fun _ => false) spent, deadline, false) := by
  have hready := isReady_sole c code (.world fun _ => false) spent hw
  have htime : (sole w c p code (.world fun _ => false) spent).nextTime? w.clock = none := by
    simp only [Run.nextTime?, sole, List.any_cons, List.any_nil, Bool.or_false]
    simp only [sole] at hready
    rw [hready]
    rfl
  rw [Run.runUntil, if_neg (by simp [Run.isOver, sole]), htime]

/-- What the run of the only process comes to: it is over with a status and nobody is left, or it
goes on.  In both cases its files and its output are there. -/
inductive Outcome (t : Tree) (c : Capture) (p : Nat) : Option ExitStatus → Run → Prop
  | ended {w : World} {status : ExitStatus} (htree : w.tree = t) (hmembers : w.system.members = [])
      (hheld : w.held = []) :
      Outcome t c p (some status)
        { world := w, capture := (c.flush .out).flush .err, launched := p, status := some status }
  | running {w : World} {code : Behaviour} {wait : Wait} {spent : Nat} (htree : w.tree = t)
      (hw : Sole w p) : Outcome t c p none (sole w c p code wait spent)

section
variable {w : World} {p spent : Nat} (c : Capture) (m deadline : Nat)

theorem runUntil_sole_done (hw : Sole w p) (status : ExitStatus) (hs : spent < patience) :
    let next := max m (w.clock + 1)
    ∃ r now, (sole w c p (.done status) (.time m) spent).runUntil deadline w.clock =
        (r, now, decide (next < deadline)) ∧
      Outcome w.tree c p (if next < deadline then some status else none) r := by
  intro next
  rw [runUntil_sole_time _ _ _ _ _ hw]
  by_cases hd : next < deadline
  · have hw' : Sole { w with clock := next } p := ⟨hw.members, hw.held⟩
    obtain ⟨w', hround, htree, hmembers, hheld⟩ :=
      round_sole_done c hw' status (Nat.le_max_left m (w.clock + 1)) hs
    let left : Run :=
      { world := w', capture := (c.flush .out).flush .err, launched := p, status := some status }
    have hover : left.isOver = true := by
      simp [left, Run.isOver, Run.isFree, hheld]
    refine ⟨left, next, ?_, ?_⟩
    · simp only [next] at hround hd ⊢
      rw [if_pos hd, hround, runUntil_of_isOver hover, decide_eq_true hd]
    · rw [if_pos hd]
      exact .ended htree hmembers hheld
  · refine ⟨sole w c p (.done status) (.time m) spent, deadline, ?_, ?_⟩
    · simp only [next] at hd ⊢
      rw [if_neg hd, decide_eq_false hd]
    · rw [if_neg hd]
      exact .running rfl hw

theorem runUntil_sole_farewell (hw : Sole w p) (status : ExitStatus) (hs : spent < patience) :
    let last := max m (w.clock + 1) + farewellTime
    ∃ r now, (sole w c p (farewell status) (.time m) spent).runUntil deadline w.clock =
        (r, now, decide (last < deadline)) ∧
      Outcome w.tree c p (if last < deadline then some status else none) r := by
  intro last
  rw [runUntil_sole_time _ _ _ _ _ hw]
  by_cases hd : max m (w.clock + 1) < deadline
  · have hw' : Sole { w with clock := max m (w.clock + 1) } p := ⟨hw.members, hw.held⟩
    have hround := round_sole_sleep c (.done status) hw' farewellTime
      (.inr ⟨m, rfl, Nat.le_max_left m (w.clock + 1)⟩) hs
    have hdone := runUntil_sole_done c (max m (w.clock + 1) + farewellTime) deadline hw' status hs
    have hlast : max (max m (w.clock + 1) + farewellTime) (max m (w.clock + 1) + 1) = last := by
      simp only [last, farewellTime]; omega
    simp only [hlast] at hdone
    rw [if_pos hd, farewell, hround]
    exact hdone
  · have hd' : ¬ last < deadline := by simp only [last]; omega
    refine ⟨sole w c p (farewell status) (.time m) spent, deadline, ?_, ?_⟩
    · rw [if_neg hd, decide_eq_false hd']
    · rw [if_neg hd']
      exact .running rfl hw

end

/-- **The run of a deed**: it is over before the deadline exactly if its turnaround is. -/
theorem runUntil_deed {w : World} {p limit : Nat} (c : Capture) (d : Deed) (hw : Sole w p)
    (hlimit : 0 < limit) :
    ∃ r now, (sole w c p (.sleep birthTime (d.behaviour.andThen farewell)) .nothing 0).runUntil
        (w.clock + limit * 1000) w.clock = (r, now, (d.statusWithin limit).isSome) ∧
      Outcome d.files (c.feedAll d.said) p (d.statusWithin limit) r := by
  have hat (w' : World) (h : w'.system = w.system) (h' : w'.held = w.held) : Sole w' p :=
    ⟨h ▸ hw.members, h' ▸ hw.held⟩
  -- the process is born, does its work and goes: three turns, each at its own moment
  let born : World := { w with clock := w.clock + 1 }
  let working : World := { w with clock := w.clock + 1 + birthTime }
  let worked : World := { working with tree := d.files }
  have hborn := round_sole_sleep c (d.behaviour.andThen farewell) (hat born rfl rfl) birthTime
    (.inl rfl)
    (by decide : 0 < patience)
  have hwork := runUntil_sole_time c (d.behaviour.andThen farewell) (born.clock + birthTime) 0
    (w.clock + limit * 1000) (hat born rfl rfl)
  have hmax : max (born.clock + birthTime) (born.clock + 1) = working.clock := by
    simp only [born, working, birthTime]; omega
  simp only [hmax] at hwork
  rw [if_pos (by simp only [working, birthTime]; omega)] at hwork
  have hturn := round_sole_work c (hat working rfl rfl) d farewell (Nat.le_refl _)
    (by decide : 0 < patience)
  have hrun : (sole w c p (.sleep birthTime (d.behaviour.andThen farewell)) .nothing 0).runUntil
      (w.clock + limit * 1000) w.clock =
      (sole working c p (d.behaviour.andThen farewell) (.time working.clock) 0).round.runUntil
        (w.clock + limit * 1000) working.clock := by
    rw [runUntil_sole_first hw (by omega)]
    exact (congrArg (Run.runUntil _ born.clock) hborn).trans hwork
  rw [hrun, hturn]
  rcases hending : d.ending with _ | ⟨time, status⟩
  · have hstatus : d.statusWithin limit = none := by simp [Deed.statusWithin, hending]
    rw [hstatus]
    exact ⟨_, _, runUntil_sole_never (hat worked rfl rfl), .running rfl (hat worked rfl rfl)⟩
  · have hfarewell := runUntil_sole_farewell (c.feedAll d.said) (working.clock + time)
      (w.clock + limit * 1000) (hat worked rfl rfl) status (by decide : 1 < patience)
    have hlast : max (working.clock + time) (worked.clock + 1) + farewellTime <
        w.clock + limit * 1000
        ↔ Deed.turnaround time < limit * 1000 := by
      simp only [worked, working, Deed.turnaround, birthTime, farewellTime]; omega
    have hstatus : d.statusWithin limit =
        if Deed.turnaround time < limit * 1000 then some status else none := by
      simp [Deed.statusWithin, hending]
    have hsome : (d.statusWithin limit).isSome = decide (Deed.turnaround time < limit * 1000) := by
      rw [hstatus]
      split <;> simp_all
    simp only [hlast] at hfarewell
    rw [hsome, hstatus]
    exact hfarewell

/-! ## A stage's program -/

/-- A host on which no process lives and whose tools are a function. -/
structure Host.CallsOnly (h : Host) (f : ToolFunction) : Prop where
  launch : h.launch = f.launcher
  leftovers : h.leftovers = []
  members : h.system.members = []

/-- A host with a function as its tools and no processes. -/
def Host.withTools (h : Host) (f : ToolFunction) : Host :=
  { h with launch := f.launcher, system := {}, leftovers := [] }

theorem Host.callsOnly_withTools (h : Host) (f : ToolFunction) : (h.withTools f).CallsOnly f :=
  ⟨rfl, rfl, rfl⟩

/-- A process that is launched where none lives is the only one. -/
theorem start_sole (w : World) (hmembers : w.system.members = []) (hheld : w.held = [])
    (b : Behaviour) :
    ∃ w' p, Run.start w.clock (fun _ => b) { world := w } =
        sole w' {} p (.sleep birthTime (b.andThen farewell)) .nothing 0 ∧
      Sole w' p ∧ w'.clock = w.clock := by
  refine ⟨_, _, rfl, ⟨?_, ?_⟩, rfl⟩
  · simp [World.addMember, World.member?, World.onSystem, hmembers]
  · simp [hheld, bothStreams]

theorem Outcome.kill {t : Tree} {c : Capture} {p : Nat} {r : Run} (h : Outcome t c p none r) :
    r.abandonStreams.killLaunched.world.tree = t ∧
      r.abandonStreams.killLaunched.capture = c ∧
      r.abandonStreams.killLaunched.threads = [] ∧
      r.abandonStreams.killLaunched.world.system.members = [] := by
  cases h with
  | running htree hw =>
    subst htree
    simp [Run.abandonStreams, Run.killLaunched, sole, soleThread, audible, bothStreams, Run.bury,
      Run.exchange, World.removeMember, World.onSystem, World.signal, World.onMember, hw.members]

/-- **The run of a stage's program**, if that does a deed on a host without processes. -/
theorem runProgram_deed (h : Host) (hleft : h.leftovers = []) (hmembers : h.system.members = [])
    (d : Deed) (limit : Nat) :
    ∃ r now, Stage.runProgram h (fun _ => d.behaviour) limit =
        (r, now, (d.statusWithin limit).isSome) ∧
      r.world.tree = d.filesAfter limit h.files ∧ r.capture.merged = d.heard limit ∧
      r.threads = [] ∧ r.world.system.members = [] ∧
      ∀ status, d.statusWithin limit = some status → r.status = some status := by
  by_cases hlimit : limit = 0
  · subst hlimit
    have hstatus : d.statusWithin 0 = none := by
      rcases hd : d.ending with _ | ⟨time, status⟩ <;> simp [Deed.statusWithin, hd]
    rw [hstatus]
    simp [Stage.runProgram, hleft, hmembers, Run.abandonStreams, Run.killLaunched, audible,
      Deed.filesAfter, Deed.heard, Capture.merged, Capture.lines]
  · let w : World := { tree := h.files, system := h.system, clock := h.clock }
    obtain ⟨w', p, hstart, hw, hclock⟩ := start_sole w hmembers rfl d.behaviour
    obtain ⟨r, now, hrun, hout⟩ := runUntil_deed {} d hw (Nat.pos_of_ne_zero hlimit)
    have hbegun : Stage.runProgram h (fun _ => d.behaviour) limit =
        if (d.statusWithin limit).isSome then (r, now, true)
        else (r.abandonStreams.killLaunched, now, false) := by
      simp only [Stage.runProgram, hleft, List.flatMap_nil, if_neg hlimit]
      rw [hclock] at hrun
      rw [show h.clock = w.clock from rfl, hstart, hrun]
    rw [hbegun, Deed.filesAfter, if_neg hlimit, Deed.heard, if_neg hlimit]
    rcases hstatus : d.statusWithin limit with _ | status
    · rw [hstatus] at hout
      obtain ⟨htree, hcapture, hthreads, hgone⟩ := hout.kill
      refine ⟨_, _, rfl, htree, ?_, hthreads, hgone, by simp⟩
      rw [hcapture]
      rfl
    · rw [hstatus] at hout
      cases hout with
      | ended htree hgone hheld => exact ⟨_, _, rfl, htree, rfl, rfl, hgone, by simp⟩

end LangBundle
