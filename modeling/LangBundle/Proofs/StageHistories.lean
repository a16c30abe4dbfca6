import LangBundle.Proofs.ProcessTrees
import LangBundle.Proofs.SoleTool

/-!
# The history of a stage

The tool of a stage goes through a history, together with what earlier stages have left.  The stage
looks at it up to the moment at which the tool is over, or up to the last one before the time limit,
and then leaves it alone.

* `Host.begun`: the moment at which a tool begins.
* `runProgram_history`, `run_history`: **what a stage sees** is this history, and nothing of it is
  its own doing but that it ends the launched process in the end.
* `Host.Orderly`: what earlier stages have left is in order.
* `Host.Orderly.begun`, `Host.Orderly.left`: **a stage** begins in order, and leaves order.
-/

namespace LangBundle

open Process

/-! ## The beginning -/

/-- What runs on a host. -/
def Host.running (h : Host) : Run :=
  { world :=
      { tree := h.files, system := h.system, held := h.leftovers.flatMap (·.ports), clock := h.clock }
    threads := h.leftovers }

/-- The moment at which a program begins on a host. -/
def Host.begun (h : Host) (program : Nat → Behaviour) : Moment :=
  (h.clock, h.running.start h.clock program)

/-- When a time limit in milliseconds is reached. -/
def Host.deadline (h : Host) (limit : Nat) : Nat :=
  h.clock + limit * 1000

/-- What is left of a run that nobody waits for any more. -/
def Process.Run.abandoned (r : Run) : Run :=
  r.abandonStreams.killLaunched

theorem Process.not_isOver_of_status {r : Run} (h : r.status = none) : r.isOver = false := by
  rw [Run.isOver, h]
  rfl

theorem Process.isOver_iff {r : Run} :
    r.isOver = true ↔ r.status.isSome = true ∧ ∀ channel, ¬ r.world.Holds channel := by
  have hfree (channel : Channel) : r.isFree channel = true ↔ ¬ r.world.Holds channel := by
    simp [Run.isFree, World.Holds]
  rw [Run.isOver, Bool.and_eq_true, Bool.and_eq_true, hfree, hfree, and_assoc]
  refine and_congr_right fun _ => ⟨fun h channel => ?_, fun h => ⟨h .out, h .err⟩⟩
  cases channel
  · exact h.1
  · exact h.2

namespace Stage

theorem runProgram_eq (h : Host) (program : Nat → Behaviour) {limit : Nat} (hlimit : limit ≠ 0) :
    runProgram h program limit =
      match (h.begun program).2.runUntil (h.deadline limit) h.clock with
      | (r, now, true) => (r, now, true)
      | (r, now, false) => (r.abandoned, now, false) := by
  have hsame : runProgram h program limit =
      let result := (h.begun program).2.runUntil (h.deadline limit) h.clock
      if result.2.2 then (result.1, result.2.1, true)
      else (result.1.abandoned, result.2.1, false) := by
    simp only [runProgram, if_neg hlimit]
    rfl
  rw [hsame]
  obtain ⟨r, now, _ | _⟩ := (h.begun program).2.runUntil (h.deadline limit) h.clock <;> rfl

/-- **What a stage sees** of a program: its history, up to the limit. -/
theorem runProgram_history (h : Host) (program : Nat → Behaviour) (limit : Nat) :
    ∃ said s ended, Watched (h.deadline limit) (h.begun program) said s ended ∧
      (ended = true → runProgram h program limit = (s.2, s.1, true)) ∧
      (ended = false → ∃ r, runProgram h program limit = (r.abandoned, h.deadline limit, false) ∧
        (r = s.2 ∨ r = h.running ∧ s = h.begun program)) := by
  by_cases hlimit : limit = 0
  · subst hlimit
    have hnone : (h.begun program).2.isOver = false := not_isOver_of_status rfl
    refine ⟨[], h.begun program, false, .here false hnone fun _ next hnext => ?_, nofun,
      fun _ => ⟨h.running, rfl, .inr ⟨rfl, rfl⟩⟩⟩
    exact Nat.le_of_lt (Moment.lt_of_wake? hnext)
  · obtain ⟨said, t, r, ended, hrun, hwatched⟩ :=
      (h.begun program).2.runUntil_watched (h.deadline limit) h.clock
    have hprogram := runProgram_eq h program hlimit
    rw [hrun] at hprogram
    cases ended with
    | true => exact ⟨said, (t, r), true, hwatched, fun _ => hprogram, nofun⟩
    | false => exact ⟨said, (t, r), false, hwatched, nofun, fun _ => ⟨r, hprogram, .inl rfl⟩⟩

end Stage

/-! ## The end -/

namespace Process

@[simp] theorem Run.tree_exchange (r : Run) (old new : List Port) :
    (r.exchange old new).world.tree = r.world.tree := by
  rw [Run.exchange_eq]

theorem Run.tree_abandoned (r : Run) : r.abandoned.world.tree = r.world.tree := by
  unfold Run.abandoned Run.killLaunched
  split
  · rw [Run.bury_eq]
    exact Run.tree_exchange _ _ _
  · rfl

/-- A thread whose captured streams have lost their reader. -/
def Thread.deafened (t : Thread) : Thread :=
  { t with ports := audible true t.ports, unheard := true }

theorem Thread.IsHonest.deafened {t : Thread} (h : t.IsHonest) : t.deafened.IsHonest := by
  obtain ⟨full, hports, hcode⟩ := h
  refine ⟨full, ?_, hcode⟩
  rw [Thread.deafened, hports]
  exact Run.audible_audible t.unheard full

/-- Nobody reads what those write that are left, and the launched process is not among them. -/
theorem Run.threads_abandoned (r : Run) :
    r.abandoned.threads = (r.threads.map Thread.deafened).filter (·.process ≠ r.launched) := by
  unfold Run.abandoned Run.killLaunched
  have hthreads : r.abandonStreams.threads = r.threads.map Thread.deafened := rfl
  have hlaunched : r.abandonStreams.launched = r.launched := rfl
  cases hfind : r.abandonStreams.threads.find? (·.process = r.abandonStreams.launched) with
  | some thread =>
    have hprocess : thread.process = r.launched := by
      simpa [hlaunched] using List.find?_some hfind
    dsimp only
    rw [Run.bury_eq, Run.others, hprocess, hthreads]
  | none =>
    rw [List.find?_eq_none, hlaunched, hthreads] at hfind
    dsimp only
    rw [hthreads]
    exact (List.filter_eq_self.2 fun t ht => by simpa using hfind t ht).symm

theorem Run.nextProcess_abandoned (r : Run) :
    r.abandoned.world.system.nextProcess = r.world.system.nextProcess := by
  unfold Run.abandoned Run.killLaunched
  split
  · rw [Run.bury_eq, Run.exchange_eq]
    rfl
  · rfl

theorem Run.capture_abandoned (r : Run) : r.abandoned.capture = r.capture := by
  unfold Run.abandoned Run.killLaunched
  split
  next thread hfind =>
    -- a stream that lost its reader is not given up, so that no unfinished line is passed on
    obtain ⟨t, -, rfl⟩ := List.mem_map.1 (List.mem_of_find?_eq_some hfind)
    have hkept (c : Capture) (channel : Channel) :
        r.abandonStreams.flushIf (audible true t.ports) [] c channel = c := by
      unfold Run.flushIf
      rw [if_neg (by simp [Run.captured_not_mem_audible])]
    rw [Run.bury_eq, Run.exchange_eq]
    dsimp only
    rw [hkept, hkept]
    rfl
  · rfl

end Process

/-! ## The run of a command -/

namespace Stage

/-- What a stage says that stops at a moment. -/
def textAt (s : Moment) : String :=
  Utf8.decodeLossy s.2.capture.merged

/-- What a stage leaves of a host that stops at the moment `s`, when the tool is over, or else when
the limit is reached. -/
structure Left (h : Host) (program : Nat → Behaviour) (s : Moment) (ended : Bool) (h' : Host) :
    Prop where
  files : h'.files = s.2.world.tree
  cwd : h'.cwd = h.cwd
  launch : h'.launch = h.launch
  finished : ended = true → h'.leftovers = s.2.threads ∧ h'.system = s.2.world.system
  abandoned : ended = false → ∃ r, (r = s.2 ∨ r = h.running ∧ s = h.begun program) ∧
    h'.leftovers = r.abandoned.threads ∧ h'.system = r.abandoned.world.system

/-- The host after a run of a command. -/
def after (h : Host) (c : Command) (r : Run) (now : Nat) : Host :=
  { h.note (.called c) with
    files := r.world.tree, system := r.world.system, clock := now, leftovers := r.threads }

section
variable {h : Host} {c : Command} {workdir : String} {program : Nat → Behaviour} {limit : Nat}
  {r : Run} {now : Nat}

theorem run_eq (hlaunch : h.launch h.files h.cwd workdir c.program c.args = .ok program)
    (limit : Nat) :
    c.run workdir limit h = match runProgram h program limit with
      | (r, now, true) => c.conclude r.status (Utf8.decodeLossy r.capture.merged)
          ((now - h.clock) / 1000) (after h c r now)
      | (r, now, false) =>
        .error (c.fail (.timeout limit) (Utf8.decodeLossy r.capture.merged)) (after h c r now) := by
  have hnoted : (h.note (.called c)).launch (h.note (.called c)).files (h.note (.called c)).cwd
      workdir c.program c.args = .ok program := hlaunch
  have hsame : runProgram (h.note (.called c)) program limit = runProgram h program limit := rfl
  simp only [Command.run, hnoted, hsame]
  obtain ⟨r, now, _ | _⟩ := runProgram h program limit <;> rfl

/-- **What a command gives** whose program was started. -/
theorem run_history (hlaunch : h.launch h.files h.cwd workdir c.program c.args = .ok program)
    (limit : Nat) :
    ∃ said s ended h', Watched (h.deadline limit) (h.begun program) said s ended ∧
      Left h program s ended h' ∧
      (ended = true → c.run workdir limit h =
        c.conclude s.2.status (textAt s) ((s.1 - h.clock) / 1000) h') ∧
      (ended = false → c.run workdir limit h = .error (c.fail (.timeout limit) (textAt s)) h') := by
  obtain ⟨said, s, ended, hwatched, hover, hnot⟩ := runProgram_history h program limit
  cases ended with
  | true =>
    refine ⟨said, s, true, after h c s.2 s.1, hwatched,
      ⟨rfl, rfl, rfl, fun _ => ⟨rfl, rfl⟩, nofun⟩, fun _ => ?_, nofun⟩
    rw [run_eq hlaunch, hover rfl]
    rfl
  | false =>
    obtain ⟨r, hrun, hr⟩ := hnot rfl
    have htree : r.abandoned.world.tree = s.2.world.tree := by
      rw [Run.tree_abandoned]
      rcases hr with rfl | ⟨rfl, rfl⟩ <;> rfl
    have hcapture : r.abandoned.capture = s.2.capture := by
      rw [Run.capture_abandoned]
      rcases hr with rfl | ⟨rfl, rfl⟩ <;> rfl
    refine ⟨said, s, false, after h c r.abandoned (h.deadline limit), hwatched,
      ⟨htree, rfl, rfl, nofun, fun _ => ⟨r, hr, rfl, rfl⟩⟩, nofun, fun _ => ?_⟩
    rw [run_eq hlaunch, hrun, textAt, ← hcapture]

end

end Stage

/-! ## Order -/

/-- What earlier stages have left is in order: processes have numbers of their own, they are honest,
and nobody reads what they write. -/
structure Host.Orderly (h : Host) : Prop where
  distinct : (h.leftovers.map (·.process)).Nodup
  below : ∀ t ∈ h.leftovers, t.process < h.system.nextProcess
  honest : ∀ t ∈ h.leftovers, t.IsHonest
  unread : ∀ t ∈ h.leftovers, ∀ channel, .captured channel ∉ t.ports

theorem Host.orderly_of_nil {h : Host} (hleft : h.leftovers = []) : h.Orderly := by
  refine ⟨?_, ?_, ?_, ?_⟩ <;> simp [hleft]

namespace Host.Orderly

variable {h : Host} {program : Nat → Behaviour}

/-- **A stage** begins in order, and nothing was heard before. -/
theorem begun (hh : h.Orderly) (hprogram : ∀ n, (program n).IsHonest bothStreams) :
    (h.begun program).2.Orderly ∧ (h.begun program).2.Heard [] := by
  have hthreads : (h.begun program).2.threads =
      h.leftovers ++ [h.running.bornThread program bothStreams false] := rfl
  have hheld : (h.begun program).2.world.held =
      bothStreams ++ h.leftovers.flatMap (·.ports) := rfl
  refine ⟨{ distinct := ?_, below := ?_, launched := Nat.lt_succ_self _, living := ?_,
            held := ?_, honest := ?_ }, fun channel => ⟨fun _ => Capture.follows_empty channel,
            fun hnot => absurd ?_ hnot⟩⟩
  · exact hthreads ▸ Run.nodup_snoc hh.distinct hh.below
  · exact hthreads ▸ Run.below_snoc hh.below rfl
  · refine ⟨fun _ => ⟨h.running.bornThread program bothStreams false, ?_, rfl⟩, fun _ => rfl⟩
    rw [hthreads]
    exact List.mem_append_right _ List.mem_cons_self
  · rw [hthreads, hheld, List.flatMap_append, List.flatMap_singleton]
    exact List.perm_append_comm
  · intro t ht
    rcases List.mem_append.1 (hthreads ▸ ht) with ht | ht
    · exact hh.honest t ht
    · rw [List.mem_singleton.1 ht]
      exact ⟨bothStreams, rfl, (hprogram _).andThen fun _ _ => trivial⟩
  · rw [World.Holds, hheld]
    cases channel <;> simp [bothStreams]

theorem deaf_of_isOver {r : Run} (hr : r.Orderly) (hover : r.isOver = true) {t : Thread}
    (ht : t ∈ r.threads) (channel : Channel) : .captured channel ∉ t.ports := by
  intro hmem
  refine (isOver_iff.1 hover).2 channel ?_
  rw [World.Holds, hr.held.mem_iff, List.mem_flatMap]
  exact ⟨t, ht, hmem⟩

/-- Nobody reads what those write that were abandoned. -/
theorem abandoned {r : Run} {h' : Host} (hdistinct : (r.threads.map (·.process)).Nodup)
    (hbelow : ∀ t ∈ r.threads, t.process < r.world.system.nextProcess)
    (hhonest : ∀ t ∈ r.threads, t.IsHonest) (hleft : h'.leftovers = r.abandoned.threads)
    (hsystem : h'.system = r.abandoned.world.system) : h'.Orderly := by
  rw [Run.threads_abandoned] at hleft
  have hmem {t : Thread} (ht : t ∈ h'.leftovers) : ∃ t' ∈ r.threads, t = t'.deafened := by
    obtain ⟨t', ht', rfl⟩ := List.mem_map.1 (List.mem_filter.1 (hleft ▸ ht)).1
    exact ⟨t', ht', rfl⟩
  refine ⟨?_, fun t ht => ?_, fun t ht => ?_, fun t ht channel => ?_⟩
  · rw [hleft]
    refine (List.filter_sublist.map _).nodup ?_
    rwa [List.map_map]
  all_goals obtain ⟨t', ht', rfl⟩ := hmem ht
  · rw [hsystem, Run.nextProcess_abandoned]
    exact hbelow t' ht'
  · exact (hhonest t' ht').deafened
  · exact Run.captured_not_mem_audible _ channel

/-- **A stage** leaves order. -/
theorem left (hh : h.Orderly) (hprogram : ∀ n, (program n).IsHonest bothStreams) {limit : Nat}
    {said : List (Channel × Bytes)} {s : Moment} {ended : Bool} {h' : Host}
    (hwatched : Watched (h.deadline limit) (h.begun program) said s ended)
    (hleft : Stage.Left h program s ended h') : h'.Orderly := by
  have hs := ((hh.begun hprogram).1.elapses hwatched.elapses []).orderly
  cases ended with
  | true =>
    obtain ⟨hthreads, hsystem⟩ := hleft.finished rfl
    refine ⟨hthreads ▸ hs.distinct, hthreads ▸ hsystem ▸ hs.below, hthreads ▸ hs.honest, ?_⟩
    exact hthreads ▸ fun t ht => deaf_of_isOver hs hwatched.isOver ht
  | false =>
    obtain ⟨r, rfl | ⟨rfl, -⟩, hthreads, hsystem⟩ := hleft.abandoned rfl
    · exact abandoned hs.distinct hs.below hs.honest hthreads hsystem
    · exact abandoned hh.distinct hh.below hh.honest hthreads hsystem

end Host.Orderly

end LangBundle
