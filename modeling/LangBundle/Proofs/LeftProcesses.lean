import LangBundle.Proofs.HeldStreams

/-!
# Processes that a stage leaves behind

When a stage stops it ends the launched process, if that has not ended by itself, and nothing else.
What the launched process has started goes on.

* `IsKept`: something that processes keep to, whatever they do; `IsKept.elapses`: then **all of
  them** do at all times.
* `Behaviour.IsLone`: a process that starts no other.
* `Behaviour.Clings`: a process that holds a captured stream as long as it lives, and so do all that
  it starts.
* `leaves_no_process`: **what a stage leaves behind**, and when that is nothing.
* `writes_late`: a file that appears **after the stage**.
-/

namespace LangBundle.Process

/-! ## What all processes keep to -/

/-- Something about the number of a process, whether it has lost its readers, its ports and what it
does next, that is kept whatever happens. -/
structure IsKept (K : Nat → Bool → List Port → Behaviour → Prop) : Prop where
  ended : ∀ {p u ports code}, K p u ports code → ∀ status, K p u ports (.done status)
  emit : ∀ {p ports channel data next}, K p false ports (.emit channel data next) →
    K p false ports next
  hold : ∀ {p u ports new next}, K p u ports (.hold new next) → K p u (audible u new) next
  act : ∀ {p u ports change next}, K p u ports (.act change next) → ∀ w, K p u ports (next w)
  await : ∀ {p u ports isReady next}, K p u ports (.await isReady next) → K p u ports next
  sleep : ∀ {p u ports time next}, K p u ports (.sleep time next) → K p u ports next
  fork : ∀ {p u ports child next}, K p u ports (.fork child next) →
    (∀ n, K n u ports (.sleep birthTime ((child n).andThen farewell))) ∧ ∀ n, K p u ports (next n)

/-- A thread keeps to something. -/
def Thread.Keeps (K : Nat → Bool → List Port → Behaviour → Prop) (t : Thread) : Prop :=
  K t.process t.unheard t.ports t.code

namespace IsKept

variable {K : Nat → Bool → List Port → Behaviour → Prop} (hK : IsKept K)
include hK

/-- **What a process does** in its turn. -/
theorem advance {process : Nat} {unheard : Bool} {ports : List Port} {r : Run} {code : Behaviour}
    (hcode : K process unheard ports code) (left : Nat) (hr : ∀ t ∈ r.threads, t.Keeps K) :
    let slice := code.advance process unheard left ports r
    (∀ t ∈ slice.run.threads, t.Keeps K) ∧
      ∀ wait code, slice.pause = .waiting wait code → K process unheard slice.ports code := by
  induction code generalizing left ports r with
  | done status => exact ⟨hr, fun _ _ heq => by cases heq⟩
  | sleep time next =>
    refine ⟨hr, fun wait code heq => ?_⟩
    cases heq
    exact hK.sleep hcode
  | emit channel data next ih =>
    cases unheard with
    | true => exact ⟨hr, fun _ _ heq => by cases heq⟩
    | false => exact ih (hK.emit hcode) left hr
  | hold new next ih =>
    refine ih (hK.hold hcode) left ?_
    rw [Run.exchange_eq]
    exact hr
  | act change next ih =>
    cases left with
    | zero =>
      refine ⟨hr, fun wait code heq => ?_⟩
      cases heq
      exact hcode
    | succ left =>
      have hnext := hK.act hcode r.world
      unfold Behaviour.advance
      dsimp only
      rcases (change r.world).doomOf? process with _ | number
      · dsimp only
        split
        · refine ⟨hr, fun wait code heq => ?_⟩
          cases heq
          exact hnext
        · exact ih _ hnext left hr
      · exact ⟨hr, fun _ _ heq => by cases heq⟩
  | await isReady next ih =>
    unfold Behaviour.advance
    split
    · exact ih (hK.await hcode) left hr
    · refine ⟨hr, fun wait code heq => ?_⟩
      cases heq
      exact hK.await hcode
  | fork child next _ ih =>
    obtain ⟨hchild, hnext⟩ := hK.fork hcode
    refine ih _ (hnext _) left fun t ht => ?_
    rcases List.mem_append.1 ht with ht | ht
    · exact hr t ht
    · rw [List.mem_singleton.1 ht]
      exact hchild _

theorem dismissDoomed {r : Run} (hr : ∀ t ∈ r.threads, t.Keeps K) :
    ∀ t ∈ r.dismissDoomed.threads, t.Keeps K := by
  intro t ht
  obtain ⟨t', ht', rfl⟩ := List.mem_map.1 ht
  show (r.dismissed t').Keeps K
  rcases r.dismissed_cases t' with heq | ⟨wait, status, heq⟩ <;> rw [heq]
  · exact hr t' ht'
  · exact hK.ended (hr t' ht') status

/-- **A turn**. -/
theorem turn {r : Run} (hr : ∀ t ∈ r.threads, t.Keeps K) (process : Nat) :
    ∀ t ∈ (r.turn process).threads, t.Keeps K := by
  rw [Run.turn_eq]
  cases hfind : r.threads.find? (·.process = process) with
  | none => exact hr
  | some thread =>
    have hprocess : thread.process = process := by simpa using List.find?_some hfind
    subst hprocess
    dsimp only
    split
    · exact hr
    refine hK.dismissDoomed ?_
    obtain ⟨hthreads, hpause⟩ :=
      hK.advance (hr thread (List.mem_of_find?_eq_some hfind)) thread.steps hr
    unfold Run.settled
    cases hslice : (thread.code.advance thread.process thread.unheard thread.steps thread.ports
      r).pause with
    | ended status =>
      dsimp only
      rw [Run.bury_eq]
      exact fun t ht => hthreads t (List.mem_filter.1 ht).1
    | waiting wait code =>
      intro t ht
      obtain ⟨t', ht', rfl⟩ := List.mem_map.1 ht
      by_cases hsame : t'.process = thread.process
      · rw [if_pos hsame]
        exact hpause wait code hslice
      · rw [if_neg hsame]
        exact hthreads t' ht'

/-- **A round**. -/
theorem round {r : Run} (hr : ∀ t ∈ r.threads, t.Keeps K) : ∀ t ∈ r.round.threads, t.Keeps K := by
  unfold Run.round
  generalize r.threads.map (·.process) = processes
  induction processes generalizing r with
  | nil => exact hr
  | cons process processes ih => exact ih (hK.turn hr process)

/-- **The passing of time**. -/
theorem elapses {s s' : Moment} {said : List (Channel × Bytes)} (h : Elapses s said s')
    (hs : ∀ t ∈ s.2.threads, t.Keeps K) : ∀ t ∈ s'.2.threads, t.Keeps K := by
  induction h with
  | here => exact hs
  | on hwake _ ih =>
    obtain rfl := Moment.eq_of_wake? hwake
    exact ih (hK.round hs)

end IsKept

/-! ## Processes that start no other, and processes that cling -/

/-- A process that starts no other. -/
def Behaviour.IsLone : Behaviour → Prop
  | .done _ => True
  | .emit _ _ next | .hold _ next | .await _ next | .sleep _ next => next.IsLone
  | .act _ next => ∀ w, (next w).IsLone
  | .fork _ _ => False

/-- A process that holds a captured stream as long as it lives, and so do those that it starts. -/
def Behaviour.Clings : Behaviour → Prop
  | .done _ => True
  | .emit _ _ next | .await _ next | .sleep _ next => next.Clings
  | .hold new next => (∃ channel, .captured channel ∈ new) ∧ next.Clings
  | .act _ next => ∀ w, (next w).Clings
  | .fork child next => (∀ n, (child n).Clings) ∧ ∀ n, (next n).Clings

theorem Behaviour.IsLone.andThen_farewell {b : Behaviour} (h : b.IsLone) :
    (b.andThen farewell).IsLone := by
  induction b with
  | done => trivial
  | emit channel data next ih => exact ih h
  | hold new next ih => exact ih h
  | act change next ih => exact fun w => ih w (h w)
  | await isReady next ih => exact ih h
  | sleep time next ih => exact ih h
  | fork child next => exact h.elim

theorem Behaviour.Clings.andThen_farewell {b : Behaviour} (h : b.Clings) :
    (b.andThen farewell).Clings := by
  induction b with
  | done => trivial
  | emit channel data next ih => exact ih h
  | hold new next ih => exact ⟨h.1, ih h.2⟩
  | act change next ih => exact fun w => ih w (h w)
  | await isReady next ih => exact ih h
  | sleep time next ih => exact ih h
  | fork child next _ ih => exact ⟨h.1, fun n => ih n (h.2 n)⟩

theorem isKept_lone (number : Nat) :
    IsKept fun p _ _ code => p = number ∧ code.IsLone where
  ended h _ := ⟨h.1, trivial⟩
  emit h := h
  hold h := h
  act h w := ⟨h.1, h.2 w⟩
  await h := h
  sleep h := h
  fork h := h.2.elim

theorem isKept_clings :
    IsKept fun _ u ports code => u = false ∧ (∃ channel, .captured channel ∈ ports) ∧ code.Clings where
  ended h _ := ⟨h.1, h.2.1, trivial⟩
  emit h := h
  hold h := ⟨h.1, h.1 ▸ h.2.2.1, h.2.2.2⟩
  act h w := ⟨h.1, h.2.1, h.2.2 w⟩
  await h := h
  sleep h := h
  fork h := ⟨fun n => ⟨h.1, h.2.1, (h.2.2.1 n).andThen_farewell⟩, fun n => ⟨h.1, h.2.1, h.2.2.2 n⟩⟩

end LangBundle.Process

namespace LangBundle.Stage

open Process

/-! ## What a stage leaves behind -/

section
variable {h h' : Host} {program : Nat → Behaviour} {limit : Nat} {s : Moment} {ended : Bool}
  {said : List (Channel × Bytes)}

/-- Where nothing ran before, exactly that is left which is there beside the launched process when
the stage stops. -/
theorem Left.leftovers_eq_nil_iff (hleft : Left h program s ended h') (hnone : h.leftovers = [])
    (hs : s.2.Orderly) (hover : s.2.isOver = ended) :
    h'.leftovers = [] ↔ ∀ t ∈ s.2.threads, t.process = s.2.launched := by
  cases ended with
  | true =>
    rw [(hleft.finished rfl).1]
    constructor
    · intro hnil
      simp [hnil]
    · intro hall
      have hgone : ¬ ∃ t ∈ s.2.threads, t.process = s.2.launched := by
        rw [← hs.living]
        intro hstatus
        rw [not_isOver_of_status hstatus] at hover
        exact absurd hover Bool.false_ne_true
      exact List.eq_nil_iff_forall_not_mem.2 fun t ht => hgone ⟨t, ht, hall t ht⟩
  | false =>
    obtain ⟨r, rfl | ⟨rfl, rfl⟩, hthreads, -⟩ := hleft.abandoned rfl
    · rw [hthreads, Run.threads_abandoned, List.filter_eq_nil_iff, List.forall_mem_map]
      refine forall_congr' fun t => imp_congr_right fun _ => ?_
      rw [decide_eq_true_eq, Decidable.not_not]
      rfl
    · have hthreads' : h'.leftovers = [] := by
        rw [hthreads, Run.threads_abandoned]
        simp [Host.running, hnone]
      have hborn : (h.begun program).2.threads =
          [h.running.bornThread program bothStreams false] := by
        rw [show (h.begun program).2.threads = h.leftovers ++
          [h.running.bornThread program bothStreams false] from rfl, hnone, List.nil_append]
      simp only [hthreads', hborn, List.mem_singleton, forall_eq, true_iff]
      rfl

/-- What all that a program starts keeps to, where nothing ran before. -/
theorem keeps_of_begun {K : Nat → Bool → List Port → Behaviour → Prop} (hnone : h.leftovers = [])
    (hprogram : K h.system.nextProcess false bothStreams
      (.sleep birthTime ((program h.system.nextProcess).andThen farewell)))
    (hK : IsKept K) (hs : Elapses (h.begun program) said s) : ∀ t ∈ s.2.threads, t.Keeps K := by
  refine hK.elapses hs fun t ht => ?_
  have hborn : t ∈ h.leftovers ++ [h.running.bornThread program bothStreams false] := ht
  rw [hnone, List.nil_append, List.mem_singleton] at hborn
  rw [hborn]
  exact hprogram

/-- **What a stage leaves behind**, where nothing ran before: exactly what its tool has started and
is there when it stops.  That is nothing if the tool starts no process, however the stage ends; and it
is nothing as well if the stage does not run too long, and all that the tool starts hold a captured
stream as long as they live. -/
theorem leaves_no_process (hnone : h.leftovers = []) {c : Command} {workdir : String}
    (hlaunch : launched h c workdir = .ok program)
    (hprogram : ∀ n, (program n).IsHonest bothStreams) (limit : Nat) :
    ∃ said s ended failure text h', Watched (h.deadline limit) (h.begun program) said s ended ∧
      Ended c failure text h' (c.run workdir limit h) ∧
      (h'.leftovers = [] ↔ ∀ t ∈ s.2.threads, t.process = s.2.launched) ∧
      ((∀ n, (program n).IsLone) → h'.leftovers = []) ∧
      ((∀ n, (program n).Clings) → failure ≠ some (.timeout limit) → h'.leftovers = []) := by
  obtain ⟨said, s, ended, failure, h', hwatched, hleft, hended, htimeout, -⟩ :=
    run_ended hlaunch limit
  have hbegun := (Host.orderly_of_nil hnone).begun hprogram
  have hkept := hbegun.1.elapses hwatched.elapses []
  have hiff := hleft.leftovers_eq_nil_iff hnone hkept.orderly hwatched.isOver
  refine ⟨said, s, ended, failure, textAt s, h', hwatched, hended, hiff, fun hlone => ?_,
    fun hclings hne => ?_⟩
  · refine hiff.2 fun t ht => ?_
    have hkeeps := keeps_of_begun hnone ⟨rfl, (hlone _).andThen_farewell⟩ (isKept_lone _)
      hwatched.elapses t ht
    exact hkeeps.1.trans hkept.develops.launched.symm
  · have hover : s.2.isOver = true := by
      rw [hwatched.isOver, Bool.of_not_eq_false fun hnot => hne (htimeout.2 hnot)]
    refine hiff.2 fun t ht => ?_
    have hkeeps := keeps_of_begun hnone
      ⟨rfl, ⟨.out, by simp [bothStreams]⟩, (hclings _).andThen_farewell⟩ isKept_clings
      hwatched.elapses t ht
    obtain ⟨channel, hholds⟩ := hkeeps.2.1
    exact absurd hholds (Host.Orderly.deaf_of_isOver hkept.orderly hover ht channel)

end

theorem leaves_no_process_of_lone :
    (sloppyHost.leftovers = [] ∧ launched sloppyHost plainCommand "/" =
        .ok (fun _ => leaving ["a"] (.exited 0)) ∧
      (leaving ["a"] (.exited 0)).IsHonest bothStreams ∧ (leaving ["a"] (.exited 0)).IsLone) ∧
    ∃ failure text h', Ended plainCommand failure text h' (plainCommand.run "/" 1 sloppyHost) ∧
      h'.leftovers = [] := by
  have hhonest : (leaving ["a"] (.exited 0)).IsHonest bothStreams :=
    ⟨⟨fun _ => rfl, fun _ => rfl⟩, fun _ => trivial⟩
  have hlone : (leaving ["a"] (.exited 0)).IsLone := fun _ => trivial
  have hlaunch : launched sloppyHost plainCommand "/" =
      .ok (fun _ => leaving ["a"] (.exited 0)) := rfl
  obtain ⟨-, -, -, failure, text, h', -, hended, -, hnothing, -⟩ :=
    leaves_no_process (h := sloppyHost) rfl hlaunch (fun _ => hhonest) 1
  exact ⟨⟨rfl, hlaunch, hhonest, hlone⟩, failure, text, h', hended, hnothing fun _ => hlone⟩

/-! ## A tool that leaves a process behind that writes later -/

/-- How a command ends whose tool is over in time, and what it leaves. -/
def ranOn (h : Host) (c : Command) (program : Nat → Behaviour) (limit : Nat) :
    Option (ExitStatus × Host) :=
  match runProgram h program limit with
  | (r, now, true) => r.status.map fun status => (status, after h c r now)
  | _ => none

theorem ended_of_ranOn {h h' : Host} {c : Command} {workdir : String} {program : Nat → Behaviour}
    {limit : Nat} {status : ExitStatus} (hlaunch : launched h c workdir = .ok program)
    (hran : ranOn h c program limit = some (status, h')) :
    h'.launch = h.launch ∧
      ∃ text, Ended c (failureAfter c status h') text h' (c.run workdir limit h) := by
  unfold ranOn at hran
  split at hran
  next r now hrun =>
    obtain ⟨status', hstatus, heq⟩ := Option.map_eq_some_iff.1 hran
    obtain ⟨rfl, rfl⟩ := Prod.mk.inj heq
    refine ⟨rfl, Utf8.decodeLossy r.capture.merged, ?_⟩
    rw [run_eq hlaunch, hrun]
    dsimp only
    rw [hstatus]
    exact conclude_ended c status' _ _ _
  · cases hran

/-- A tool that starts a process, which gives up both streams, and leaves a file after a while; the
launched process ends at once. -/
def detaching : Behaviour :=
  .fork (fun _ => .hold [] (.sleep 500 (leaving ["late"] (.exited 0)))) fun _ => .done (.exited 0)

/-- A tool that takes its time and writes nothing. -/
def idling : Behaviour :=
  .sleep 2000 (.done (.exited 0))

/-- The command of a tool that is only called. -/
def bareCommand (s : Stage) (program : String) : Command :=
  ⟨s, program, [], []⟩

/-- The host of both tools. -/
def detachingHost : Host :=
  { launch := fun _ _ _ program _ => .ok fun _ => if program = "detach" then detaching else idling }

/-- A file that appears **after the stage** is over whose tool has started the process that writes it,
while the tool of the next stage runs, which writes nothing. -/
theorem writes_late :
    ∃ o h₁, (bareCommand .grammar "detach").run "/" 10 detachingHost = .ok o h₁ ∧
      h₁.leftovers ≠ [] ∧ h₁.files.get? ["late"] = none ∧
      launched h₁ (bareCommand .lexer "idle") "/" = .ok (fun _ => idling) ∧
      ∃ o h₂, (bareCommand .lexer "idle").run "/" 10 h₁ = .ok o h₂ ∧
        (h₂.files.get? ["late"]).isSome = true := by
  have hruns : ((ranOn detachingHost (bareCommand .grammar "detach") (fun _ => detaching) 10).bind
      fun first => (ranOn first.2 (bareCommand .lexer "idle") (fun _ => idling) 10).map
        fun second => ((first.1, first.2.leftovers.isEmpty, first.2.files.get? ["late"]),
          second.1, (second.2.files.get? ["late"]).isSome)) =
      some ((.exited 0, false, none), .exited 0, true) := by
    decide +kernel
  obtain ⟨⟨status, h₁⟩, hran, hrest⟩ := Option.bind_eq_some_iff.1 hruns
  obtain ⟨⟨status', h₂⟩, hran', heq⟩ := Option.map_eq_some_iff.1 hrest
  simp only [Prod.mk.injEq] at heq
  obtain ⟨⟨rfl, hleft, hnone⟩, rfl, hlate⟩ := heq
  have hlaunch : launched detachingHost (bareCommand .grammar "detach") "/" =
      .ok (fun _ => detaching) := rfl
  obtain ⟨hsame, text, o, hok⟩ := ended_of_ranOn hlaunch hran
  have hlaunch' : launched h₁ (bareCommand .lexer "idle") "/" = .ok (fun _ => idling) := by
    rw [launched, hsame]
    rfl
  obtain ⟨-, text', o', hok'⟩ := ended_of_ranOn hlaunch' hran'
  refine ⟨_, h₁, hok, ?_, hnone, hlaunch', _, h₂, hok', hlate⟩
  exact fun hnil => by simp [hnil] at hleft

end LangBundle.Stage
