import LangBundle.Process.Schedule

/-!
# The history of a run

Processes that nobody disturbs go through a history: time goes on from one moment at which some of
them can take a step to the next, and in each they have their turns.  Whoever waits for them until a
deadline sees the part of this history before it.

* `Behaviour.writes`, `Run.roundWrites`: **what is written** to the captured streams.
* `Elapses`: what comes about by the passing of time, and what is written meanwhile.
* `Elapses.total`: there is **one history** only.
* `Moment.firsts`: how it begins, to be computed.
* `Watched`: where somebody stops who waits for the end until a deadline.
* `runUntil_watched`: **waiting** changes nothing about the history.
* `EndsAt`: the moment at which the launched process ends.
-/

namespace LangBundle.Process

/-! ## What is written -/

/-- What a process writes to the captured streams until it waits, ends or has taken `left` steps, one
piece after the other. -/
def Behaviour.writes (process : Nat) (unheard : Bool) :
    Behaviour → (left : Nat) → List Port → Run → List (Channel × Bytes)
  | .done _, _, _, _ | .sleep _ _, _, _, _ | .act _ _, 0, _, _ => []
  | .emit channel data next, left, ports, r =>
    if unheard then []
    else (channel, data) ::
      next.writes process unheard left ports { r with capture := r.capture.feed channel data }
  | .hold new next, left, ports, r =>
    let new := audible unheard new
    next.writes process unheard left new (r.exchange ports new)
  | .act change next, left + 1, ports, r =>
    let seen := r.world
    let r := { r with world := change seen }
    match r.world.doomOf? process with
    | some _ => []
    | none =>
      if r.world.isStopped process then []
      else (next seen).writes process unheard left ports r
  | .await isReady next, left, ports, r =>
    if isReady r.world then next.writes process unheard left ports r else []
  | .fork child next, left, ports, r =>
    let number := r.world.system.nextProcess
    (next number).writes process unheard left ports (r.spawn process child ports unheard)

/-- How many steps a process takes in a turn at most. -/
def Thread.steps (thread : Thread) : Nat :=
  if patience ≤ thread.spent then 1 else share

namespace Run

/-- What a process writes in its turn. -/
def turnWrites (r : Run) (process : Nat) : List (Channel × Bytes) :=
  match r.threads.find? (·.process = process) with
  | none => []
  | some thread =>
    if !r.isReady thread then []
    else thread.code.writes process thread.unheard thread.steps thread.ports r

/-- What processes write that have their turns one after the other. -/
def turnsWrites : List Nat → Run → List (Channel × Bytes)
  | [], _ => []
  | process :: rest, r => r.turnWrites process ++ turnsWrites rest (r.turn process)

/-- What is written in a round. -/
def roundWrites (r : Run) : List (Channel × Bytes) :=
  turnsWrites (r.threads.map (·.process)) r

end Run

/-! ## The passing of time -/

/-- A run at a moment. -/
abbrev Moment := Nat × Run

/-- The next moment at which a process can take a step. -/
def Moment.wake? (s : Moment) : Option Moment :=
  (s.2.nextTime? s.1).map fun next =>
    let next := max next (s.1 + 1)
    (next, { s.2 with world := { s.2.world with clock := next } })

/-- By the passing of time one moment comes about behind another one, and `said` is written meanwhile:
at each moment that comes, every process has its turn. -/
inductive Elapses : Moment → List (Channel × Bytes) → Moment → Prop
  | here (s : Moment) : Elapses s [] s
  | on {s s' : Moment} {now : Nat} {r : Run} {said : List (Channel × Bytes)}
      (hwake : s.wake? = some (now, r)) (h : Elapses (now, r.round) said s') :
      Elapses s (r.roundWrites ++ said) s'

theorem Moment.lt_of_wake? {s s' : Moment} (h : s.wake? = some s') : s.1 < s'.1 := by
  obtain ⟨next, -, rfl⟩ := Option.map_eq_some_iff.1 h
  exact Nat.lt_of_lt_of_le (Nat.lt_succ_self s.1) (Nat.le_max_right next (s.1 + 1))

/-- Nothing but the clock has changed by then. -/
theorem Moment.eq_of_wake? {s : Moment} {now : Nat} {r : Run} (h : s.wake? = some (now, r)) :
    { s.2 with world := { s.2.world with clock := now } } = r := by
  obtain ⟨next, -, heq⟩ := Option.map_eq_some_iff.1 h
  obtain ⟨rfl, rfl⟩ := Prod.mk.inj heq
  rfl

namespace Elapses

variable {s s' s'' : Moment} {said said' : List (Channel × Bytes)}

theorem trans (h : Elapses s said s') (h' : Elapses s' said' s'') :
    Elapses s (said ++ said') s'' := by
  induction h with
  | here => exact h'
  | on hwake _ ih =>
    rw [List.append_assoc]
    exact .on hwake (ih h')

/-- Time does not go back. -/
theorem le (h : Elapses s said s') : s.1 ≤ s'.1 := by
  induction h with
  | here => exact Nat.le_refl _
  | on hwake _ ih => exact Nat.le_trans (Nat.le_of_lt (Moment.lt_of_wake? hwake)) ih

/-- Nothing happens in no time. -/
theorem eq_of_le (h : Elapses s said s') (hle : s'.1 ≤ s.1) : s' = s := by
  cases h with
  | here => rfl
  | on hwake h =>
    have hlt := Nat.lt_of_lt_of_le (Moment.lt_of_wake? hwake) h.le
    exact absurd hlt (Nat.not_lt.2 hle)

/-- There is **one history**: of two moments one comes about behind the other. -/
theorem total (h : Elapses s said s') (h' : Elapses s said' s'') :
    (∃ more, said' = said ++ more ∧ Elapses s' more s'') ∨
      ∃ more, said = said' ++ more ∧ Elapses s'' more s' := by
  induction h generalizing said' with
  | here => exact .inl ⟨said', rfl, h'⟩
  | @on s s' now r said hwake h ih =>
    cases h' with
    | here => exact .inr ⟨_, rfl, .on hwake h⟩
    | @on _ _ now' r' said' hwake' h' =>
      obtain ⟨rfl, rfl⟩ := Prod.mk.inj (Option.some.inj (hwake.symm.trans hwake'))
      obtain ⟨more, rfl, hmore⟩ | ⟨more, rfl, hmore⟩ := ih h'
      · exact .inl ⟨more, (List.append_assoc _ _ _).symm, hmore⟩
      · exact .inr ⟨more, (List.append_assoc _ _ _).symm, hmore⟩

/-- A moment that is not later comes before. -/
theorem to_later (h : Elapses s said s') (h' : Elapses s said' s'') (hle : s'.1 ≤ s''.1) :
    ∃ more, said' = said ++ more ∧ Elapses s' more s'' := by
  obtain hlater | ⟨more, rfl, hmore⟩ := h.total h'
  · exact hlater
  · cases hmore with
    | here => exact ⟨[], by simp, .here _⟩
    | on hwake hmore =>
      have hlt := Nat.lt_of_lt_of_le (Moment.lt_of_wake? hwake) hmore.le
      exact absurd hlt (Nat.not_lt.2 hle)

end Elapses

/-! ## The first moments -/

/-- The first moments of a history, the present one and at most `count` others. -/
def Moment.firsts : (count : Nat) → Moment → List Moment
  | 0, s => [s]
  | count + 1, s =>
    s :: match s.wake? with
      | none => []
      | some (now, r) => Moment.firsts count (now, r.round)

section
variable {s s' : Moment} {said : List (Channel × Bytes)} {count : Nat}

theorem Elapses.exists_of_mem_firsts (h : s' ∈ s.firsts count) : ∃ said, Elapses s said s' := by
  induction count generalizing s with
  | zero =>
    rw [Moment.firsts, List.mem_singleton] at h
    exact ⟨[], h ▸ .here s⟩
  | succ count ih =>
    rw [Moment.firsts, List.mem_cons] at h
    rcases h with rfl | h
    · exact ⟨[], .here _⟩
    · rcases hwake : s.wake? with _ | ⟨now, r⟩
      · rw [hwake] at h
        cases h
      · rw [hwake] at h
        obtain ⟨said, hs'⟩ := ih h
        exact ⟨_, .on hwake hs'⟩

/-- A moment is one of the first ones, or comes behind them all. -/
theorem Elapses.mem_firsts (h : Elapses s said s') (count : Nat) :
    s' ∈ s.firsts count ∨ ∀ first ∈ s.firsts count, first.1 < s'.1 := by
  induction count generalizing s said with
  | zero =>
    rw [Moment.firsts, List.mem_singleton]
    cases h with
    | here => exact .inl rfl
    | on hwake h =>
      refine .inr fun first hfirst => ?_
      rw [List.mem_singleton.1 hfirst]
      exact Nat.lt_of_lt_of_le (Moment.lt_of_wake? hwake) h.le
  | succ count ih =>
    rw [Moment.firsts]
    cases h with
    | here => exact .inl List.mem_cons_self
    | on hwake h =>
      rw [hwake]
      refine (ih h).imp (List.mem_cons_of_mem s) fun hall => List.forall_mem_cons.2 ⟨?_, hall⟩
      exact Nat.lt_of_lt_of_le (Moment.lt_of_wake? hwake) h.le

/-- What holds of the first moments before a deadline holds of all that come before it, if the first
ones reach it. -/
theorem Elapses.forall_of_firsts {P : Moment → Prop} {deadline : Nat}
    (hall : ∀ first ∈ s.firsts count, first.1 < deadline → P first)
    (hlong : ∃ first ∈ s.firsts count, deadline ≤ first.1) (h : Elapses s said s')
    (htime : s'.1 < deadline) : P s' := by
  rcases h.mem_firsts count with hmem | hlater
  · exact hall s' hmem htime
  · obtain ⟨last, hlast, hle⟩ := hlong
    exact absurd (Nat.lt_trans (hlater last hlast) htime) (Nat.not_lt.2 hle)

/-- If there are no more of them, then these are all. -/
theorem Elapses.mem_firsts_of_length (h : Elapses s said s')
    (hlength : (s.firsts count).length ≤ count) : s' ∈ s.firsts count := by
  induction count generalizing s said with
  | zero => exact absurd hlength (Nat.not_succ_le_zero 0)
  | succ count ih =>
    rw [Moment.firsts] at hlength ⊢
    cases h with
    | here => exact List.mem_cons_self
    | on hwake h =>
      rw [hwake] at hlength ⊢
      exact List.mem_cons_of_mem s (ih h (Nat.le_of_succ_le_succ hlength))

end

/-! ## Waiting for the end -/

/-- Where somebody stops who waits until a deadline for the launched process and the captured streams
to be over: at the first moment at which they are, or else at the last one before the deadline. -/
structure Watched (deadline : Nat) (s : Moment) (said : List (Channel × Bytes)) (s' : Moment)
    (ended : Bool) : Prop where
  elapses : Elapses s said s'
  in_time : s'.1 < deadline ∨ s' = s
  isOver : s'.2.isOver = ended
  not_before : ∀ said' s'', Elapses s said' s'' → s''.1 < s'.1 → s''.2.isOver = false
  last : ended = false → ∀ next, s'.wake? = some next → deadline ≤ next.1

theorem Run.runUntil_eq (deadline now : Nat) (r : Run) :
    r.runUntil deadline now =
      if r.isOver then (r, now, true)
      else match Moment.wake? (now, r) with
        | none => (r, deadline, false)
        | some (next, r') =>
          if next < deadline then r'.round.runUntil deadline next else (r, deadline, false) := by
  rw [Run.runUntil, Moment.wake?]
  cases r.nextTime? now <;> rfl

theorem Watched.here {deadline now : Nat} {r : Run} (ended : Bool) (hover : r.isOver = ended)
    (hlast : ended = false → ∀ next, Moment.wake? (now, r) = some next → deadline ≤ next.1) :
    Watched deadline (now, r) [] (now, r) ended where
  elapses := .here _
  in_time := .inr rfl
  isOver := hover
  not_before _ _ h hlt := absurd hlt (Nat.not_lt.2 h.le)
  last := hlast

/-- **Waiting** changes nothing about the history. -/
theorem Run.runUntil_watched (deadline now : Nat) (r : Run) :
    ∃ said t r' ended, r.runUntil deadline now = (r', if ended then t else deadline, ended) ∧
      Watched deadline (now, r) said (t, r') ended := by
  induction hleft : deadline - now using Nat.strongRecOn generalizing now r with
  | ind left ih =>
    rw [runUntil_eq]
    by_cases hover : r.isOver = true
    · rw [if_pos hover]
      exact ⟨[], now, r, true, rfl, .here true hover nofun⟩
    have hgoes : r.isOver = false := Bool.eq_false_iff.2 hover
    rw [if_neg hover]
    rcases hwake : Moment.wake? (now, r) with _ | ⟨next, r'⟩
    · exact ⟨[], now, r, false, rfl, .here false hgoes fun _ next hnext => by simp [hwake] at hnext⟩
    dsimp only
    have hlt : now < next := Moment.lt_of_wake? hwake
    by_cases htime : next < deadline
    · rw [if_pos htime]
      obtain ⟨said, t, r'', ended, hrun, hwatched⟩ :=
        ih (deadline - next) (by omega) next r'.round rfl
      refine ⟨_, t, r'', ended, hrun, .on hwake hwatched.elapses, ?_, hwatched.isOver, ?_,
        hwatched.last⟩
      · rcases hwatched.in_time with hin | heq
        · exact .inl hin
        · exact .inl (heq ▸ htime)
      · intro said' s'' h hbefore
        cases h with
        | here => exact hgoes
        | on hwake' h =>
          obtain ⟨rfl, rfl⟩ := Prod.mk.inj (Option.some.inj (hwake.symm.trans hwake'))
          exact hwatched.not_before _ _ h hbefore
    · rw [if_neg htime]
      refine ⟨[], now, r, false, rfl, .here false hgoes fun _ next' hnext => ?_⟩
      rw [hwake] at hnext
      cases hnext
      exact Nat.not_lt.1 htime

namespace Watched

variable {deadline : Nat} {s s' s'' : Moment} {said said' : List (Channel × Bytes)} {ended : Bool}

/-- What comes about before the deadline does not come behind the last moment. -/
theorem le_last (h : Watched deadline s said s' false) (h'' : Elapses s said' s'')
    (htime : s''.1 < deadline) : s''.1 ≤ s'.1 := by
  obtain ⟨more, -, hmore⟩ | ⟨more, -, hmore⟩ := h.elapses.total h''
  · cases hmore with
    | here => exact Nat.le_refl _
    | on hwake hmore =>
      have hlater := h.last rfl _ hwake
      exact absurd (Nat.lt_of_lt_of_le htime (Nat.le_trans hlater hmore.le)) (Nat.lt_irrefl _)
  · exact hmore.le

/-- They are not over before whoever waits for them stops. -/
theorem le_of_over (h : Watched deadline s said s' ended) (h'' : Elapses s said' s'')
    (hover : s''.2.isOver = true) : s'.1 ≤ s''.1 := by
  refine Nat.le_of_not_lt fun hlt => ?_
  rw [h.not_before _ _ h'' hlt] at hover
  exact absurd hover Bool.false_ne_true

/-- If they are over before the deadline, then whoever waits for that sees it. -/
theorem ended_of_over (h : Watched deadline s said s' ended) (h'' : Elapses s said' s'')
    (htime : s''.1 < deadline) (hover : s''.2.isOver = true) : ended = true := by
  rcases ended with _ | _
  · rcases Nat.lt_or_eq_of_le (h.le_last h'' htime) with hlt | heq
    · rw [h.not_before _ _ h'' hlt] at hover
      exact absurd hover Bool.false_ne_true
    · obtain ⟨more, -, hmore⟩ := h''.to_later h.elapses (Nat.le_of_eq heq)
      have hsame := hmore.eq_of_le (Nat.le_of_eq heq.symm)
      rw [← hsame, h.isOver] at hover
      exact absurd hover Bool.false_ne_true
  · rfl

end Watched

/-! ## The end of the launched process -/

/-- The launched process ends at the moment `s`. -/
structure EndsAt (s₀ s : Moment) (status : ExitStatus) : Prop where
  elapses : ∃ said, Elapses s₀ said s
  status : s.2.status = some status
  first : ∀ said' s', Elapses s₀ said' s' → s'.1 < s.1 → s'.2.status = none

theorem EndsAt.of_firsts {count : Nat} {s₀ s : Moment} {status : ExitStatus}
    (hmem : s ∈ s₀.firsts count) (hstatus : s.2.status = some status)
    (hfirst : ∀ s' ∈ s₀.firsts count, s'.1 < s.1 → s'.2.status = none) : EndsAt s₀ s status where
  elapses := Elapses.exists_of_mem_firsts hmem
  status := hstatus
  first _ s' hs' hlt := by
    rcases hs'.mem_firsts count with hmem' | hlater
    · exact hfirst s' hmem' hlt
    · exact absurd hlt (Nat.lt_asymm (hlater s hmem))

/-- By the time the launched process has ended, nobody holds a captured stream. -/
def ClosesInTime (s₀ : Moment) : Prop :=
  ∀ said s, Elapses s₀ said s → s.2.status.isSome = true → s.2.isOver = true

theorem ClosesInTime.of_firsts {count : Nat} {s₀ : Moment}
    (hlength : (s₀.firsts count).length ≤ count)
    (hall : ∀ s ∈ s₀.firsts count, s.2.status.isSome = true → s.2.isOver = true) :
    ClosesInTime s₀ :=
  fun _ s hs hsome => hall s (hs.mem_firsts_of_length hlength) hsome

section
variable {deadline : Nat} {s₀ s s' : Moment} {said : List (Channel × Bytes)} {ended : Bool}
  {status status' : ExitStatus}

/-- A process ends once. -/
theorem EndsAt.unique (h : EndsAt s₀ s status) (h' : EndsAt s₀ s' status') :
    s = s' ∧ status = status' := by
  obtain ⟨said, hs⟩ := h.elapses
  obtain ⟨said', hs'⟩ := h'.elapses
  have hclock : s.1 = s'.1 := by
    rcases Nat.lt_trichotomy s.1 s'.1 with hlt | heq | hlt
    · exact absurd ((h'.first _ _ hs hlt).symm.trans h.status) nofun
    · exact heq
    · exact absurd ((h.first _ _ hs' hlt).symm.trans h'.status) nofun
  obtain ⟨more, -, hmore⟩ := hs.to_later hs' (Nat.le_of_eq hclock)
  obtain rfl := hmore.eq_of_le (Nat.le_of_eq hclock.symm)
  exact ⟨rfl, Option.some.inj (h.status.symm.trans h'.status)⟩

theorem Run.isSome_status_of_isOver {r : Run} (h : r.isOver = true) : r.status.isSome = true := by
  rw [isOver, Bool.and_eq_true, Bool.and_eq_true] at h
  exact h.1.1

/-- The tool is not over before the launched process ends. -/
theorem EndsAt.le_of_over (h : EndsAt s₀ s status) (hs' : Elapses s₀ said s')
    (hover : s'.2.isOver = true) : s.1 ≤ s'.1 := by
  refine Nat.le_of_not_lt fun hlt => ?_
  have hsome := Run.isSome_status_of_isOver hover
  rw [h.first _ _ hs' hlt] at hsome
  exact absurd hsome Bool.false_ne_true

/-- If the streams are closed in time, then the tool is over when the launched process ends. -/
theorem Watched.endsAt (h : Watched deadline s₀ said s true) (hcloses : ClosesInTime s₀) :
    ∃ status, EndsAt s₀ s status := by
  obtain ⟨status, hstatus⟩ := Option.isSome_iff_exists.1 (Run.isSome_status_of_isOver h.isOver)
  refine ⟨status, ⟨said, h.elapses⟩, hstatus, fun said' s' hs' hlt => ?_⟩
  cases hsome : s'.2.status with
  | none => rfl
  | some status' =>
    have hover := hcloses said' s' hs' (by rw [hsome]; rfl)
    rw [h.not_before said' s' hs' hlt] at hover
    exact absurd hover Bool.false_ne_true

/-- And whoever waits for the tool to be over sees the end of the launched process. -/
theorem Watched.eq_of_endsAt (h : Watched deadline s₀ said s ended) (hcloses : ClosesInTime s₀)
    (hends : EndsAt s₀ s' status) (htime : s'.1 < deadline) : ended = true ∧ s = s' := by
  obtain ⟨said', hs'⟩ := hends.elapses
  have hover : s'.2.isOver = true := hcloses said' s' hs' (by rw [hends.status]; rfl)
  obtain rfl := h.ended_of_over hs' htime hover
  obtain ⟨status', hends'⟩ := h.endsAt hcloses
  exact ⟨rfl, (hends'.unique hends).1⟩

end

end LangBundle.Process
