import LangBundle.Proofs.Histories
import LangBundle.Proofs.MergedLines

/-!
# Process trees

A tool may start processes, which may start others, and all of them hold what they were started with
until they give it up.  A process writes only to a captured stream that it holds, and nobody comes by
a stream that he did not hold.

* `Behaviour.IsHonest`: what a process does keeps to this.
* `Run.Orderly`: processes have numbers of their own, the ports that are held are those of the
  processes, and the launched one is there as long as it has not ended.
* `Run.Heard`: what was captured are the lines of what was written.
* `Run.Develops`: what changes in one direction only.
* `Run.Amid.advance`, `Run.Orderly.turn`: **a turn** keeps all this.
* `Run.Orderly.elapses`: **the passing of time** keeps all this.
-/

namespace LangBundle.Process

/-! ## Honest processes -/

/-- A change that leaves alone which ports are held and how processes are numbered. -/
structure IsTame (change : World → World) : Prop where
  held : ∀ w, (change w).held = w.held
  nextProcess : ∀ w, (change w).system.nextProcess = w.system.nextProcess

/-- A process that holds some ports writes only to captured streams that it holds, and comes by no
captured stream that it does not hold; nor do those that it starts. -/
def Behaviour.IsHonest : Behaviour → List Port → Prop
  | .done _, _ => True
  | .emit channel _ next, ports => .captured channel ∈ ports ∧ next.IsHonest ports
  | .hold new next, ports =>
    (∀ channel, .captured channel ∈ new → .captured channel ∈ ports) ∧ next.IsHonest new
  | .act change next, ports => IsTame change ∧ ∀ w, (next w).IsHonest ports
  | .await _ next, ports => next.IsHonest ports
  | .sleep _ next, ports => next.IsHonest ports
  | .fork child next, ports => (∀ n, (child n).IsHonest ports) ∧ ∀ n, (next n).IsHonest ports

theorem Behaviour.IsHonest.andThen {b : Behaviour} {next : ExitStatus → Behaviour} {ports : List Port}
    (h : b.IsHonest ports) (hnext : ∀ status ports, (next status).IsHonest ports) :
    (b.andThen next).IsHonest ports := by
  induction b generalizing ports with
  | done status => exact hnext status ports
  | emit channel data rest ih => exact ⟨h.1, ih h.2⟩
  | hold new rest ih => exact ⟨h.1, ih h.2⟩
  | act change rest ih => exact ⟨h.1, fun w => ih w (h.2 w)⟩
  | await isReady rest ih => exact ih h
  | sleep time rest ih => exact ih h
  | fork child rest _ ih => exact ⟨h.1, fun n => ih n (h.2 n)⟩

/-- What a thread does is honest for the ports that it would hold if it were heard. -/
def Thread.IsHonest (t : Thread) : Prop :=
  ∃ full, t.ports = audible t.unheard full ∧ t.code.IsHonest full

/-! ## What is known of a run -/

/-- Whether a captured stream is held. -/
def World.Holds (w : World) (channel : Channel) : Prop :=
  .captured channel ∈ w.held

/-- What was written to a captured stream. -/
def streamOf (said : List (Channel × Bytes)) (channel : Channel) : Bytes :=
  (said.filter (·.1 = channel)).flatMap (·.2)

@[simp] theorem streamOf_append (said more : List (Channel × Bytes)) (channel : Channel) :
    streamOf (said ++ more) channel = streamOf said channel ++ streamOf more channel := by
  simp [streamOf]

theorem streamOf_self (channel : Channel) (data : Bytes) : streamOf [(channel, data)] channel = data := by
  simp [streamOf]

theorem streamOf_of_ne {channel other : Channel} (hne : other ≠ channel) (data : Bytes) :
    streamOf [(channel, data)] other = [] := by
  simp [streamOf, Ne.symm hne]

namespace Run

/-- What was captured are the lines of what was written: all that have ended of a stream that is still
held, and all of one that is not. -/
def Heard (said : List (Channel × Bytes)) (r : Run) : Prop :=
  ∀ channel, (r.world.Holds channel → r.capture.Follows channel (streamOf said channel)) ∧
    (¬ r.world.Holds channel → r.capture.Finished channel (streamOf said channel))

/-- The threads of other processes. -/
def others (r : Run) (process : Nat) : List Thread :=
  r.threads.filter (·.process ≠ process)

/-- Processes have numbers of their own, and the launched one is there as long as it has not ended. -/
structure Numbered (r : Run) : Prop where
  distinct : (r.threads.map (·.process)).Nodup
  below : ∀ t ∈ r.threads, t.process < r.world.system.nextProcess
  launched : r.launched < r.world.system.nextProcess
  living : r.status = none ↔ ∃ t ∈ r.threads, t.process = r.launched

/-- The ports that are held are those of the processes, which are honest. -/
structure Orderly (r : Run) : Prop extends Numbered r where
  held : r.world.held.Perm (r.threads.flatMap (·.ports))
  honest : ∀ t ∈ r.threads, t.IsHonest

/-- The same in the turn of a process, which would hold the ports `full` if it were heard. -/
structure Amid (process : Nat) (unheard : Bool) (full : List Port) (r : Run) : Prop
    extends Numbered r where
  present : ∃ t ∈ r.threads, t.process = process
  held : r.world.held.Perm (audible unheard full ++ (r.others process).flatMap (·.ports))
  honest : ∀ t ∈ r.others process, t.IsHonest

/-- What changes in one direction only: new processes get new numbers, an end is final, and a stream
that nobody holds any more is never held again. -/
structure Develops (r r' : Run) : Prop where
  launched : r'.launched = r.launched
  nextProcess : r.world.system.nextProcess ≤ r'.world.system.nextProcess
  born : ∀ t ∈ r'.threads, t.process < r.world.system.nextProcess →
    ∃ t' ∈ r.threads, t'.process = t.process
  status : ∀ status, r.status = some status → r'.status = some status
  free : ∀ channel, r'.world.Holds channel → r.world.Holds channel

theorem Develops.refl (r : Run) : Develops r r :=
  ⟨rfl, Nat.le_refl _, fun t ht _ => ⟨t, ht, rfl⟩, fun _ h => h, fun _ h => h⟩

theorem Develops.trans {r r' r'' : Run} (h : Develops r r') (h' : Develops r' r'') :
    Develops r r'' where
  launched := h'.launched.trans h.launched
  nextProcess := Nat.le_trans h.nextProcess h'.nextProcess
  born t ht hlt := by
    obtain ⟨t', ht', heq⟩ := h'.born t ht (Nat.lt_of_lt_of_le hlt h.nextProcess)
    obtain ⟨t'', ht'', heq'⟩ := h.born t' ht' (heq ▸ hlt)
    exact ⟨t'', ht'', heq'.trans heq⟩
  status status hs := h'.status status (h.status status hs)
  free channel hheld := h.free channel (h'.free channel hheld)

/-! ## Ports -/

theorem captured_not_mem_audible (ports : List Port) (channel : Channel) :
    .captured channel ∉ audible true ports := by
  simp [audible]

theorem audible_audible (unheard : Bool) (ports : List Port) :
    audible true (audible unheard ports) = audible true ports := by
  cases unheard
  · rfl
  · simp [audible]

theorem foldl_erase_perm {old rest held : List Port} (h : held.Perm (old ++ rest)) :
    (old.foldl List.erase held).Perm rest := by
  induction old generalizing held with
  | nil => exact h
  | cons port old ih =>
    refine ih ?_
    have herase := h.erase port
    rwa [List.cons_append, List.erase_cons_head] at herase

/-- The ports that are held after an exchange. -/
def heldAfter (r : Run) (old new : List Port) : List Port :=
  new ++ old.foldl List.erase r.world.held

/-- What was captured after an exchange: a stream that was given up and is not held any more has
ended. -/
def flushIf (r : Run) (old new : List Port) (c : Capture) (channel : Channel) : Capture :=
  if old.contains (.captured channel) && !(r.heldAfter old new).contains (.captured channel) then
    c.flush channel
  else c

theorem exchange_eq (r : Run) (old new : List Port) :
    r.exchange old new =
      { r with
        world := { r.world with held := r.heldAfter old new }
        capture := r.flushIf old new (r.flushIf old new r.capture .out) .err } := by
  unfold exchange flushIf isFree heldAfter
  generalize new ++ old.foldl List.erase r.world.held = held
  cases hout : old.contains (.captured .out) && !held.contains (.captured .out) <;>
    cases herr : old.contains (.captured .err) && !held.contains (.captured .err) <;>
    simp only [hout, herr, Bool.false_eq_true, if_false, if_true]

section
variable {r : Run} {old new rest : List Port} {said : List (Channel × Bytes)}

theorem heldAfter_perm (hheld : r.world.held.Perm (old ++ rest)) (new : List Port) :
    (r.heldAfter old new).Perm (new ++ rest) :=
  (foldl_erase_perm hheld).append_left new

theorem flushIf_of_ne {channel other : Channel} (hne : other ≠ channel) (c : Capture) :
    (r.flushIf old new c channel).partOf other = c.partOf other := by
  unfold flushIf
  split
  · exact c.partOf_flush_of_ne hne
  · rfl

/-- What a capture has of a stream: its lines that have ended if it is held, and all if not. -/
def Has (holds : Prop) (c : Capture) (channel : Channel) (stream : Bytes) : Prop :=
  (holds → c.Follows channel stream) ∧ (¬ holds → c.Finished channel stream)

theorem Has.of_partOf {holds : Prop} {c c' : Capture} {channel : Channel} {stream : Bytes}
    (h : Has holds c channel stream) (hpart : c'.partOf channel = c.partOf channel) :
    Has holds c' channel stream :=
  ⟨fun hholds => (h.1 hholds).of_partOf hpart, fun hnot => (h.2 hnot).of_partOf hpart⟩

/-- **Giving up** a stream, or keeping it. -/
theorem Has.flushIf {c : Capture} {channel : Channel} {stream : Bytes}
    (h : Has (r.world.Holds channel) c channel stream)
    (hheld : r.world.held.Perm (old ++ rest))
    (hnew : .captured channel ∈ new → .captured channel ∈ old) :
    Has (.captured channel ∈ r.heldAfter old new) (r.flushIf old new c channel) channel stream := by
  have hafter := heldAfter_perm hheld new
  have hbefore : r.world.Holds channel ↔ .captured channel ∈ old ∨ .captured channel ∈ rest := by
    rw [World.Holds, hheld.mem_iff, List.mem_append]
  have hmem : .captured channel ∈ r.heldAfter old new ↔
      .captured channel ∈ new ∨ .captured channel ∈ rest := by
    rw [hafter.mem_iff, List.mem_append]
  constructor
  · intro hin
    have hkept : r.flushIf old new c channel = c := by
      unfold Run.flushIf
      rw [if_neg (by simp [hin])]
    rw [hkept]
    exact h.1 (hbefore.2 ((hmem.1 hin).imp_left hnew))
  · intro hnot
    have hrest : .captured channel ∉ rest := fun hin => hnot (hmem.2 (.inr hin))
    unfold Run.flushIf
    by_cases hold : .captured channel ∈ old
    · rw [if_pos (by simp [hold, hnot])]
      exact (h.1 (hbefore.2 (.inl hold))).finish
    · rw [if_neg (by simp [hold])]
      exact h.2 fun hin => (hbefore.1 hin).elim hold hrest

/-- **An exchange** of ports. -/
theorem Heard.exchange (h : r.Heard said) (hheld : r.world.held.Perm (old ++ rest))
    (hnew : ∀ channel, .captured channel ∈ new → .captured channel ∈ old) :
    (r.exchange old new).Heard said := by
  intro channel
  rw [exchange_eq]
  cases channel with
  | out =>
    have hout : Has (r.world.Holds .out) r.capture .out (streamOf said .out) := h .out
    exact (hout.flushIf hheld (hnew .out)).of_partOf (flushIf_of_ne (by decide) _)
  | err =>
    have herr : Has (r.world.Holds .err) r.capture .err (streamOf said .err) := h .err
    exact (herr.of_partOf (flushIf_of_ne (by decide) _)).flushIf hheld (hnew .err)

/-- **A piece** that is written to a stream that is held. -/
theorem Heard.feed (h : r.Heard said) {channel : Channel} (hholds : r.world.Holds channel)
    (data : Bytes) :
    ({ r with capture := r.capture.feed channel data } : Run).Heard (said ++ [(channel, data)]) := by
  intro other
  by_cases hsame : other = channel
  · subst hsame
    rw [streamOf_append, streamOf_self]
    exact ⟨fun _ => ((h other).1 hholds).feed data, fun hnot => absurd hholds hnot⟩
  · rw [streamOf_append, streamOf_of_ne hsame, List.append_nil]
    exact Has.of_partOf (h other) (r.capture.partOf_feed_of_ne hsame data)

end

/-! ## What a process does in its turn -/

/-- A world in which the same ports are held and processes are numbered alike. -/
theorem Numbered.of_world {r : Run} (h : r.Numbered) {w : World}
    (hnumbers : w.system.nextProcess = r.world.system.nextProcess) :
    ({ r with world := w } : Run).Numbered :=
  ⟨h.distinct, hnumbers ▸ h.below, hnumbers ▸ h.launched, h.living⟩

theorem Develops.of_world (r : Run) {w : World}
    (hnumbers : w.system.nextProcess = r.world.system.nextProcess) (hheld : w.held = r.world.held) :
    r.Develops { r with world := w } :=
  ⟨rfl, Nat.le_of_eq hnumbers.symm, fun t ht _ => ⟨t, ht, rfl⟩, fun _ h => h,
    fun channel h => by rwa [World.Holds, hheld] at h⟩

theorem Heard.of_world {r : Run} {said : List (Channel × Bytes)} (h : r.Heard said) {w : World}
    (hheld : w.held = r.world.held) : ({ r with world := w } : Run).Heard said := by
  intro channel
  have hsame : w.Holds channel ↔ r.world.Holds channel := by rw [World.Holds, hheld, World.Holds]
  exact ⟨fun hh => (h channel).1 (hsame.1 hh), fun hn => (h channel).2 fun hh => hn (hsame.2 hh)⟩

namespace Amid

variable {process : Nat} {unheard : Bool} {full new : List Port} {r : Run}
  {said : List (Channel × Bytes)}

theorem holds (h : r.Amid process unheard full) {channel : Channel}
    (hmem : .captured channel ∈ audible unheard full) : r.world.Holds channel := by
  rw [World.Holds, h.held.mem_iff]
  exact List.mem_append_left _ hmem

theorem of_world (h : r.Amid process unheard full) {w : World}
    (hnumbers : w.system.nextProcess = r.world.system.nextProcess) (hheld : w.held = r.world.held) :
    ({ r with world := w } : Run).Amid process unheard full :=
  { h.toNumbered.of_world hnumbers with
    present := h.present
    held := hheld ▸ h.held
    honest := h.honest }

theorem exchange (h : r.Amid process unheard full) (new : List Port) :
    (r.exchange (audible unheard full) (audible unheard new)).Amid process unheard new := by
  rw [exchange_eq]
  exact { toNumbered := ⟨h.distinct, h.below, h.launched, h.living⟩
          present := h.present
          held := heldAfter_perm h.held _
          honest := h.honest }

end Amid

theorem mem_audible_of {unheard : Bool} {full new : List Port}
    (hnew : ∀ channel, .captured channel ∈ new → .captured channel ∈ full) (channel : Channel)
    (h : .captured channel ∈ audible unheard new) : .captured channel ∈ audible unheard full := by
  cases unheard with
  | false => exact hnew channel h
  | true => exact absurd h (captured_not_mem_audible new channel)

/-- A stream that is not held is not held after an exchange for less. -/
theorem develops_exchange {r : Run} {old new rest : List Port} (hheld : r.world.held.Perm (old ++ rest))
    (hnew : ∀ channel, .captured channel ∈ new → .captured channel ∈ old) :
    r.Develops (r.exchange old new) := by
  rw [exchange_eq]
  refine ⟨rfl, Nat.le_refl _, fun t ht _ => ⟨t, ht, rfl⟩, fun _ h => h, fun channel h => ?_⟩
  rw [World.Holds, hheld.mem_iff, List.mem_append]
  exact (List.mem_append.1 ((heldAfter_perm hheld new).mem_iff.1 h)).imp_left (hnew channel)

/-! ## Starting a process -/

@[simp] theorem nextProcess_addMember (w : World) (parent : Nat) :
    (w.addMember parent).system.nextProcess = w.system.nextProcess + 1 :=
  rfl

@[simp] theorem held_addMember (w : World) (parent : Nat) : (w.addMember parent).held = w.held :=
  rfl

section
variable {r : Run} {parent : Nat} {child : Nat → Behaviour} {unheard : Bool} {full : List Port}
  {said : List (Channel × Bytes)}

/-- The thread of a process that is started. -/
def bornThread (r : Run) (child : Nat → Behaviour) (ports : List Port) (unheard : Bool) : Thread :=
  let process := r.world.system.nextProcess
  let code := (child process).andThen fun status => .sleep farewellTime (.done status)
  { process, code := .sleep birthTime code, ports, unheard }

theorem threads_spawn (r : Run) (parent : Nat) (child : Nat → Behaviour) (ports : List Port)
    (unheard : Bool) :
    (r.spawn parent child ports unheard).threads = r.threads ++ [r.bornThread child ports unheard] :=
  rfl

theorem held_spawn (r : Run) (parent : Nat) (child : Nat → Behaviour) (ports : List Port)
    (unheard : Bool) : (r.spawn parent child ports unheard).world.held = ports ++ r.world.held :=
  rfl

theorem isHonest_bornThread (hchild : ∀ n, (child n).IsHonest full) :
    (r.bornThread child (audible unheard full) unheard).IsHonest :=
  ⟨full, rfl, (hchild _).andThen fun _ _ => trivial⟩

/-- One more thread, with a number above all others. -/
theorem nodup_snoc {threads : List Thread} {t : Thread}
    (hdistinct : (threads.map (·.process)).Nodup) (hbelow : ∀ t' ∈ threads, t'.process < t.process) :
    ((threads ++ [t]).map (·.process)).Nodup := by
  rw [List.map_append, List.nodup_append]
  refine ⟨hdistinct, by simp, ?_⟩
  intro n hn m hm
  obtain ⟨t', ht', rfl⟩ := List.mem_map.1 hn
  rw [List.map_singleton, List.mem_singleton] at hm
  exact hm ▸ Nat.ne_of_lt (hbelow t' ht')

theorem below_snoc {threads : List Thread} {n : Nat} {t' : Thread}
    (hbelow : ∀ t ∈ threads, t.process < n) (hlast : t'.process = n) :
    ∀ t ∈ threads ++ [t'], t.process < n + 1 := by
  intro t ht
  rcases List.mem_append.1 ht with ht | ht
  · exact Nat.lt_succ_of_lt (hbelow t ht)
  · rw [List.mem_singleton.1 ht, hlast]
    exact Nat.lt_succ_self n

theorem Numbered.spawn (h : r.Numbered) (parent : Nat) (child : Nat → Behaviour) (ports : List Port)
    (unheard : Bool) : (r.spawn parent child ports unheard).Numbered where
  distinct := nodup_snoc h.distinct h.below
  below := below_snoc h.below rfl
  launched := Nat.lt_succ_of_lt h.launched
  living := by
    refine h.living.trans ⟨fun ⟨t, ht, heq⟩ => ⟨t, List.mem_append_left _ ht, heq⟩, ?_⟩
    rintro ⟨t, ht, heq⟩
    rcases List.mem_append.1 ht with ht | ht
    · exact ⟨t, ht, heq⟩
    · rw [List.mem_singleton.1 ht] at heq
      exact absurd heq.symm (Nat.ne_of_lt h.launched)

/-- Whoever starts a process gives it no stream that he does not hold himself. -/
theorem holds_spawn {ports : List Port}
    (hports : ∀ channel, .captured channel ∈ ports → r.world.Holds channel) (parent : Nat)
    (child : Nat → Behaviour) (unheard : Bool) (channel : Channel) :
    (r.spawn parent child ports unheard).world.Holds channel ↔ r.world.Holds channel := by
  rw [World.Holds, held_spawn, List.mem_append]
  exact ⟨fun h => h.elim (hports channel) id, .inr⟩

theorem Develops.spawn {ports : List Port}
    (hports : ∀ channel, .captured channel ∈ ports → r.world.Holds channel) (parent : Nat)
    (child : Nat → Behaviour) (unheard : Bool) :
    r.Develops (r.spawn parent child ports unheard) where
  launched := rfl
  nextProcess := Nat.le_succ _
  born t ht hlt := by
    rcases List.mem_append.1 ht with ht | ht
    · exact ⟨t, ht, rfl⟩
    · rw [List.mem_singleton.1 ht] at hlt
      exact absurd hlt (Nat.lt_irrefl _)
  status _ h := h
  free channel h := (holds_spawn hports parent child unheard channel).1 h

theorem Heard.spawn (h : r.Heard said) {ports : List Port}
    (hports : ∀ channel, .captured channel ∈ ports → r.world.Holds channel) (parent : Nat)
    (child : Nat → Behaviour) (unheard : Bool) :
    (r.spawn parent child ports unheard).Heard said := by
  intro channel
  have hsame := holds_spawn hports parent child unheard channel
  exact ⟨fun hh => (h channel).1 (hsame.1 hh), fun hn => (h channel).2 fun hh => hn (hsame.2 hh)⟩

/-- **Starting** a process in the turn of another one. -/
theorem Amid.spawn {process : Nat} (h : r.Amid process unheard full)
    (hchild : ∀ n, (child n).IsHonest full) :
    (r.spawn process child (audible unheard full) unheard).Amid process unheard full := by
  have hothers : (r.spawn process child (audible unheard full) unheard).others process =
      r.others process ++ [r.bornThread child (audible unheard full) unheard] := by
    obtain ⟨t, ht, rfl⟩ := h.present
    have hne : (r.bornThread child (audible unheard full) unheard).process ≠ t.process :=
      (Nat.ne_of_lt (h.below t ht)).symm
    rw [others, threads_spawn, List.filter_append, others,
      List.filter_cons_of_pos (by simpa using hne), List.filter_nil]
  refine { toNumbered := h.toNumbered.spawn _ _ _ _, present := ?_, held := ?_, honest := ?_ }
  · obtain ⟨t, ht, heq⟩ := h.present
    exact ⟨t, List.mem_append_left _ ht, heq⟩
  · rw [hothers, List.flatMap_append, List.flatMap_singleton, ← List.append_assoc, held_spawn]
    exact (List.Perm.append_left _ h.held).trans List.perm_append_comm
  · intro t ht
    rw [hothers] at ht
    rcases List.mem_append.1 ht with ht | ht
    · exact h.honest t ht
    · rw [List.mem_singleton.1 ht]
      exact isHonest_bornThread hchild

end

/-! ## A turn -/

/-- What a process leaves that has run for a while, in its turn. -/
structure Leaves (process : Nat) (unheard : Bool) (said : List (Channel × Bytes)) (r : Run)
    (slice : Slice) (written : List (Channel × Bytes)) : Prop where
  amid : ∃ full, slice.ports = audible unheard full ∧ slice.run.Amid process unheard full ∧
    ∀ wait code, slice.pause = .waiting wait code → code.IsHonest full
  heard : r.Heard said → slice.run.Heard (said ++ written)
  develops : r.Develops slice.run

theorem Leaves.stop {process : Nat} {unheard : Bool} {full : List Port} {r : Run}
    {said : List (Channel × Bytes)} (h : r.Amid process unheard full) {pause : Pause} {left : Nat}
    (hpause : ∀ wait code, pause = .waiting wait code → code.IsHonest full) :
    Leaves process unheard said r ⟨pause, audible unheard full, left, r⟩ [] where
  amid := ⟨full, rfl, h, hpause⟩
  heard hheard := by rwa [List.append_nil]
  develops := .refl r

/-- What follows on something else. -/
theorem Leaves.after {process : Nat} {unheard : Bool} {said more written : List (Channel × Bytes)}
    {r r' : Run} {slice : Slice} (h : Leaves process unheard (said ++ more) r' slice written)
    (hheard : r.Heard said → r'.Heard (said ++ more)) (hdevelops : r.Develops r') :
    Leaves process unheard said r slice (more ++ written) where
  amid := h.amid
  heard hr := by
    rw [← List.append_assoc]
    exact h.heard (hheard hr)
  develops := hdevelops.trans h.develops

/-- What follows on something that writes nothing. -/
theorem Leaves.after_nothing {process : Nat} {unheard : Bool} {said written : List (Channel × Bytes)}
    {r r' : Run} {slice : Slice} (h : Leaves process unheard said r' slice written)
    (hheard : r.Heard said → r'.Heard said) (hdevelops : r.Develops r') :
    Leaves process unheard said r slice written where
  amid := h.amid
  heard hr := h.heard (hheard hr)
  develops := hdevelops.trans h.develops

/-- **What an honest process does** in its turn. -/
theorem Amid.advance {process : Nat} {unheard : Bool} {full : List Port} {r : Run}
    (h : r.Amid process unheard full) {code : Behaviour} (hcode : code.IsHonest full) (left : Nat)
    (said : List (Channel × Bytes)) :
    Leaves process unheard said r (code.advance process unheard left (audible unheard full) r)
      (code.writes process unheard left (audible unheard full) r) := by
  induction code generalizing left full r said with
  | done status => exact .stop h nofun
  | sleep time next =>
    refine .stop h fun wait code heq => ?_
    cases heq
    exact hcode
  | emit channel data next ih =>
    obtain ⟨hmem, hnext⟩ := hcode
    cases unheard with
    | true => exact .stop h nofun
    | false =>
      have hholds : r.world.Holds channel := h.holds hmem
      have hfed : ({ r with capture := r.capture.feed channel data } : Run).Amid process false full :=
        { h.toNumbered with present := h.present, held := h.held, honest := h.honest }
      exact (ih hfed hnext left _).after (fun hheard => hheard.feed hholds data)
        ⟨rfl, Nat.le_refl _, fun t ht _ => ⟨t, ht, rfl⟩, fun _ h => h, fun _ h => h⟩
  | hold new next ih =>
    obtain ⟨hnew, hnext⟩ := hcode
    exact (ih (h.exchange new) hnext left said).after_nothing
      (fun hheard => hheard.exchange h.held (mem_audible_of hnew))
      (develops_exchange h.held (mem_audible_of hnew))
  | act change next ih =>
    obtain ⟨htame, hnext⟩ := hcode
    cases left with
    | zero =>
      refine .stop h fun wait code heq => ?_
      cases heq
      exact ⟨htame, hnext⟩
    | succ left =>
      have hchanged := h.of_world (htame.nextProcess r.world) (htame.held r.world)
      have hstop (pause : Pause)
          (hpause : ∀ wait code, pause = .waiting wait code → code.IsHonest full) :
          Leaves process unheard said r
            ⟨pause, audible unheard full, left, { r with world := change r.world }⟩ [] :=
        (Leaves.stop hchanged hpause).after_nothing (·.of_world (htame.held r.world))
          (.of_world r (htame.nextProcess r.world) (htame.held r.world))
      unfold Behaviour.advance Behaviour.writes
      dsimp only
      rcases (change r.world).doomOf? process with _ | number
      · dsimp only
        split
        · refine hstop _ fun wait code heq => ?_
          cases heq
          exact hnext _
        · exact (ih _ hchanged (hnext _) left said).after_nothing (·.of_world (htame.held r.world))
            (.of_world r (htame.nextProcess r.world) (htame.held r.world))
      · exact hstop (.ended (.signalled number)) nofun
  | await isReady next ih =>
    unfold Behaviour.advance Behaviour.writes
    split
    · exact ih h hcode left said
    · refine .stop h fun wait code heq => ?_
      cases heq
      exact hcode
  | fork child next _ ih =>
    obtain ⟨hchild, hnext⟩ := hcode
    have hports (channel : Channel) (hmem : .captured channel ∈ audible unheard full) :
        r.world.Holds channel := h.holds hmem
    exact (ih _ (h.spawn hchild) (hnext _) left said).after_nothing
      (·.spawn hports process child unheard) (.spawn hports process child unheard)

/-! ## The end of a turn -/

section
variable {threads : List Thread} {t : Thread}

/-- Threads with numbers of their own are one of them and the others. -/
theorem perm_cons_others (hdistinct : (threads.map (·.process)).Nodup) (ht : t ∈ threads) :
    threads.Perm (t :: threads.filter (·.process ≠ t.process)) := by
  induction threads with
  | nil => cases ht
  | cons first rest ih =>
    rw [List.map_cons, List.nodup_cons] at hdistinct
    obtain ⟨hfirst, hrest⟩ := hdistinct
    rcases List.mem_cons.1 ht with rfl | ht
    · rw [List.filter_cons_of_neg (by simp), List.filter_eq_self.2]
      intro other hother
      have hne : other.process ≠ t.process := fun heq => hfirst (heq ▸ List.mem_map_of_mem hother)
      simpa using hne
    · have hne : first.process ≠ t.process := fun heq => hfirst (heq ▸ List.mem_map_of_mem ht)
      rw [List.filter_cons_of_pos (by simpa using hne)]
      exact ((ih hrest ht).cons first).trans (List.Perm.swap t first _)

/-- Replaces the thread of a process. -/
def replaced (t : Thread) (threads : List Thread) : List Thread :=
  threads.map fun t' => if t'.process = t.process then t else t'

theorem map_process_replaced (t : Thread) (threads : List Thread) :
    (replaced t threads).map (·.process) = threads.map (·.process) := by
  rw [replaced, List.map_map]
  refine List.map_congr_left fun t' _ => ?_
  dsimp only [Function.comp]
  split
  · exact (‹t'.process = t.process›).symm
  · rfl

theorem mem_replaced {t' : Thread} (ht : t' ∈ threads) (heq : t'.process = t.process) :
    t ∈ replaced t threads :=
  List.mem_map.2 ⟨t', ht, if_pos heq⟩

theorem filter_replaced (t : Thread) (threads : List Thread) :
    (replaced t threads).filter (·.process ≠ t.process) =
      threads.filter (·.process ≠ t.process) := by
  induction threads with
  | nil => rfl
  | cons first rest ih =>
    by_cases hfirst : first.process = t.process
    · rw [replaced, List.map_cons, if_pos hfirst, List.filter_cons_of_neg (by simp),
        List.filter_cons_of_neg (by simpa using hfirst)]
      exact ih
    · rw [replaced, List.map_cons, if_neg hfirst, List.filter_cons_of_pos (by simpa using hfirst),
        List.filter_cons_of_pos (by simpa using hfirst)]
      exact congrArg (first :: ·) ih

end

section
variable {r : Run} {thread : Thread} {unheard : Bool} {full : List Port}
  {said : List (Channel × Bytes)}

theorem Numbered.of_processes (h : r.Numbered) {threads : List Thread}
    (hsame : threads.map (·.process) = r.threads.map (·.process)) :
    ({ r with threads } : Run).Numbered := by
  have hmem (process : Nat) : (∃ t ∈ threads, t.process = process) ↔
      ∃ t ∈ r.threads, t.process = process := by
    rw [← List.mem_map, ← List.mem_map, hsame]
  refine ⟨hsame ▸ h.distinct, fun t ht => ?_, h.launched, h.living.trans (hmem r.launched).symm⟩
  obtain ⟨t', ht', heq⟩ := (hmem t.process).1 ⟨t, ht, rfl⟩
  exact heq ▸ h.below t' ht'

theorem Develops.of_processes (r : Run) {threads : List Thread}
    (hsame : threads.map (·.process) = r.threads.map (·.process)) :
    r.Develops { r with threads } where
  launched := rfl
  nextProcess := Nat.le_refl _
  born t ht _ := by
    have hmem : t.process ∈ r.threads.map (·.process) := hsame ▸ List.mem_map_of_mem ht
    exact List.mem_map.1 hmem
  status _ h := h
  free _ h := h

theorem Orderly.amid (h : r.Orderly) (hthread : thread ∈ r.threads)
    (hports : thread.ports = audible unheard full) :
    r.Amid thread.process unheard full where
  toNumbered := h.toNumbered
  present := ⟨thread, hthread, rfl⟩
  held := by
    have hperm := (perm_cons_others h.distinct hthread).flatMap_right (·.ports)
    rw [List.flatMap_cons, hports] at hperm
    exact h.held.trans hperm
  honest t ht := h.honest t (List.mem_filter.1 ht).1

/-- **A thread** that goes on. -/
theorem Amid.update (h : r.Amid thread.process thread.unheard full)
    (hports : thread.ports = audible thread.unheard full) (hcode : thread.code.IsHonest full) :
    (r.update thread).Orderly := by
  obtain ⟨t, ht, heq⟩ := h.present
  have hsame := map_process_replaced thread r.threads
  have hnumbered := h.toNumbered.of_processes hsame
  have hperm := perm_cons_others hnumbered.distinct (mem_replaced ht heq)
  rw [filter_replaced] at hperm
  refine { toNumbered := hnumbered, held := ?_, honest := fun t' ht' => ?_ }
  · have hheld := (hperm.flatMap_right (·.ports)).symm
    rw [List.flatMap_cons, hports] at hheld
    exact h.held.trans hheld
  · rcases List.mem_cons.1 (hperm.mem_iff.1 ht') with rfl | hother
    · exact ⟨full, hports, hcode⟩
    · exact h.honest t' hother

theorem bury_eq (r : Run) (thread : Thread) (status : ExitStatus) :
    r.bury thread status =
      { r.exchange thread.ports [] with
        world := (r.exchange thread.ports []).world.removeMember thread.process status
        threads := r.others thread.process
        status := if thread.process = r.launched then some status else r.status } := by
  have hfilter : (r.exchange thread.ports []).threads.filter (·.process != thread.process) =
      r.others thread.process := by
    rw [exchange_eq]
    exact List.filter_congr fun t _ => Bool.eq_iff_iff.2 (by simp)
  have hlaunched : (r.exchange thread.ports []).launched = r.launched := by rw [exchange_eq]
  have hstatus : (r.exchange thread.ports []).status = r.status := by rw [exchange_eq]
  unfold bury
  dsimp only
  rw [hfilter, hlaunched, hstatus]

@[simp] theorem held_removeMember (w : World) (process : Nat) (status : ExitStatus) :
    (w.removeMember process status).held = w.held :=
  rfl

@[simp] theorem nextProcess_removeMember (w : World) (process : Nat) (status : ExitStatus) :
    (w.removeMember process status).system.nextProcess = w.system.nextProcess :=
  rfl

theorem Numbered.bury (h : r.Numbered) (status : ExitStatus) : (r.bury thread status).Numbered := by
  rw [bury_eq, exchange_eq]
  refine ⟨(List.filter_sublist.map _).nodup h.distinct,
    fun t ht => h.below t ((List.mem_filter.1 ht).1), h.launched, ?_⟩
  by_cases hlaunched : thread.process = r.launched
  · rw [if_pos hlaunched]
    refine ⟨nofun, fun ⟨t, ht, heq⟩ => ?_⟩
    have hne := (List.mem_filter.1 ht).2
    simp only [ne_eq, decide_not, Bool.not_eq_true', decide_eq_false_iff_not] at hne
    exact absurd (heq.trans hlaunched.symm) hne
  · rw [if_neg hlaunched]
    refine h.living.trans ⟨fun ⟨t, ht, heq⟩ => ⟨t, List.mem_filter.2 ⟨ht, ?_⟩, heq⟩,
      fun ⟨t, ht, heq⟩ => ⟨t, (List.mem_filter.1 ht).1, heq⟩⟩
    simpa [heq] using Ne.symm hlaunched

theorem heldAfter_nil_perm (h : r.Amid thread.process unheard full)
    (hports : thread.ports = audible unheard full) :
    (r.heldAfter thread.ports []).Perm ((r.others thread.process).flatMap (·.ports)) := by
  have hheld := h.held
  rw [← hports] at hheld
  exact heldAfter_perm hheld []

/-- **A process** that goes. -/
theorem Amid.bury (h : r.Amid thread.process unheard full)
    (hports : thread.ports = audible unheard full) (status : ExitStatus) :
    (r.bury thread status).Orderly := by
  refine { toNumbered := h.toNumbered.bury status, held := ?_, honest := ?_ }
  · rw [bury_eq, exchange_eq]
    exact heldAfter_nil_perm h hports
  · rw [bury_eq, exchange_eq]
    exact h.honest

theorem Amid.develops_bury (h : r.Amid thread.process unheard full)
    (hports : thread.ports = audible unheard full) (status : ExitStatus) :
    r.Develops (r.bury thread status) := by
  have hexchange : r.Develops (r.exchange thread.ports []) := by
    rw [hports]
    exact develops_exchange h.held nofun
  rw [bury_eq]
  refine ⟨hexchange.launched, hexchange.nextProcess,
    fun t ht _ => ⟨t, (List.mem_filter.1 ht).1, rfl⟩, fun s hs => ?_, hexchange.free⟩
  -- nobody ends who has ended before
  have hne : thread.process ≠ r.launched := by
    intro heq
    obtain ⟨t, ht, hprocess⟩ := h.present
    have hnone := h.living.2 ⟨t, ht, hprocess.trans heq⟩
    rw [hs] at hnone
    cases hnone
  dsimp only
  rw [if_neg hne, hs]

theorem Amid.heard_bury (h : r.Amid thread.process unheard full)
    (hports : thread.ports = audible unheard full) (status : ExitStatus) (hheard : r.Heard said) :
    (r.bury thread status).Heard said := by
  have hexchange : (r.exchange thread.ports []).Heard said := by
    rw [hports]
    exact hheard.exchange h.held nofun
  rw [bury_eq]
  exact hexchange

/-! ## Turns and rounds -/

/-- What becomes of a thread that a signal may have ended. -/
def dismissed (r : Run) (thread : Thread) : Thread :=
  match thread.code, r.world.doomOf? thread.process with
  | .done _, _ | _, none => thread
  | _, some number =>
    { thread with
      code := .done (.signalled number)
      wait := .time (r.world.clock + farewellTime) }

theorem dismissDoomed_eq (r : Run) :
    r.dismissDoomed = { r with threads := r.threads.map r.dismissed } :=
  rfl

theorem dismissed_cases (r : Run) (thread : Thread) :
    r.dismissed thread = thread ∨ ∃ wait status,
      r.dismissed thread = { thread with code := .done status, wait } := by
  unfold dismissed
  split
  · exact .inl rfl
  · exact .inl rfl
  · exact .inr ⟨_, _, rfl⟩

theorem map_process_dismissed (r : Run) :
    (r.threads.map r.dismissed).map (·.process) = r.threads.map (·.process) := by
  rw [List.map_map]
  refine List.map_congr_left fun t _ => ?_
  rcases r.dismissed_cases t with heq | ⟨wait, status, heq⟩ <;>
    simp only [Function.comp, heq]

theorem Orderly.dismissDoomed (h : r.Orderly) : r.dismissDoomed.Orderly := by
  rw [dismissDoomed_eq]
  refine { toNumbered := h.toNumbered.of_processes r.map_process_dismissed, held := ?_,
           honest := ?_ }
  · rw [List.flatMap_map]
    have hports : (fun t => (r.dismissed t).ports) = fun t => t.ports := by
      funext t
      rcases r.dismissed_cases t with heq | ⟨wait, status, heq⟩ <;> rw [heq]
    rw [hports]
    exact h.held
  · intro t ht
    obtain ⟨t', ht', rfl⟩ := List.mem_map.1 ht
    rcases r.dismissed_cases t' with heq | ⟨wait, status, heq⟩
    · rw [heq]
      exact h.honest t' ht'
    · obtain ⟨full, hports, -⟩ := h.honest t' ht'
      rw [heq]
      exact ⟨full, hports, trivial⟩

/-- What is kept, and what is captured, while something is written. -/
structure Keeps (said : List (Channel × Bytes)) (r : Run) (written : List (Channel × Bytes))
    (r' : Run) : Prop where
  orderly : r'.Orderly
  heard : r.Heard said → r'.Heard (said ++ written)
  develops : r.Develops r'

theorem Keeps.refl (h : r.Orderly) (said : List (Channel × Bytes)) : Keeps said r [] r :=
  ⟨h, fun hheard => by rwa [List.append_nil], .refl r⟩

theorem Keeps.trans {said written more : List (Channel × Bytes)} {r r' r'' : Run}
    (h : Keeps said r written r') (h' : Keeps (said ++ written) r' more r'') :
    Keeps said r (written ++ more) r'' := by
  refine ⟨h'.orderly, fun hheard => ?_, h.develops.trans h'.develops⟩
  rw [← List.append_assoc]
  exact h'.heard (h.heard hheard)

theorem Keeps.dismissDoomed {written : List (Channel × Bytes)} {r' : Run}
    (h : Keeps said r written r') : Keeps said r written r'.dismissDoomed where
  orderly := h.orderly.dismissDoomed
  heard := h.heard
  develops := h.develops.trans (.of_processes r' r'.map_process_dismissed)

/-- What becomes of a process that has run for a while. -/
def settled (r : Run) (thread : Thread) (slice : Slice) : Run :=
  match slice.pause with
  | .ended status => slice.run.bury { thread with ports := slice.ports } status
  | .waiting wait code =>
    let wait : Wait := match wait with
      | .nothing =>
        if patience ≤ thread.spent then .time (r.world.clock + slowStep) else .nothing
      | wait => wait
    slice.run.update { thread with
      code, wait
      ports := slice.ports
      spent := thread.spent + (thread.steps - slice.left) }

theorem turn_eq (r : Run) (process : Nat) :
    r.turn process = match r.threads.find? (·.process = process) with
      | none => r
      | some thread =>
        if !r.isReady thread then r
        else (r.settled thread
          (thread.code.advance process thread.unheard thread.steps thread.ports r)).dismissDoomed :=
  rfl

/-- What is kept by a process that has run for a while. -/
theorem Leaves.settled {slice : Slice} {written : List (Channel × Bytes)}
    (h : Leaves thread.process thread.unheard said r slice written) :
    Keeps said r written (r.settled thread slice) := by
  obtain ⟨⟨full, hports, hamid, hpause⟩, hheard, hdevelops⟩ := h
  unfold Run.settled
  cases hslice : slice.pause with
  | ended status =>
    let gone := { thread with ports := slice.ports }
    have hgone : slice.run.Amid gone.process gone.unheard full := hamid
    exact ⟨hgone.bury hports status, fun hr => hgone.heard_bury hports status (hheard hr),
      hdevelops.trans (hgone.develops_bury hports status)⟩
  | waiting wait code =>
    exact ⟨Amid.update hamid hports (hpause wait code hslice), hheard,
      hdevelops.trans (.of_processes slice.run (map_process_replaced _ _))⟩

/-- **A turn**. -/
theorem Orderly.turn (h : r.Orderly) (process : Nat) (said : List (Channel × Bytes)) :
    Keeps said r (r.turnWrites process) (r.turn process) := by
  rw [turn_eq, turnWrites]
  cases hfind : r.threads.find? (·.process = process) with
  | none => exact .refl h said
  | some thread =>
    have hprocess : thread.process = process := by simpa using List.find?_some hfind
    subst hprocess
    dsimp only
    split
    · exact .refl h said
    obtain ⟨full, hports, hcode⟩ := h.honest thread (List.mem_of_find?_eq_some hfind)
    have hamid := h.amid (List.mem_of_find?_eq_some hfind) hports
    have hleaves := hamid.advance hcode thread.steps said
    rw [← hports] at hleaves
    exact hleaves.settled.dismissDoomed

/-- **Turns** one after the other. -/
theorem Orderly.turns (h : r.Orderly) (processes : List Nat) (said : List (Channel × Bytes)) :
    Keeps said r (turnsWrites processes r) (processes.foldl Run.turn r) := by
  induction processes generalizing r said with
  | nil => exact .refl h said
  | cons process processes ih =>
    have hturn := h.turn process said
    exact hturn.trans (ih hturn.orderly _)

/-- **A round**. -/
theorem Orderly.round (h : r.Orderly) (said : List (Channel × Bytes)) :
    Keeps said r r.roundWrites r.round :=
  h.turns _ said

theorem Orderly.at_clock (h : r.Orderly) (clock : Nat) (said : List (Channel × Bytes)) :
    Keeps said r [] { r with world := { r.world with clock } } where
  orderly := { h.toNumbered with held := h.held, honest := h.honest }
  heard hr := by
    rw [List.append_nil]
    exact hr
  develops := .of_world r rfl rfl

/-- **The passing of time**. -/
theorem Orderly.elapses {s s' : Moment} {written : List (Channel × Bytes)} (h : s.2.Orderly)
    (helapses : Elapses s written s') (said : List (Channel × Bytes)) :
    Keeps said s.2 written s'.2 := by
  induction helapses generalizing said with
  | here s => exact .refl h said
  | @on s s' now r written hwake _ ih =>
    obtain rfl := Moment.eq_of_wake? hwake
    have hclock := h.at_clock now said
    have hround := hclock.trans (hclock.orderly.round _)
    rw [List.nil_append] at hround
    exact hround.trans (ih hround.orderly _)

end

end Run

end LangBundle.Process
