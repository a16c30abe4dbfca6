import LangBundle.Proofs.HeldStreams
import LangBundle.Proofs.StageDiagnostics

/-!
# What the diagnostics leave out

When a stage stops, it has captured what was written to the two streams byte by byte, those of each
stream in their order.  One thing only may be missing, and only if the stage has run too long: the
unfinished line of a stream that somebody still holds.  So it is with a tool that writes a prompt and
waits for an answer.  The bytes that were captured are passed on as a text, and they stay what they
are exactly if they are one.

* `leftOut`: what is missing of a stream.
* `Interleaving.flatten`, `Interleaving.length_eq`: lines put into one row, and their bytes.
* `Captures`, `run_captures`: **what a stage passes on**, and what it leaves out.
* `prompt_is_left_out`: a prompt is left out, and bytes that are no text are altered.
-/

namespace LangBundle

open Process

/-! ## Rows of bytes -/

namespace Process.Interleaving

variable {α : Type} {l r m : List α}

theorem append_left (front : List α) (h : Interleaving l r m) :
    Interleaving (front ++ l) r (front ++ m) := by
  induction front with
  | nil => exact h
  | cons a front ih => exact .left a ih

theorem append_right (front : List α) (h : Interleaving l r m) :
    Interleaving l (front ++ r) (front ++ m) := by
  induction front with
  | nil => exact h
  | cons a front ih => exact .right a ih

/-- If lines are put into one row, then so are their bytes. -/
theorem flatten {l r m : List (List α)} (h : Interleaving l r m) :
    Interleaving l.flatten r.flatten m.flatten := by
  induction h with
  | nil => exact .nil
  | left line _ ih => exact ih.append_left line
  | right line _ ih => exact ih.append_right line

/-- Nothing is lost in a row, and nothing is added. -/
theorem length_eq (h : Interleaving l r m) : m.length = l.length + r.length := by
  induction h with
  | nil => rfl
  | left a _ ih => rw [List.length_cons, List.length_cons, ih, Nat.add_right_comm]
  | right a _ ih => rw [List.length_cons, List.length_cons, ih, Nat.add_assoc]

end Process.Interleaving

/-- What was captured by any moment of a history are the lines of what was written. -/
theorem Host.Orderly.heard {h : Host} (hh : h.Orderly) {program : Nat → Behaviour}
    (hprogram : ∀ n, (program n).IsHonest bothStreams) {said : List (Channel × Bytes)} {s : Moment}
    (hs : Elapses (h.begun program) said s) : s.2.Heard said := by
  obtain ⟨horderly, hnothing⟩ := hh.begun hprogram
  exact (horderly.elapses hs []).heard hnothing

/-- What was written to a stream is what was passed on of it, and what waits for its newline. -/
theorem Process.Run.Heard.streamOf_eq {said : List (Channel × Bytes)} {r : Run} (h : r.Heard said)
    (channel : Channel) :
    streamOf said channel =
      (r.capture.linesOf channel).flatten ++ (r.capture.unfinished.get channel).reverse := by
  by_cases hholds : r.world.Holds channel
  · obtain ⟨hlines, hunfinished⟩ := (h channel).1 hholds
    rw [hlines, hunfinished, List.reverse_reverse, flatten_cutLines]
  · obtain ⟨hlines, hunfinished⟩ := (h channel).2 hholds
    rw [hlines, hunfinished, List.reverse_nil, List.append_nil, flatten_allLines]

namespace Stage

/-! ## What is missing -/

instance (w : World) (channel : Channel) : Decidable (w.Holds channel) :=
  inferInstanceAs (Decidable (_ ∈ _))

/-- What a stage that stops at the moment `s` leaves out of a stream: the unfinished line, if somebody
still holds the stream. -/
def leftOut (said : List (Channel × Bytes)) (s : Moment) (channel : Channel) : Bytes :=
  if s.2.world.Holds channel then lastLine (streamOf said channel) else []

/-- What a stage that stops at the moment `s` has captured of two streams to which `said` was written,
and the text that it passes on. -/
structure Captures (said : List (Channel × Bytes)) (s : Moment) (bytes : Bytes) (text : String) :
    Prop where
  /-- Both streams in one row, without what is left out at their ends. -/
  row : ∃ out err, Interleaving out err bytes ∧ out ++ leftOut said s .out = streamOf said .out ∧
    err ++ leftOut said s .err = streamOf said .err
  /-- Every byte that was written is there exactly if nothing is left out. -/
  complete : Interleaving (streamOf said .out) (streamOf said .err) bytes ↔
    ∀ channel, leftOut said s channel = []
  decoded : text = Utf8.decodeLossy bytes
  /-- The bytes are passed on as they are exactly if they are a text. -/
  unaltered : Utf8.ofString text = bytes ↔ Utf8.IsText bytes
  /-- So they are if texts are written, which need not be finished as long as a stream is held. -/
  lossless : (∀ channel, ∃ rest, Utf8.IsText (streamOf said channel ++ rest) ∧
    (¬ s.2.world.Holds channel → rest = [])) → Utf8.IsText bytes

section
variable {said : List (Channel × Bytes)} {s : Moment} {ended : Bool} {lines : Channel → List Bytes}
  {merged : List Bytes} {text : String}

theorem leftOut_of_isOver (hover : s.2.isOver = true) (channel : Channel) :
    leftOut said s channel = [] :=
  if_neg ((isOver_iff.1 hover).2 channel)

/-- The lines of a stream and what is left out are the stream. -/
theorem Merges.flatten_append (h : Merges said s ended lines merged text)
    (hover : s.2.isOver = ended) (channel : Channel) :
    (lines channel).flatten ++ leftOut said s channel = streamOf said channel := by
  cases ended with
  | true => rw [leftOut_of_isOver hover, List.append_nil, (h.all rfl channel).2]
  | false =>
    unfold leftOut
    split
    next hholds => rw [(h.complete rfl channel).1 hholds, flatten_cutLines]
    next hnot => rw [(h.complete rfl channel).2 hnot, flatten_allLines, List.append_nil]

/-- What is captured as lines, byte by byte. -/
theorem Merges.captures (h : Merges said s ended lines merged text) (hover : s.2.isOver = ended) :
    Captures said s merged.flatten text := by
  have hout := h.flatten_append hover .out
  have herr := h.flatten_append hover .err
  have hrow := h.interleaving.flatten
  refine ⟨⟨_, _, hrow, hout, herr⟩, ⟨fun hall => ?_, fun hnone => ?_⟩, h.decoded,
    ⟨fun hsame => ⟨text, hsame.symm⟩, fun htext => ?_⟩, fun htexts => ⟨text, (h.lossless htexts).symm⟩⟩
  · -- the bytes that were captured are as many as those that were written
    have hcaptured := hrow.length_eq
    have hwritten := hall.length_eq
    rw [← hout, ← herr, List.length_append, List.length_append] at hwritten
    have hnone : (leftOut said s .out).length = 0 ∧ (leftOut said s .err).length = 0 := by omega
    rintro (_ | _)
    · exact List.eq_nil_of_length_eq_zero hnone.1
    · exact List.eq_nil_of_length_eq_zero hnone.2
  · rw [hnone, List.append_nil] at hout herr
    rwa [hout, herr] at hrow
  · rw [h.decoded, Utf8.ofString_decodeLossy htext]

end

/-- **What a stage passes on**, however it ends, on a host where what earlier stages left is in order:
all that was written, unless it has run too long; and then all but the unfinished lines of the streams
that are still held. -/
theorem run_captures {h : Host} (hh : h.Orderly) {c : Command} {workdir : String}
    {program : Nat → Behaviour} (hlaunch : launched h c workdir = .ok program)
    (hprogram : ∀ n, (program n).IsHonest bothStreams) (limit : Nat) :
    ∃ said s ended failure text h' bytes,
      Watched (h.deadline limit) (h.begun program) said s ended ∧
      Ended c failure text h' (c.run workdir limit h) ∧
      (failure = some (.timeout limit) ↔ ended = false) ∧
      Captures said s bytes text ∧
      (failure ≠ some (.timeout limit) → ∀ channel, leftOut said s channel = []) := by
  obtain ⟨said, s, ended, failure, h', hwatched, -, hended, htimeout, -⟩ := run_ended hlaunch limit
  obtain ⟨lines, merged, hmerges⟩ :=
    Merges.of_heard (hh.heard hprogram hwatched.elapses) hwatched.isOver
  refine ⟨said, s, ended, failure, textAt s, h', merged.flatten, hwatched, hended, htimeout,
    hmerges.captures hwatched.isOver, fun hne => leftOut_of_isOver ?_⟩
  rw [hwatched.isOver]
  exact eq_true_of_ne_false fun hfalse => hne (htimeout.2 hfalse)

/-! ## A tool that prompts -/

/-- What a tool writes that wants an answer. -/
def prompt : Bytes :=
  [62, 32]

/-- A tool that writes a prompt and waits for ever. -/
def prompting : Behaviour :=
  saying [(.out, prompt)] .hang

/-- The host of such a tool. -/
def promptingHost : Host :=
  { launch := fun _ _ _ _ _ => .ok fun _ => prompting }

theorem isHonest_prompting : prompting.IsHonest bothStreams := by
  simp [prompting, saying, Behaviour.hang, Behaviour.IsHonest, bothStreams]

theorem captures_of_prompting :
    (promptingHost.Orderly ∧ launched promptingHost plainCommand "/" = .ok (fun _ => prompting) ∧
      prompting.IsHonest bothStreams) ∧
    ∃ said s ended failure text h' bytes,
      Watched (promptingHost.deadline 1) (promptingHost.begun fun _ => prompting) said s ended ∧
      Ended plainCommand failure text h' (plainCommand.run "/" 1 promptingHost) ∧
      (failure = some (.timeout 1) ↔ ended = false) ∧
      Captures said s bytes text ∧
      (failure ≠ some (.timeout 1) → ∀ channel, leftOut said s channel = []) := by
  have horderly : promptingHost.Orderly := Host.orderly_of_nil rfl
  have hlaunch : launched promptingHost plainCommand "/" = .ok (fun _ => prompting) := rfl
  exact ⟨⟨horderly, hlaunch, isHonest_prompting⟩,
    run_captures horderly hlaunch (fun _ => isHonest_prompting) 1⟩

theorem run_prompting :
    ∃ said s h', Watched (promptingHost.deadline 1) (promptingHost.begun fun _ => prompting) said s
        false ∧
      streamOf said .out = prompt ∧
      plainCommand.run "/" 1 promptingHost = .error (.stage .grammar (.timeout 1) "") h' := by
  obtain ⟨said, s, ended, failure, h', hwatched, -, hended, htimeout, -⟩ :=
    run_ended (rfl : launched promptingHost plainCommand "/" = .ok fun _ => prompting) 1
  have hlength : ((promptingHost.begun fun _ => prompting).firsts 8).length ≤ 8 := by decide +kernel
  have hmem := hwatched.elapses.mem_firsts_of_length hlength
  have hgoes : ∀ s ∈ (promptingHost.begun fun _ => prompting).firsts 8, s.2.isOver = false := by
    decide +kernel
  obtain rfl : ended = false := hwatched.isOver.symm.trans (hgoes s hmem)
  -- at the last moment before the limit the prompt has been written, and waits for its newline
  have hwaits : ∀ s ∈ (promptingHost.begun fun _ => prompting).firsts 8,
      s.wake?.all (promptingHost.deadline 1 ≤ ·.1) = true → s.2.capture.lines = [] ∧
        s.2.capture.unfinished.get .out = prompt.reverse := by
    decide +kernel
  obtain ⟨hlines, hunfinished⟩ := hwaits s hmem
    ((Option.all_eq_true _ _).2 fun next hnext => decide_eq_true (hwatched.last rfl next hnext))
  have hheard := (Host.orderly_of_nil rfl).heard (fun _ => isHonest_prompting) hwatched.elapses
  have htext : textAt s = "" := by
    rw [textAt, Capture.merged, hlines]
    decide +kernel
  rw [htimeout.2 rfl, htext] at hended
  refine ⟨said, s, h', hwatched, ?_, hended⟩
  rw [hheard.streamOf_eq, Capture.linesOf, hlines, hunfinished, List.reverse_reverse]
  rfl

/-! ## A tool that writes no text -/

/-- Bytes that are no text. -/
def garble : Bytes :=
  [0xFF, newline]

/-- A tool that writes them, and ends badly. -/
def garbling : Behaviour :=
  saying [(.err, garble)] (.done (.exited 3))

/-- The host of such a tool. -/
def garblingHost : Host :=
  { launch := fun _ _ _ _ _ => .ok fun _ => garbling }

theorem isHonest_garbling : garbling.IsHonest bothStreams := by
  simp [garbling, saying, Behaviour.IsHonest, bothStreams]

theorem run_garbling :
    ∃ said s text h', Watched (garblingHost.deadline 1) (garblingHost.begun fun _ => garbling) said s
        true ∧
      streamOf said .err = garble ∧
      plainCommand.run "/" 1 garblingHost =
        .error (.stage .grammar (.exitStatus (some 3)) text) h' ∧
      Utf8.ofString text ≠ garble := by
  obtain ⟨said, s, ended, failure, h', hwatched, -, hended, -, hfailure⟩ :=
    run_ended (rfl : launched garblingHost plainCommand "/" = .ok fun _ => garbling) 1
  have hlength : ((garblingHost.begun fun _ => garbling).firsts 8).length ≤ 8 := by decide +kernel
  have hmem := hwatched.elapses.mem_firsts_of_length hlength
  have hover : ∃ s ∈ (garblingHost.begun fun _ => garbling).firsts 8,
      s.1 < garblingHost.deadline 1 ∧ s.2.isOver = true := by
    decide +kernel
  obtain ⟨s', hs', htime, hover'⟩ := hover
  obtain ⟨_, hlater⟩ := Elapses.exists_of_mem_firsts hs'
  obtain rfl := hwatched.ended_of_over hlater htime hover'
  have hends : ∀ s ∈ (garblingHost.begun fun _ => garbling).firsts 8, s.2.isOver = true →
      s.2.status = some (.exited 3) ∧ s.2.capture.lines = [(.err, garble)] ∧
        s.2.capture.unfinished.get .err = [] := by
    decide +kernel
  obtain ⟨hstatus, hlines, hunfinished⟩ := hends s hmem hwatched.isOver
  obtain ⟨status, hsome, rfl⟩ := hfailure rfl
  obtain rfl := Option.some.inj (hsome.symm.trans hstatus)
  have hheard := (Host.orderly_of_nil rfl).heard (fun _ => isHonest_garbling) hwatched.elapses
  refine ⟨said, s, textAt s, h', hwatched, ?_, hended, ?_⟩
  · rw [hheard.streamOf_eq, Capture.linesOf, hlines, hunfinished]
    rfl
  · rw [textAt, Capture.merged, hlines]
    decide +kernel

/-- **A prompt is left out** when a tool runs too long that waits for an answer, although it was
written before; and of bytes that are no text others are made. -/
theorem prompt_is_left_out :
    (∃ said s h', Watched (promptingHost.deadline 1) (promptingHost.begun fun _ => prompting) said s
        false ∧
      streamOf said .out = prompt ∧
      plainCommand.run "/" 1 promptingHost = .error (.stage .grammar (.timeout 1) "") h') ∧
    ∃ said s text h', Watched (garblingHost.deadline 1) (garblingHost.begun fun _ => garbling) said s
        true ∧
      streamOf said .err = garble ∧
      plainCommand.run "/" 1 garblingHost =
        .error (.stage .grammar (.exitStatus (some 3)) text) h' ∧
      Utf8.ofString text ≠ garble :=
  ⟨run_prompting, run_garbling⟩

end Stage
end LangBundle
