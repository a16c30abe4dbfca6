import LangBundle.Proofs.MergedLines
import LangBundle.Proofs.StageOutcomes

/-!
# The diagnostics of a stage

What a stage says is made of the lines that its tool writes, and all that the tool starts.  Each of
the two streams is cut into lines where its newlines are, however it is written piece by piece, and
the lines of both are put into one row.

* `Merges`: a text is made of the lines of both streams.
* `run_merges`: **the diagnostics** of a stage are.
-/

namespace LangBundle.Stage

open Process

/-- A text is made of the lines of two streams, to which `said` was written until the moment `s`, at
which the tool is over, or the limit is reached. -/
structure Merges (said : List (Channel × Bytes)) (s : Moment) (ended : Bool)
    (lines : Channel → List Bytes) (merged : List Bytes) (text : String) : Prop where
  /-- One row of lines, those of each stream in their order. -/
  interleaving : Interleaving (lines .out) (lines .err) merged
  /-- If the tool is over, then these are all lines of the streams, and nothing is missing. -/
  all : ended = true → ∀ channel, lines channel = allLines (streamOf said channel) ∧
    (lines channel).flatten = streamOf said channel
  /-- If not, then the unfinished line of a stream is missing that somebody still holds. -/
  complete : ended = false → ∀ channel,
    (s.2.world.Holds channel → lines channel = endedLines (streamOf said channel)) ∧
      (¬ s.2.world.Holds channel → lines channel = allLines (streamOf said channel))
  decoded : text = Utf8.decodeLossy merged.flatten
  /-- Texts are passed on as they are; what was written to a stream that somebody still holds may be
  the beginning of a text. -/
  lossless : (∀ channel, ∃ rest, Utf8.IsText (streamOf said channel ++ rest) ∧
    (¬ s.2.world.Holds channel → rest = [])) → Utf8.ofString text = merged.flatten

theorem merged_eq_flatten (c : Capture) : c.merged = (c.lines.map (·.2)).flatten := by
  rw [Capture.merged, List.flatMap_def]

/-- What is captured of two streams that were heard. -/
theorem Merges.of_heard {said : List (Channel × Bytes)} {s : Moment} {ended : Bool}
    (hheard : s.2.Heard said) (hover : s.2.isOver = ended) :
    ∃ lines merged, Merges said s ended lines merged (textAt s) := by
  have hline (channel : Channel) :
      (s.2.world.Holds channel →
        s.2.capture.linesOf channel = endedLines (streamOf said channel)) ∧
      (¬ s.2.world.Holds channel →
        s.2.capture.linesOf channel = allLines (streamOf said channel)) :=
    ⟨fun hholds => ((hheard channel).1 hholds).lines, fun hnot => ((hheard channel).2 hnot).lines⟩
  have hmerged : Interleaving (s.2.capture.linesOf .out) (s.2.capture.linesOf .err)
      (s.2.capture.lines.map (·.2)) := interleaving_lines s.2.capture.lines
  have htext : textAt s = Utf8.decodeLossy (s.2.capture.lines.map (·.2)).flatten := by
    rw [textAt, merged_eq_flatten]
  refine ⟨s.2.capture.linesOf, s.2.capture.lines.map (·.2), hmerged, ?_, fun _ => hline, htext,
    fun htexts => ?_⟩
  · rintro rfl channel
    have hall := (hline channel).2 ((isOver_iff.1 hover).2 channel)
    exact ⟨hall, hall ▸ flatten_allLines _⟩
  · have hline' (channel : Channel) (line : Bytes) (hmem : line ∈ s.2.capture.linesOf channel) :
        Utf8.IsText line := by
      obtain ⟨rest, htext, hclosed⟩ := htexts channel
      by_cases hholds : s.2.world.Holds channel
      · rw [(hline channel).1 hholds] at hmem
        exact htext.endedLines hmem
      · rw [(hline channel).2 hholds] at hmem
        rw [hclosed hholds, List.append_nil] at htext
        exact htext.allLines hmem
    rw [htext]
    refine Utf8.ofString_decodeLossy (.flatten fun line hmem => ?_)
    exact (hmerged.mem hmem).elim (hline' .out line) (hline' .err line)

/-- **The diagnostics** of a stage, on a host where what earlier stages left is in order. -/
theorem run_merges {h : Host} (hh : h.Orderly) {c : Command} {workdir : String}
    {program : Nat → Behaviour} (hlaunch : launched h c workdir = .ok program)
    (hprogram : ∀ n, (program n).IsHonest bothStreams) (limit : Nat) :
    ∃ said s ended failure text h' lines merged,
      Watched (h.deadline limit) (h.begun program) said s ended ∧
      Ended c failure text h' (c.run workdir limit h) ∧
      (failure = some (.timeout limit) ↔ ended = false) ∧
      Merges said s ended lines merged text := by
  obtain ⟨said, s, ended, failure, h', hwatched, -, hended, htimeout, -⟩ := run_ended hlaunch limit
  obtain ⟨horderly, hnothing⟩ := hh.begun hprogram
  have hheard : s.2.Heard said := (horderly.elapses hwatched.elapses []).heard hnothing
  obtain ⟨lines, merged, hmerges⟩ := Merges.of_heard hheard hwatched.isOver
  exact ⟨said, s, ended, failure, textAt s, h', lines, merged, hwatched, hended, htimeout, hmerges⟩

/-- A tool that writes a line of one stream in two pieces, with one of the other stream in between,
and last a letter of two bytes, one after the other, and no newline. -/
def stammer : Behaviour :=
  saying [(.out, [97]), (.err, [120, 10]), (.out, [98, 10]), (.err, [0xC3]), (.err, [0xA4])]
    (.done (.exited 0))

/-- The host of a tool that stammers. -/
def stammeringHost : Host :=
  { launch := fun _ _ _ _ _ => .ok fun _ => stammer }

theorem merges_of_stammer :
    let c : Command := ⟨.grammar, "tool", [], []⟩
    (stammeringHost.Orderly ∧ launched stammeringHost c "/" = .ok (fun _ => stammer) ∧
      stammer.IsHonest bothStreams) ∧
    ∃ said s ended failure text h' lines merged,
      Watched (stammeringHost.deadline 1) (stammeringHost.begun fun _ => stammer) said s ended ∧
      Ended c failure text h' (c.run "/" 1 stammeringHost) ∧
      (failure = some (.timeout 1) ↔ ended = false) ∧
      Merges said s ended lines merged text := by
  intro c
  have horderly : stammeringHost.Orderly := Host.orderly_of_nil rfl
  have hlaunch : launched stammeringHost c "/" = .ok (fun _ => stammer) := rfl
  have hhonest : stammer.IsHonest bothStreams := by
    simp [stammer, saying, Behaviour.IsHonest, bothStreams]
  exact ⟨⟨horderly, hlaunch, hhonest⟩, run_merges horderly hlaunch (fun _ => hhonest) 1⟩

end LangBundle.Stage
