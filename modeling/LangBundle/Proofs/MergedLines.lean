import LangBundle.Process.Capture
import LangBundle.Proofs.ArchiveRoundTrip

/-!
# The lines of captured streams

A capture that takes two streams piece by piece keeps the lines of each of them whole and in order:
what it passes on of one stream are the lines of that stream, whatever came in between.

* `cutLines`: the lines of a stream that have ended, and what stands behind the last newline;
  `flatten_cutLines`, `endedLines_end`, `newline_not_mem_lastLine`: **what the lines are**.
* `Capture.Follows`, `Capture.Finished`: a capture has taken a stream that goes on, or all of it.
* `Capture.Follows.feed`, `Capture.Follows.finish`: **a piece** and **the end** of a stream.
* `Interleaving`: one list is made of two, each in its order; `interleaving_lines`: **the lines
  passed on** are made of those of both streams.
* `Utf8.IsText.allLines`, `Utf8.ofString_decodeLossy`: the lines of a text are texts, and a text is
  decoded without loss.
-/

namespace LangBundle.Process

/-! ## The lines of a stream -/

/-- Puts bytes without a newline in front of what a stream was cut into. -/
def extendLines (front : Bytes) : List Bytes × Bytes → List Bytes × Bytes
  | ([], last) => ([], front ++ last)
  | (line :: lines, last) => ((front ++ line) :: lines, last)

/-- The lines of a stream that have ended, each with its newline, and what stands behind the last
newline. -/
def cutLines : Bytes → List Bytes × Bytes
  | [] => ([], [])
  | b :: rest =>
    if b = newline then ([b] :: (cutLines rest).1, (cutLines rest).2)
    else extendLines [b] (cutLines rest)

/-- The lines of a stream that have ended. -/
def endedLines (stream : Bytes) : List Bytes :=
  (cutLines stream).1

/-- What stands behind the last newline of a stream. -/
def lastLine (stream : Bytes) : Bytes :=
  (cutLines stream).2

/-- All lines of a stream that has ended: what stands behind the last newline is a line too, unless
nothing does. -/
def allLines (stream : Bytes) : List Bytes :=
  endedLines stream ++ if (lastLine stream).isEmpty then [] else [lastLine stream]

theorem extendLines_append (a b : Bytes) (cut : List Bytes × Bytes) :
    extendLines (a ++ b) cut = extendLines a (extendLines b cut) := by
  obtain ⟨_ | ⟨line, lines⟩, last⟩ := cut <;> simp [extendLines]

theorem cutLines_cons_of_ne {b : UInt8} (hb : b ≠ newline) (rest : Bytes) :
    cutLines (b :: rest) = extendLines [b] (cutLines rest) := by
  rw [cutLines, if_neg hb]

theorem cutLines_newline (rest : Bytes) :
    cutLines (newline :: rest) = ([newline] :: (cutLines rest).1, (cutLines rest).2) := by
  rw [cutLines, if_pos rfl]

/-- Bytes without a newline lengthen the first line. -/
theorem cutLines_append_of_not_mem {front : Bytes} (hfront : newline ∉ front) (rest : Bytes) :
    cutLines (front ++ rest) = extendLines front (cutLines rest) := by
  induction front with
  | nil =>
    rw [List.nil_append]
    obtain ⟨_ | ⟨line, lines⟩, last⟩ := cutLines rest <;> rfl
  | cons b front ih =>
    have hb := List.ne_of_not_mem_cons hfront
    rw [List.cons_append, cutLines_cons_of_ne hb.symm,
      ih (List.not_mem_of_not_mem_cons hfront), ← extendLines_append]
    rfl

/-- Nothing is lost when a stream is cut into lines. -/
theorem flatten_cutLines (stream : Bytes) : (endedLines stream).flatten ++ lastLine stream = stream := by
  unfold endedLines lastLine
  induction stream with
  | nil => rfl
  | cons b rest ih =>
    by_cases hb : b = newline
    · subst hb
      rw [cutLines_newline, List.flatten_cons, List.append_assoc, ih]
      rfl
    · rw [cutLines_cons_of_ne hb]
      rcases hcut : cutLines rest with ⟨_ | ⟨line, lines⟩, last⟩
      · rw [hcut] at ih
        exact congrArg (b :: ·) ih
      · rw [hcut] at ih
        exact congrArg (b :: ·) ih

theorem flatten_allLines (stream : Bytes) : (allLines stream).flatten = stream := by
  have hwhole := flatten_cutLines stream
  rw [allLines, List.flatten_append]
  cases hlast : lastLine stream with
  | nil => rwa [hlast] at hwhole
  | cons b rest =>
    rw [hlast] at hwhole
    simpa using hwhole

/-- A line ends with its newline and has no other one. -/
theorem endedLines_end {stream line : Bytes} (h : line ∈ endedLines stream) :
    ∃ body, line = body ++ [newline] ∧ newline ∉ body := by
  unfold endedLines at h
  induction stream generalizing line with
  | nil => cases h
  | cons b rest ih =>
    by_cases hb : b = newline
    · subst hb
      rw [cutLines_newline] at h
      rcases List.mem_cons.1 h with rfl | h
      · exact ⟨[], rfl, List.not_mem_nil⟩
      · exact ih h
    · rw [cutLines_cons_of_ne hb] at h
      rcases hcut : cutLines rest with ⟨_ | ⟨first, lines⟩, last⟩
      · rw [hcut] at h
        cases h
      · rw [hcut] at h ih
        rcases List.mem_cons.1 h with rfl | h
        · obtain ⟨body, rfl, hbody⟩ := ih List.mem_cons_self
          exact ⟨b :: body, rfl, List.not_mem_cons_of_ne_of_not_mem (Ne.symm hb) hbody⟩
        · exact ih (List.mem_cons_of_mem first h)

theorem newline_not_mem_lastLine (stream : Bytes) : newline ∉ lastLine stream := by
  unfold lastLine
  induction stream with
  | nil => exact List.not_mem_nil
  | cons b rest ih =>
    by_cases hb : b = newline
    · subst hb
      rwa [cutLines_newline]
    · rw [cutLines_cons_of_ne hb]
      rcases hcut : cutLines rest with ⟨_ | ⟨line, lines⟩, last⟩
      · rw [hcut] at ih
        exact List.not_mem_cons_of_ne_of_not_mem (Ne.symm hb) ih
      · rwa [hcut] at ih

/-- One more byte ends the last line, or lengthens it. -/
theorem cutLines_snoc (stream : Bytes) (b : UInt8) :
    cutLines (stream ++ [b]) =
      if b = newline then (endedLines stream ++ [lastLine stream ++ [b]], [])
      else (endedLines stream, lastLine stream ++ [b]) := by
  unfold endedLines lastLine
  induction stream with
  | nil =>
    by_cases hb : b = newline
    · subst hb
      rfl
    · rw [List.nil_append, cutLines_cons_of_ne hb, if_neg hb]
      rfl
  | cons a rest ih =>
    by_cases ha : a = newline
    · subst ha
      rw [List.cons_append, cutLines_newline, cutLines_newline, ih]
      split <;> rfl
    · rw [List.cons_append, cutLines_cons_of_ne ha, cutLines_cons_of_ne ha, ih]
      obtain ⟨_ | ⟨line, lines⟩, last⟩ := cutLines rest <;> split <;> rfl

/-- Lines that have ended stay as they are, whatever comes. -/
theorem isPrefix_endedLines (stream rest : Bytes) : endedLines stream <+: endedLines (stream ++ rest) := by
  induction rest generalizing stream with
  | nil => exact ⟨[], by rw [List.append_nil, List.append_nil]⟩
  | cons b rest ih =>
    have hnext : endedLines stream <+: endedLines (stream ++ [b]) := by
      rw [endedLines.eq_def (stream ++ [b]), cutLines_snoc]
      split
      · exact List.prefix_append _ _
      · exact List.prefix_rfl
    rw [show stream ++ b :: rest = stream ++ [b] ++ rest by simp]
    exact hnext.trans (ih (stream ++ [b]))

/-! ## What a capture takes of a stream -/

namespace Capture

/-- The lines of one stream that were passed on. -/
def linesOf (c : Capture) (channel : Channel) : List Bytes :=
  (c.lines.filter (·.1 = channel)).map (·.2)

/-- A capture has taken a stream that goes on: its lines that have ended were passed on. -/
structure Follows (c : Capture) (channel : Channel) (stream : Bytes) : Prop where
  lines : c.linesOf channel = endedLines stream
  unfinished : c.unfinished.get channel = (lastLine stream).reverse

/-- A capture has taken all of a stream: all its lines were passed on. -/
structure Finished (c : Capture) (channel : Channel) (stream : Bytes) : Prop where
  lines : c.linesOf channel = allLines stream
  unfinished : c.unfinished.get channel = []

section
variable {c : Capture} {channel other : Channel} {stream : Bytes}

theorem follows_empty (channel : Channel) : Follows {} channel [] := by
  cases channel <;> exact ⟨rfl, rfl⟩

/-- The lines that a flush passes on. -/
theorem linesOf_flush (c : Capture) (channel other : Channel) :
    (c.flush channel).linesOf other = c.linesOf other ++
      if (c.unfinished.get channel).isEmpty = false ∧ channel = other then
        [(c.unfinished.get channel).reverse]
      else [] := by
  unfold flush
  by_cases hempty : (c.unfinished.get channel).isEmpty = true
  · rw [if_pos hempty, if_neg (by simp [hempty]), List.append_nil]
  · rw [if_neg hempty]
    by_cases hsame : channel = other
    · subst hsame
      simp [linesOf, lines, hempty]
    · simp [linesOf, lines, hsame]

theorem unfinished_flush_self (c : Capture) (channel : Channel) :
    (c.flush channel).unfinished.get channel = [] := by
  unfold flush
  split
  · exact List.isEmpty_iff.1 ‹_›
  · exact PerChannel.get_set_self _ _ _

theorem unfinished_flush_of_ne (c : Capture) (hne : other ≠ channel) :
    (c.flush channel).unfinished.get other = c.unfinished.get other := by
  unfold flush
  split
  · rfl
  · exact PerChannel.get_set_of_ne _ _ hne

/-- A capture with one more byte in the line of a stream that is not ended yet. -/
def withByte (c : Capture) (channel : Channel) (b : UInt8) : Capture :=
  { c with unfinished := c.unfinished.set channel (b :: c.unfinished.get channel) }

theorem feedByte_eq (c : Capture) (channel : Channel) (b : UInt8) :
    c.feedByte channel b =
      if b = newline then (c.withByte channel b).flush channel else c.withByte channel b :=
  rfl

/-- **One byte** of a stream. -/
theorem Follows.feedByte (h : c.Follows channel stream) (b : UInt8) :
    (c.feedByte channel b).Follows channel (stream ++ [b]) := by
  have hbyte : (c.withByte channel b).unfinished.get channel = (lastLine stream ++ [b]).reverse := by
    rw [withByte, PerChannel.get_set_self, h.unfinished, List.reverse_append]
    rfl
  have hcut := cutLines_snoc stream b
  by_cases hb : b = newline
  · rw [if_pos hb] at hcut
    rw [feedByte_eq, if_pos hb]
    refine ⟨?_, ?_⟩
    · rw [linesOf_flush, hbyte, endedLines, hcut, if_pos ⟨by simp, rfl⟩, List.reverse_reverse]
      exact congrArg (· ++ _) h.lines
    · rw [unfinished_flush_self, lastLine, hcut]
      rfl
  · rw [if_neg hb] at hcut
    rw [feedByte_eq, if_neg hb]
    refine ⟨?_, ?_⟩
    · rw [endedLines, hcut]
      exact h.lines
    · exact hbyte.trans (congrArg (fun cut : List Bytes × Bytes => cut.2.reverse) hcut).symm

/-- **A piece** of a stream. -/
theorem Follows.feed (h : c.Follows channel stream) (data : Bytes) :
    (c.feed channel data).Follows channel (stream ++ data) := by
  induction data generalizing c stream with
  | nil => rwa [List.append_nil]
  | cons b data ih =>
    have hnext := ih (h.feedByte b)
    rwa [List.append_assoc] at hnext

/-- **The end** of a stream. -/
theorem Follows.finish (h : c.Follows channel stream) : (c.flush channel).Finished channel stream := by
  refine ⟨?_, unfinished_flush_self c channel⟩
  rw [linesOf_flush, h.lines, h.unfinished, List.reverse_reverse, allLines]
  cases lastLine stream <;> simp

/-! ## What it takes of the other stream -/

/-- What was passed on of a stream and what is not ended yet. -/
def partOf (c : Capture) (channel : Channel) : List Bytes × Bytes :=
  (c.linesOf channel, c.unfinished.get channel)

theorem partOf_flush_of_ne (c : Capture) (hne : other ≠ channel) :
    (c.flush channel).partOf other = c.partOf other := by
  rw [partOf, linesOf_flush, unfinished_flush_of_ne c hne, if_neg (fun h => hne h.2.symm),
    List.append_nil, partOf]

theorem partOf_feed_of_ne (c : Capture) (hne : other ≠ channel) (data : Bytes) :
    (c.feed channel data).partOf other = c.partOf other := by
  induction data generalizing c with
  | nil => rfl
  | cons b data ih =>
    have hbyte : (c.withByte channel b).partOf other = c.partOf other := by
      rw [partOf, withByte, PerChannel.get_set_of_ne _ _ hne]
      rfl
    refine (ih (c.feedByte channel b)).trans ?_
    rw [feedByte_eq]
    split
    · rw [partOf_flush_of_ne _ hne, hbyte]
    · exact hbyte

theorem Follows.of_partOf {c' : Capture} (h : c.Follows channel stream)
    (hpart : c'.partOf channel = c.partOf channel) : c'.Follows channel stream :=
  ⟨(congrArg Prod.fst hpart).trans h.lines, (congrArg Prod.snd hpart).trans h.unfinished⟩

theorem Finished.of_partOf {c' : Capture} (h : c.Finished channel stream)
    (hpart : c'.partOf channel = c.partOf channel) : c'.Finished channel stream :=
  ⟨(congrArg Prod.fst hpart).trans h.lines, (congrArg Prod.snd hpart).trans h.unfinished⟩

end

end Capture

/-! ## One list made of two -/

/-- One list is made of two others, each of which is in its own order. -/
inductive Interleaving {α : Type} : List α → List α → List α → Prop
  | nil : Interleaving [] [] []
  | left {l r m : List α} (a : α) (h : Interleaving l r m) : Interleaving (a :: l) r (a :: m)
  | right {l r m : List α} (a : α) (h : Interleaving l r m) : Interleaving l (a :: r) (a :: m)

/-- **The lines passed on** are made of those of both streams. -/
theorem interleaving_lines (lines : List (Channel × Bytes)) :
    Interleaving ((lines.filter (·.1 = .out)).map (·.2)) ((lines.filter (·.1 = .err)).map (·.2))
      (lines.map (·.2)) := by
  induction lines with
  | nil => exact .nil
  | cons line lines ih =>
    obtain ⟨channel, data⟩ := line
    cases channel with
    | out => exact .left data ih
    | err => exact .right data ih

theorem Interleaving.mem {α : Type} {l r m : List α} (h : Interleaving l r m) {a : α} (ha : a ∈ m) :
    a ∈ l ∨ a ∈ r := by
  induction h with
  | nil => cases ha
  | left b _ ih =>
    rcases List.mem_cons.1 ha with rfl | ha
    · exact .inl List.mem_cons_self
    · exact (ih ha).imp_left (List.mem_cons_of_mem b)
  | right b _ ih =>
    rcases List.mem_cons.1 ha with rfl | ha
    · exact .inr List.mem_cons_self
    · exact (ih ha).imp_right (List.mem_cons_of_mem b)

end LangBundle.Process

/-! ## Lines of texts -/

namespace LangBundle.Utf8

open Process

/-- Bytes that are the UTF-8 form of a text. -/
def IsText (bytes : Bytes) : Prop :=
  ∃ text : String, bytes = ofString text

theorem isText_encode (cs : List Char) : IsText (encode cs) :=
  ⟨String.ofList cs, by rw [ofString, String.toList_ofList]⟩

theorem isText_iff {bytes : Bytes} : IsText bytes ↔ ∃ cs, bytes = encode cs :=
  ⟨fun ⟨text, h⟩ => ⟨text.toList, h⟩, fun ⟨cs, h⟩ => h ▸ isText_encode cs⟩

theorem IsText.append {a b : Bytes} (ha : IsText a) (hb : IsText b) : IsText (a ++ b) := by
  obtain ⟨cs, rfl⟩ := isText_iff.1 ha
  obtain ⟨ds, rfl⟩ := isText_iff.1 hb
  exact isText_iff.2 ⟨cs ++ ds, by simp [encode]⟩

theorem IsText.flatten {pieces : List Bytes} (h : ∀ piece ∈ pieces, IsText piece) :
    IsText pieces.flatten := by
  induction pieces with
  | nil => exact isText_iff.2 ⟨[], rfl⟩
  | cons piece pieces ih =>
    exact (h piece List.mem_cons_self).append (ih fun p hp => h p (List.mem_cons_of_mem _ hp))

/-- Only one character has a newline among its bytes. -/
theorem newline_not_mem_encodeChar {c : Char} (hc : c ≠ '\n') : newline ∉ encodeChar c := by
  have hbounds := toNat_bounds c
  have hten : c.toNat ≠ 10 := fun h => hc (Char.toNat_inj.1 h)
  have hbyte {n : Nat} (hlow : n ≠ 10) (hhigh : n < 256) : newline ≠ n.toUInt8 := by
    intro heq
    have hvalue := congrArg UInt8.toNat heq
    rw [toNat_toUInt8 hhigh] at hvalue
    exact hlow hvalue.symm
  unfold encodeChar
  dsimp only
  split
  · simpa using hbyte hten (by omega)
  split
  · simp only [List.mem_cons, List.not_mem_nil, or_false, not_or]
    exact ⟨hbyte (by omega) (by omega), hbyte (by omega) (by omega)⟩
  split
  · simp only [List.mem_cons, List.not_mem_nil, or_false, not_or]
    exact ⟨hbyte (by omega) (by omega), hbyte (by omega) (by omega), hbyte (by omega) (by omega)⟩
  · simp only [List.mem_cons, List.not_mem_nil, or_false, not_or]
    exact ⟨hbyte (by omega) (by omega), hbyte (by omega) (by omega), hbyte (by omega) (by omega),
      hbyte (by omega) (by omega)⟩

/-- The lines of a text are texts. -/
theorem isText_cutLines (cs : List Char) :
    (∀ line ∈ endedLines (encode cs), IsText line) ∧ IsText (lastLine (encode cs)) := by
  unfold endedLines lastLine
  induction cs with
  | nil => exact ⟨List.forall_mem_nil _, isText_encode []⟩
  | cons c cs ih =>
    rw [show encode (c :: cs) = encodeChar c ++ encode cs from rfl]
    have hchar : IsText (encodeChar c) := isText_iff.2 ⟨[c], by simp [encode]⟩
    by_cases hc : c = '\n'
    · subst hc
      rw [show encodeChar '\n' ++ encode cs = newline :: encode cs from rfl, cutLines_newline]
      exact ⟨List.forall_mem_cons.2 ⟨isText_encode ['\n'], ih.1⟩, ih.2⟩
    · rw [cutLines_append_of_not_mem (newline_not_mem_encodeChar hc)]
      generalize cutLines (encode cs) = cut at ih
      obtain ⟨_ | ⟨line, lines⟩, last⟩ := cut
      · exact ⟨List.forall_mem_nil _, hchar.append ih.2⟩
      · obtain ⟨hline, hlines⟩ := List.forall_mem_cons.1 ih.1
        exact ⟨List.forall_mem_cons.2 ⟨hchar.append hline, hlines⟩, ih.2⟩

/-- The lines of a text are texts, and so are those of its beginning that have ended. -/
theorem IsText.endedLines {stream rest line : Bytes} (h : IsText (stream ++ rest))
    (hline : line ∈ Process.endedLines stream) : IsText line := by
  obtain ⟨cs, hcs⟩ := isText_iff.1 h
  refine (isText_cutLines cs).1 line ?_
  rw [← hcs]
  exact (isPrefix_endedLines stream rest).subset hline

theorem IsText.allLines {stream line : Bytes} (h : IsText stream)
    (hline : line ∈ Process.allLines stream) : IsText line := by
  rcases List.mem_append.1 hline with hline | hline
  · exact IsText.endedLines (h.append (isText_encode [])) hline
  · obtain ⟨cs, rfl⟩ := isText_iff.1 h
    split at hline
    · cases hline
    · rw [List.mem_singleton.1 hline]
      exact (isText_cutLines cs).2

/-- **A text** is decoded without loss. -/
theorem ofString_decodeLossy {bytes : Bytes} (h : IsText bytes) :
    ofString (decodeLossy bytes) = bytes := by
  obtain ⟨cs, rfl⟩ := isText_iff.1 h
  have hscan : scan (encode cs) = cs.map some := scanAfter_encode [] cs
  rw [decodeLossy, hscan, List.map_map, ofString, String.toList_ofList]
  exact congrArg encode (List.map_id cs)

end LangBundle.Utf8
