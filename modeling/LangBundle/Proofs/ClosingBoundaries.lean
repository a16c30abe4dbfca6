import Mathlib.Data.Nat.Find
import LangBundle.Http.Multipart

/-!
# Where a multipart body closes

A body is read from its beginning, so once its closing boundary is there, it does not count what
comes behind it.

* `Multipart.cut?_append`: a mark that was found stays where it is.
* `Multipart.read_append`: **a body that is closed** reads the same, whatever comes behind it.
* `Multipart.ClosesAt`: the length of a body with its closing boundary.
-/

namespace LangBundle.Http.Multipart

/-! ## What comes behind -/

section
variable {mark before x a b : Bytes}

theorem length_le_of_cutAfter? (h : cutAfter? mark before x = some (a, b)) :
    mark.length ≤ x.length := by
  induction x generalizing before with
  | nil =>
    rw [cutAfter?] at h
    split at h
    · next hempty => simp [List.isEmpty_iff.1 hempty]
    · cases h
  | cons c rest ih =>
    rw [cutAfter?] at h
    split at h
    · next hmark => exact (List.isPrefixOf_iff_prefix.1 hmark).length_le
    · exact Nat.le_succ_of_le (ih h)

/-- A text that is long enough begins with a mark, or it does not, whatever comes behind it. -/
theorem isPrefixOf_append (h : mark.length ≤ x.length) (y : Bytes) :
    mark.isPrefixOf (x ++ y) = mark.isPrefixOf x := by
  rw [Bool.eq_iff_iff, List.isPrefixOf_iff_prefix, List.isPrefixOf_iff_prefix]
  exact ⟨fun hmark => List.prefix_of_prefix_length_le hmark (List.prefix_append x y) h,
    fun hmark => hmark.trans (List.prefix_append x y)⟩

theorem cutAfter?_append (h : cutAfter? mark before x = some (a, b)) (y : Bytes) :
    cutAfter? mark before (x ++ y) = some (a, b ++ y) := by
  induction x generalizing before with
  | nil =>
    rw [cutAfter?] at h
    split at h
    · next hempty =>
      cases h
      rw [List.isEmpty_iff.1 hempty]
      cases y with
      | nil => rfl
      | cons c rest => simp [cutAfter?]
    · cases h
  | cons c rest ih =>
    have hlength := length_le_of_cutAfter? h
    have hmark := isPrefixOf_append hlength y
    rw [cutAfter?] at h
    rw [List.cons_append] at hmark ⊢
    rw [cutAfter?, hmark]
    split at h
    · next hhere =>
      cases h
      rw [if_pos hhere, ← List.cons_append, List.drop_append_of_le_length hlength]
    · next hnot =>
      rw [if_neg hnot]
      exact ih h

/-- A mark that was found stays where it is. -/
theorem cut?_append (h : cut? mark x = some (a, b)) (y : Bytes) :
    cut? mark (x ++ y) = some (a, b ++ y) :=
  cutAfter?_append h y

theorem behind?_append (h : behind? mark x = some b) (y : Bytes) :
    behind? mark (x ++ y) = some (b ++ y) := by
  rw [behind?] at h ⊢
  split at h
  · next hmark =>
    cases h
    have hprefix := List.isPrefixOf_iff_prefix.1 hmark
    rw [isPrefixOf_append hprefix.length_le, if_pos hmark,
      List.drop_append_of_le_length hprefix.length_le]
  · cases h

end

/-- What begins with blanks and a line end does not close a body. -/
theorem not_closing_of_line {x b : Bytes} (h : behind? crlf (x.dropWhile isBlankByte) = some b)
    (y : Bytes) : [0x2D, 0x2D].isPrefixOf (x ++ y) = false := by
  cases x with
  | nil => cases h
  | cons c rest =>
    have hc : c ≠ 0x2D := by
      rintro rfl
      cases h
    simp [List.isPrefixOf, Ne.symm hc]

theorem dropWhile_append_of_line {x b : Bytes}
    (h : behind? crlf (x.dropWhile isBlankByte) = some b) (y : Bytes) :
    (x ++ y).dropWhile isBlankByte = x.dropWhile isBlankByte ++ y := by
  rw [List.dropWhile_append, if_neg]
  intro hempty
  rw [List.isEmpty_iff.1 hempty] at h
  cases h

theorem readAfter_append {mark : Bytes} {fuel fuel' : Nat} {before parts : List Part} {x : Bytes}
    (h : readAfter mark fuel before x = (parts, none)) (hfuel : fuel ≤ fuel') (y : Bytes) :
    readAfter mark fuel' before (x ++ y) = (parts, none) := by
  induction fuel generalizing fuel' before x with
  | zero => cases h
  | succ fuel ih =>
    obtain ⟨fuel', rfl⟩ : ∃ n, fuel' = n + 1 := ⟨fuel' - 1, by omega⟩
    rw [readAfter] at h ⊢
    split at h
    · next hclosing =>
      have hprefix := List.isPrefixOf_iff_prefix.1 hclosing
      rw [isPrefixOf_append hprefix.length_le, if_pos hclosing]
      exact h
    split at h
    · cases h
    next line hline =>
    rw [not_closing_of_line hline y, if_neg Bool.false_ne_true, dropWhile_append_of_line hline,
      behind?_append hline]
    dsimp only
    split at h
    · cases h
    next block rest hblock =>
    rw [cut?_append hblock]
    dsimp only
    split at h
    · cases h
    next headers hheaders =>
    dsimp only at h ⊢
    split at h
    · cases h
    split at h
    · cases h
    next data more hdata =>
    rw [cut?_append hdata]
    exact ih h (Nat.le_of_succ_le_succ hfuel)

/-- **A body that is closed** reads the same, whatever comes behind it. -/
theorem read_append {boundary : String} {x : Bytes} (h : (read boundary x).2 = none) (y : Bytes) :
    read boundary (x ++ y) = read boundary x := by
  rw [read] at h ⊢
  rw [read]
  split at h
  · cases h
  next before rest hmark =>
  rw [cut?_append hmark]
  dsimp only
  have hread : readAfter (Utf8.ofString ("--" ++ boundary)) (rest.length + 1) [] rest =
      ((readAfter (Utf8.ofString ("--" ++ boundary)) (rest.length + 1) [] rest).1, none) :=
    Prod.ext rfl h
  rw [hread]
  exact readAfter_append hread (by simp) y

/-! ## The closing boundary -/

/-- A body has this length up to its closing boundary and with it: so much of it is closed, and no
less. -/
structure ClosesAt (boundary : String) (body : Bytes) (n : Nat) : Prop where
  le : n ≤ body.length
  closed : (read boundary (body.take n)).2 = none
  first : ∀ m < n, (read boundary (body.take m)).2 ≠ none

/-- A body of which some beginning is closed has such a length. -/
theorem exists_closesAt {boundary : String} {body x : Bytes} (hx : x <+: body)
    (hclosed : (read boundary x).2 = none) :
    ∃ n, ClosesAt boundary body n ∧ n ≤ x.length := by
  have htake : body.take x.length = x := (List.prefix_iff_eq_take.1 hx).symm
  have hexists : ∃ n, (read boundary (body.take n)).2 = none := ⟨x.length, by rwa [htake]⟩
  have hle : Nat.find hexists ≤ x.length := Nat.find_min' hexists (by rwa [htake])
  exact ⟨Nat.find hexists, ⟨le_trans hle hx.length_le, Nat.find_spec hexists,
    fun m hm => Nat.find_min hexists hm⟩, hle⟩

/-- **From there on** what has come of a body is closed, and it reads the same. -/
theorem ClosesAt.closed_iff {boundary : String} {body : Bytes} {n : Nat}
    (h : ClosesAt boundary body n) (m : Nat) :
    (read boundary (body.take m)).2 = none ↔ n ≤ m := by
  constructor
  · intro hclosed
    exact Nat.le_of_not_lt fun hlt => h.first m hlt hclosed
  · intro hle
    obtain ⟨rest, hrest⟩ := List.take_prefix_take_left (l := body) hle
    rw [← hrest, read_append h.closed]
    exact h.closed

end LangBundle.Http.Multipart
