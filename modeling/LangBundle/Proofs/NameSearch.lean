import Mathlib.Data.List.Induction
import LangBundle.Proofs.Assembling
import LangBundle.Proofs.NameLimits

/-!
# The search for a name that is free

The name of an entry is looked for without a bound: a name that is taken gives way to the next one.
The search ends all the same, for the names that are taken are finitely many and no two of those that
are tried are equal.  What it ends with does not depend on anything behind the entry.

* `Bundle.Search`: the search for one name; `Bundle.Search.iff_eq_freeName`: **it ends with one name**.
* `Bundle.NameSearches`: the searches for all names; `Bundle.nameSearches_iff`: **they end with one
  list**.
* `Bundle.entryNames_concat`: **the name of the last artifact** stands behind those of the others.
* `Bundle.entryNames_characterized`: all that is known of the names of entries.
-/

namespace LangBundle.Bundle

/-! ## One name -/

section
variable {taken : List String} {label entryName name : String}

/-- The search for a name that is free from a candidate on: **a name that is taken gives way to the
next one**. -/
inductive Search (taken : List String) (label entryName : String) : Nat → String → Prop
  | free {n : Nat} (hfree : candidate label entryName n ∉ taken) :
      Search taken label entryName n (candidate label entryName n)
  | next {n : Nat} {name : String} (htaken : candidate label entryName n ∈ taken)
      (hrest : Search taken label entryName (n + 1) name) : Search taken label entryName n name

/-- A search gets behind names that are taken. -/
theorem Search.of_taken {m n : Nat} (hrest : Search taken label entryName n name) (hle : m ≤ n)
    (htaken : ∀ k, m ≤ k → k < n → candidate label entryName k ∈ taken) :
    Search taken label entryName m name := by
  induction hle using Nat.decreasingInduction with
  | self => exact hrest
  | of_succ k hlt ih =>
    exact .next (htaken k le_rfl hlt) (ih fun j hj => htaken j (Nat.le_of_succ_le hj))

/-- A search ends with one name only. -/
theorem Search.unique {n : Nat} {other : String} (h : Search taken label entryName n name)
    (hother : Search taken label entryName n other) : name = other := by
  induction h with
  | free hfree =>
    cases hother with
    | free => rfl
    | next htaken => exact absurd htaken hfree
  | next htaken _ ih =>
    cases hother with
    | free hfree => exact absurd htaken hfree
    | next _ hrest => exact ih hrest

/-- **The search for a name** ends, and does so with the first one that is free. -/
theorem Search.iff_eq_freeName :
    Search taken label entryName 0 name ↔ name = freeName taken label entryName := by
  have hends : Search taken label entryName 0 (freeName taken label entryName) := by
    obtain ⟨n, hname, hfree, hbefore⟩ := freeName_eq_candidate taken label entryName
    rw [hname]
    exact (Search.free hfree).of_taken (Nat.zero_le n) fun k _ => hbefore k
  exact ⟨fun h => h.unique hends, fun h => h ▸ hends⟩

/-- The order of the names that are taken does not count, nor how often one of them is there. -/
theorem freeName_congr {taken' : List String} (hmem : ∀ x, x ∈ taken' ↔ x ∈ taken) :
    freeName taken' label entryName = freeName taken label entryName := by
  have hcarry {n : Nat} {name : String} (h : Search taken label entryName n name) :
      Search taken' label entryName n name := by
    induction h with
    | free hfree => exact .free (mt (hmem _).1 hfree)
    | next htaken _ ih => exact .next ((hmem _).2 htaken) ih
  exact (Search.iff_eq_freeName.1 (hcarry (Search.iff_eq_freeName.2 rfl))).symm

end

/-! ## All names -/

/-- The searches for the names of artifacts, one after the other: **a name that is found is taken from
then on**. -/
inductive NameSearches : List String → List Artifact → List String → Prop
  | done {taken : List String} : NameSearches taken [] taken.reverse
  | next {taken names : List String} {a : Artifact} {name : String} {rest : List Artifact}
      (hsearch : Search taken a.label a.entryName 0 name)
      (hrest : NameSearches (name :: taken) rest names) : NameSearches taken (a :: rest) names

theorem nameSearches_iff_after {taken names : List String} {artifacts : List Artifact} :
    NameSearches taken artifacts names ↔ names = entryNamesAfter taken artifacts := by
  constructor
  · intro h
    induction h with
    | done => rfl
    | next hsearch _ ih =>
      rw [entryNamesAfter, ← Search.iff_eq_freeName.1 hsearch]
      exact ih
  · rintro rfl
    induction artifacts generalizing taken with
    | nil => exact .done
    | cons a rest ih => exact .next (Search.iff_eq_freeName.2 rfl) ih

/-- **The searches for all names** end, and do so with the names of the entries. -/
theorem nameSearches_iff {artifacts : List Artifact} {names : List String} :
    NameSearches [] artifacts names ↔ names = entryNames artifacts :=
  nameSearches_iff_after

/-- **The name of the last artifact** is looked for behind the names of the others, which it does not
change. -/
theorem entryNames_concat (artifacts : List Artifact) (a : Artifact) :
    entryNames (artifacts ++ [a]) =
      entryNames artifacts ++ [freeName (entryNames artifacts) a.label a.entryName] := by
  have hafter (taken : List String) : entryNamesAfter taken (artifacts ++ [a]) =
      entryNamesAfter taken artifacts ++
        [freeName (entryNamesAfter taken artifacts) a.label a.entryName] := by
    induction artifacts generalizing taken with
    | nil =>
      rw [List.nil_append, entryNamesAfter, entryNamesAfter, entryNamesAfter, List.reverse_cons,
        freeName_congr fun _ => List.mem_reverse]
    | cons b rest ih =>
      rw [List.cons_append, entryNamesAfter, ih, entryNamesAfter]
  exact hafter []

/-- The names of the first artifacts are the first names. -/
theorem entryNames_take (artifacts : List Artifact) (n : Nat) :
    entryNames (artifacts.take n) = (entryNames artifacts).take n := by
  induction artifacts using List.reverseRecOn with
  | nil => simp [entryNames, entryNamesAfter]
  | append_singleton front a ih =>
    by_cases hn : n ≤ front.length
    · rw [List.take_append_of_le_length hn, entryNames_concat,
        List.take_append_of_le_length (hn.trans_eq (length_entryNames front).symm), ih]
    · have hall : (front ++ [a]).length ≤ n := by
        rw [List.length_append, List.length_singleton]
        omega
      rw [List.take_of_length_le hall,
        List.take_of_length_le ((length_entryNames (front ++ [a])).trans_le hall)]

/-- The name of an artifact is looked for behind those of the artifacts before it. -/
theorem getElem?_entryNames {artifacts : List Artifact} {i : Nat} {a : Artifact}
    (h : artifacts[i]? = some a) :
    (entryNames artifacts)[i]? =
      some (freeName ((entryNames artifacts).take i) a.label a.entryName) := by
  obtain ⟨hlt, -⟩ := List.getElem?_eq_some_iff.1 h
  have hsplit : artifacts.take (i + 1) = artifacts.take i ++ [a] := by
    rw [List.take_add_one, h, Option.toList_some]
  have hlength : (entryNames (artifacts.take i)).length = i := by
    rw [length_entryNames, List.length_take_of_le hlt.le]
  have hnames := entryNames_take artifacts (i + 1)
  rw [hsplit, entryNames_concat] at hnames
  rw [← entryNames_take, ← List.getElem?_take_of_succ, ← hnames,
    List.getElem?_append_right hlength.le, hlength, Nat.sub_self, List.getElem?_cons_zero]

/-- How a name comes about that is not the artifact's own one: **its label in front, and a number from
two on behind the label** if that is taken as well. -/
inductive Prefixed (earlier : List String) (label entryName : String) : String → Prop
  | labelled (hfree : label ++ "-" ++ entryName ∉ earlier) :
      Prefixed earlier label entryName (label ++ "-" ++ entryName)
  | numbered {n : Nat} (hlow : 2 ≤ n) (hhigh : n ≤ earlier.length)
      (hfree : label ++ "-" ++ toString n ++ "-" ++ entryName ∉ earlier)
      (hlabelled : label ++ "-" ++ entryName ∈ earlier)
      (hbefore : ∀ m, 2 ≤ m → m < n → label ++ "-" ++ toString m ++ "-" ++ entryName ∈ earlier) :
      Prefixed earlier label entryName (label ++ "-" ++ toString n ++ "-" ++ entryName)

/-- **A name that is free** is the artifact's own one, or has the label in front. -/
theorem freeName_cases (earlier : List String) (label entryName : String) :
    entryName ∉ earlier ∧ freeName earlier label entryName = entryName ∨
      entryName ∈ earlier ∧ Prefixed earlier label entryName (freeName earlier label entryName) := by
  obtain ⟨n, hname, hfree, hbefore⟩ := freeName_eq_candidate earlier label entryName
  obtain ⟨k, hk, hname'⟩ := exists_candidate_eq_freeName earlier label entryName
  obtain rfl : n = k := candidate_injective label entryName (hname.symm.trans hname')
  rw [hname]
  match n with
  | 0 => exact .inl ⟨hfree, rfl⟩
  | 1 => exact .inr ⟨hbefore 0 Nat.one_pos, .labelled hfree⟩
  | n + 2 =>
    refine .inr ⟨hbefore 0 (Nat.succ_pos _), .numbered (Nat.le_add_left 2 n) hk hfree
      (hbefore 1 (by omega)) fun m hlow hm => ?_⟩
    obtain ⟨m, rfl⟩ := Nat.exists_eq_add_of_le' hlow
    exact hbefore (m + 2) hm

/-- **All that is known of the names of entries**: the searches for them end; there is one for each
artifact, and no two are equal; the first artifacts would be called the same without the others; an
artifact is called by its own name exactly if no earlier one is, and otherwise by the first name with
its label in front that is free. -/
theorem entryNames_characterized (artifacts : List Artifact) :
    NameSearches [] artifacts (entryNames artifacts) ∧
      (entryNames artifacts).length = artifacts.length ∧
      (entryNames artifacts).Nodup ∧
      (∀ n, entryNames (artifacts.take n) = (entryNames artifacts).take n) ∧
      ∀ (i : Nat) (a : Artifact), artifacts[i]? = some a →
        ∃ name, (entryNames artifacts)[i]? = some name ∧
          (name = a.entryName ↔ a.entryName ∉ (entryNames artifacts).take i) ∧
          (name ≠ a.entryName →
            Prefixed ((entryNames artifacts).take i) a.label a.entryName name) := by
  refine ⟨nameSearches_iff.2 rfl, length_entryNames artifacts, nodup_entryNames artifacts,
    entryNames_take artifacts, fun i a ha => ?_⟩
  have hchosen := chosen_freeName ((entryNames artifacts).take i) a.label a.entryName
  refine ⟨_, getElem?_entryNames ha, ⟨fun heq => heq ▸ hchosen.free, hchosen.own⟩, fun hne => ?_⟩
  obtain ⟨-, hown⟩ | ⟨-, hprefixed⟩ :=
    freeName_cases ((entryNames artifacts).take i) a.label a.entryName
  · exact absurd hown hne
  · exact hprefixed

/-- A name that looks as if a label stood in front of it can be taken by another artifact. -/
example : entryNames [⟨"a", "1", "x"⟩, ⟨"b", "2", "a-x"⟩, ⟨"a", "3", "x"⟩, ⟨"", "4", ""⟩, ⟨"", "5", ""⟩,
    ⟨"a", "6", "x"⟩] = ["x", "a-x", "a-2-x", "", "-", "a-3-x"] := by
  decide +kernel

end LangBundle.Bundle
