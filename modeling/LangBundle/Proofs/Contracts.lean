import LangBundle.Host

/-!
# Contracts

A contract says in which states a computation ends, whether it succeeds or fails, if it begins in
certain ones.

* `Ensures`: the contract of a computation.
* `Ensures.bind`: **one after the other**, the first one's successes being the second one's starts.
* `Ensures.look`, `Ensures.onFiles`: looking at files and working on them.
-/

namespace LangBundle

variable {ε σ α β : Type}

/-- From a state with `P` a computation comes to a value and a state with `Q`, or it fails in a
state with `E`. -/
structure Ensures (P : σ → Prop) (x : EStateM ε σ α) (Q : α → σ → Prop) (E : σ → Prop) : Prop where
  ends : ∀ s, P s → match x s with
    | .ok a s' => Q a s'
    | .error _ s' => E s'

namespace Ensures

variable {P P' E E' : σ → Prop} {Q Q' : α → σ → Prop} {R : β → σ → Prop} {x : EStateM ε σ α}
  {k : α → EStateM ε σ β} {s s' : σ}

theorem of_ok (h : Ensures P x Q E) (hs : P s) {a : α} (hx : x s = .ok a s') : Q a s' := by
  have hend := h.ends s hs
  rwa [hx] at hend

theorem of_error (h : Ensures P x Q E) (hs : P s) {e : ε} (hx : x s = .error e s') : E s' := by
  have hend := h.ends s hs
  rwa [hx] at hend

theorem imp (h : Ensures P x Q E) (hP : ∀ s, P' s → P s) (hQ : ∀ a s, Q a s → Q' a s)
    (hE : ∀ s, E s → E' s) : Ensures P' x Q' E' := by
  refine ⟨fun s hs => ?_⟩
  have hend := h.ends s (hP s hs)
  rcases hx : x s with ⟨a, s'⟩ | ⟨e, s'⟩
  · rw [hx] at hend
    exact hQ a s' hend
  · rw [hx] at hend
    exact hE s' hend

theorem pure {a : α} (h : ∀ s, P s → Q a s) : Ensures P (pure a : EStateM ε σ α) Q E :=
  ⟨h⟩

theorem throw {e : ε} (h : ∀ s, P s → E s) : Ensures P (throw e : EStateM ε σ α) Q E :=
  ⟨h⟩

/-- **One after the other.** -/
theorem bind (hx : Ensures P x Q E) (hk : ∀ a, Ensures (Q a) (k a) R E) :
    Ensures P (x >>= k) R E := by
  refine ⟨fun s hs => ?_⟩
  have hfirst := hx.ends s hs
  rcases hxs : x s with ⟨a, s'⟩ | ⟨e, s'⟩
  · rw [hxs] at hfirst
    rw [Service.bind_of_ok hxs]
    exact (hk a).ends s' hfirst
  · rw [hxs] at hfirst
    rw [Service.bind_of_error hxs]
    exact hfirst

/-- An error that is told in other words. -/
theorem adaptExcept {ε' : Type} {f : ε → ε'} (h : Ensures P x Q E) :
    Ensures P (x.adaptExcept f) Q E := by
  refine ⟨fun s hs => ?_⟩
  have hend := h.ends s hs
  rcases hx : x s with ⟨a, s'⟩ | ⟨e, s'⟩
  · rw [hx] at hend
    simpa only [EStateM.adaptExcept, hx] using hend
  · rw [hx] at hend
    simpa only [EStateM.adaptExcept, hx] using hend

/-- What only looks at the files keeps everything. -/
theorem look {P : Host → Prop} {path : String}
    {op : Files.Tree → Files.Place → Except Files.Fault α} :
    Ensures P (Service.look path op) (fun _ => P) P := by
  refine ⟨fun h hP => ?_⟩
  unfold Service.look
  rcases op h.files h.cwd with fault | a
  · exact hP
  · exact hP

/-- An operation on the files does what its successes do to the tree. -/
theorem onFiles {P E : Host → Prop} {Q : α → Host → Prop} {path : String}
    {op : Files.Tree → Files.Place → Except Files.Fault (α × Files.Tree)} (hfail : ∀ h, P h → E h)
    (hok : ∀ h a t, P h → op h.files h.cwd = .ok (a, t) → Q a { h with files := t }) :
    Ensures P (Service.onFiles path op) Q E := by
  refine ⟨fun h hP => ?_⟩
  unfold Service.onFiles
  rcases hop : op h.files h.cwd with fault | ⟨a, t⟩
  · exact hfail h hP
  · exact hok h a t hP hop

end Ensures

end LangBundle
