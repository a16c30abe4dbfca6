import LangBundle.Process.World

/-!
# What a process does

A running program is described by what it does next: write to one of the captured streams, say which
ports it holds, look at and change the world, wait, let time pass, start another process, or end.
Descriptions are well-founded trees that branch on what the process sees, and any program that ends
or waits can be described.
-/

namespace LangBundle.Process

/-- What a process does from now on. -/
inductive Behaviour where
  | done (status : ExitStatus)
  | emit (channel : Channel) (data : Bytes) (next : Behaviour)
  /-- Holds these ports from now on and no others. -/
  | hold (ports : List Port) (next : Behaviour)
  /-- Sees the world, changes it, and goes on by what it saw. -/
  | act (change : World → World) (next : World → Behaviour)
  /-- Waits until the world is ready. -/
  | await (isReady : World → Bool) (next : Behaviour)
  | sleep (microseconds : Nat) (next : Behaviour)
  /-- Starts a process that runs beside this one and holds the same ports.  Both sides learn its
  number. -/
  | fork (child : Nat → Behaviour) (next : Nat → Behaviour)

namespace Behaviour

/-- Waits for ever. -/
def hang : Behaviour :=
  .await (fun _ => false) (.done (.exited 0))

/-- The behaviour that goes on with `next` where this one would end by itself. -/
def andThen (next : ExitStatus → Behaviour) : Behaviour → Behaviour
  | .done status => next status
  | .emit channel data rest => .emit channel data (rest.andThen next)
  | .hold ports rest => .hold ports (rest.andThen next)
  | .act change rest => .act change fun w => (rest w).andThen next
  | .await isReady rest => .await isReady (rest.andThen next)
  | .sleep time rest => .sleep time (rest.andThen next)
  | .fork child rest => .fork child fun n => (rest n).andThen next

/-- Going on with the end itself changes nothing. -/
@[simp] theorem andThen_done (b : Behaviour) : b.andThen .done = b := by
  induction b with
  | done status => rfl
  | emit channel data rest ih => rw [andThen, ih]
  | hold ports rest ih => rw [andThen, ih]
  | act change rest ih => rw [andThen, funext ih]
  | await isReady rest ih => rw [andThen, ih]
  | sleep time rest ih => rw [andThen, ih]
  | fork child rest _ ih => rw [andThen, funext ih]

theorem andThen_andThen (f g : ExitStatus → Behaviour) (b : Behaviour) :
    (b.andThen f).andThen g = b.andThen fun status => (f status).andThen g := by
  induction b with
  | done status => rfl
  | emit channel data rest ih => simp only [andThen, ih]
  | hold ports rest ih => simp only [andThen, ih]
  | act change rest ih => simp only [andThen, ih]
  | await isReady rest ih => simp only [andThen, ih]
  | sleep time rest ih => simp only [andThen, ih]
  | fork child rest _ ih => simp only [andThen, ih]

/-- Looks at the world and changes it in one step. -/
def change {α : Type} (f : World → α × World) (next : α → Behaviour) : Behaviour :=
  .act (fun w => (f w).2) fun w => next (f w).1

/-- Looks at the world. -/
def look (next : World → Behaviour) : Behaviour :=
  .act id next

/-- Waits for a process to end and goes on by how it did. -/
def reap (process : Nat) (next : ExitStatus → Behaviour) : Behaviour :=
  .await (fun w => (w.ended? process).isSome)
    (.act (·.forget process) fun w => next ((w.ended? process).getD (.exited 0)))

/-- Starts a process and waits for its end. -/
def call (child : Nat → Behaviour) (next : ExitStatus → Behaviour) : Behaviour :=
  .fork child fun n => reap n next

end Behaviour

/-- A function of the two captured streams. -/
structure PerChannel (α : Type) where
  out : α
  err : α
  deriving Repr, DecidableEq

namespace PerChannel

variable {α : Type}

/-- The value for one stream. -/
def get (p : PerChannel α) : Channel → α
  | .out => p.out
  | .err => p.err

/-- Replaces the value for one stream. -/
def set (p : PerChannel α) : Channel → α → PerChannel α
  | .out, a => { p with out := a }
  | .err, a => { p with err := a }

/-- The same value for both streams. -/
def both (a : α) : PerChannel α :=
  ⟨a, a⟩

@[simp] theorem get_set_self (p : PerChannel α) (c : Channel) (a : α) : (p.set c a).get c = a := by
  cases c <;> rfl

theorem get_set_of_ne (p : PerChannel α) {c d : Channel} (a : α) (h : d ≠ c) :
    (p.set c a).get d = p.get d := by
  cases c <;> cases d <;> first | rfl | exact absurd rfl h

end PerChannel

end LangBundle.Process
