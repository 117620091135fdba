/-
  Reliable streams, abstractly.

  A `Pipe` has two ends: what has been put in at one, and what has come out at the other.  The
  second is a prefix of the first, and the type says so: a pipe that loses, repeats or reorders
  cannot be built.  `push` puts more in, `pull n` takes the next `n` elements out.  A program whose
  runs are simulated by pipes delivers in order whatever it does in between.

  A `Duplex` is a pipe in each direction between two parties.
-/
import Ctcp.Lib.Runs

namespace Pipes

variable {α : Type}

/-- A stream in one direction. -/
structure Pipe (α : Type) where
  sent : List α
  delivered : List α
  inOrder : delivered <+: sent

/-- The empty pipe. -/
def Pipe.empty : Pipe α := ⟨[], [], List.prefix_refl _⟩

/-- Put `xs` in. -/
def Pipe.push (p : Pipe α) (xs : List α) : Pipe α :=
  ⟨p.sent ++ xs, p.delivered, p.inOrder.trans (List.prefix_append _ _)⟩

/-- Take the next `n` elements out (fewer, if there are fewer). -/
def Pipe.pull (p : Pipe α) (n : Nat) : Pipe α :=
  ⟨p.sent, p.sent.take (p.delivered.length + n), List.take_prefix _ _⟩

/-- What is pulled is what comes next. -/
theorem Pipe.pull_delivered (p : Pipe α) {xs : List α} (h : p.delivered ++ xs <+: p.sent) :
    (p.pull xs.length).delivered = p.delivered ++ xs := by
  have hlen : (p.delivered ++ xs).length = p.delivered.length + xs.length := List.length_append
  show p.sent.take (p.delivered.length + xs.length) = p.delivered ++ xs
  rw [← hlen]
  exact (List.prefix_iff_eq_take.mp h).symm

/-- The two parties. -/
inductive Side where
  | a
  | b
  deriving DecidableEq, Repr

/-- The other party. -/
def Side.other : Side → Side
  | .a => .b
  | .b => .a

@[simp] theorem Side.other_other (side : Side) : side.other.other = side := by cases side <;> rfl

/-- There are two parties. -/
theorem Side.eq_or_other (side side' : Side) : side' = side ∨ side' = side.other := by
  cases side <;> cases side' <;> simp [Side.other]

theorem Side.forall_iff {p : Side → Prop} : (∀ side, p side) ↔ p .a ∧ p .b :=
  ⟨fun h => ⟨h .a, h .b⟩, fun ⟨ha, hb⟩ side => match side with | .a => ha | .b => hb⟩

/-- A stream from `a` to `b` and one from `b` to `a`, named after the party that puts in. -/
structure Duplex (α : Type) where
  a : Pipe α
  b : Pipe α

/-- A party puts elements in, or takes the next ones out of the stream from the other. -/
inductive Op (α : Type) where
  | push (xs : List α)
  | pull (n : Nat)

namespace Duplex

/-- The stream that starts at `side`. -/
def stream (d : Duplex α) : Side → Pipe α
  | .a => d.a
  | .b => d.b

/-- Both streams are empty. -/
def empty : Duplex α := ⟨.empty, .empty⟩

/-- One step of one party. -/
def step (d : Duplex α) : Side × Op α → Duplex α
  | (.a, .push xs) => { d with a := d.a.push xs }
  | (.b, .push xs) => { d with b := d.b.push xs }
  | (.a, .pull n) => { d with b := d.b.pull n }
  | (.b, .pull n) => { d with a := d.a.pull n }

/-- **A party that puts `xs` in and takes `ys` out.** -/
theorem run_push_pull (d : Duplex α) (side : Side) (xs : List α) {ys : List α}
    (h : (d.stream side.other).delivered ++ ys <+: (d.stream side.other).sent) :
    let d' := Runs.run step d [(side, .push xs), (side, .pull ys.length)]
    (d'.stream side).sent = (d.stream side).sent ++ xs ∧
      (d'.stream side).delivered = (d.stream side).delivered ∧
      (d'.stream side.other).sent = (d.stream side.other).sent ∧
      (d'.stream side.other).delivered = (d.stream side.other).delivered ++ ys := by
  cases side with
  | a => exact ⟨rfl, rfl, rfl, Pipe.pull_delivered _ h⟩
  | b => exact ⟨rfl, rfl, rfl, Pipe.pull_delivered _ h⟩

end Duplex

end Pipes
