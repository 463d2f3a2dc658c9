import Scriptlet.Context
import Scriptlet.Fault
import Scriptlet.Member

/-!
# Machines

Evaluation changes a machine: the store, the names of the context, and the
variables of running loops. These are kept in frames above the context, of
which only the top one counts. The machine also counts the nodes that are being
evaluated, one inside the other.

An evaluation has three ways to end. It gives a value, it fails, or it is given
up because a loop went on for longer than the budget of steps that it was
allowed. What it did to the machine until then stays done, whichever it is.

## Main definitions

* `Machine`: The state of evaluation.
* `Machine.lookup`: What a name stands for.
* `Outcome`: How an evaluation ends.
* `Eval`: Evaluations, which change the machine and have an outcome.
* `Eval.fail`, `Eval.reply`, `Eval.andFinally`: Failing, asking the store, and cleaning up.
* `Eval.nested`: An evaluation that is counted while it goes on.
-/

namespace Scriptlet

/-- The state of evaluation. The frames have the variables of running loops, the top one first. -/
structure Machine (σ : Type) where
  store : Store σ
  context : Context
  frames : List (Record Value) := []
  depth : Nat := 0

namespace Machine

variable {σ : Type}

/-- Whether a name is the variable of a running loop. -/
def inFrame (m : Machine σ) (name : String) : Bool :=
  m.frames.head?.any (·.contains name)

/-- What a name stands for: the variable of a running loop first, then the context. -/
def lookup (m : Machine σ) (name : String) : Value :=
  ((m.frames.head?.bind (·.get? name)).or (m.context.get? name)).getD .undefined

/-- Gives a value to a loop variable. -/
def bindFrame (m : Machine σ) (name : String) (value : Value) : Machine σ :=
  { m with frames := m.frames.modifyHead (·.insert name value) }

/-- Takes a loop variable away. -/
def unbindFrame (m : Machine σ) (name : String) : Machine σ :=
  { m with frames := m.frames.modifyHead (·.erase name) }

/-- Gives a value to a name of the context. -/
def bindContext (m : Machine σ) (name : String) (value : Value) : Machine σ :=
  { m with context := m.context.insert name value }

/-- The number of frames. -/
def frameDepth (m : Machine σ) : Nat :=
  m.frames.length

/-- Counts a node whose evaluation begins. -/
def enter (m : Machine σ) : Machine σ :=
  { m with depth := m.depth + 1 }

/-- Counts off a node whose evaluation ends. -/
def leave (m : Machine σ) : Machine σ :=
  { m with depth := m.depth - 1 }

end Machine

/-- How an evaluation ends. -/
inductive Outcome (α : Type) where
  | value (a : α)
  | failed (e : Fault)
  | unfinished
deriving DecidableEq

/-- Evaluations, which change a machine and end somehow. -/
def Eval (σ α : Type) : Type :=
  Machine σ → Outcome α × Machine σ

namespace Eval

variable {σ α β : Type}

/-- The evaluation that only gives a value. -/
protected def pure (a : α) : Eval σ α := fun m =>
  (.value a, m)

/-- One evaluation after another, if the first gives a value. -/
protected def bind (x : Eval σ α) (f : α → Eval σ β) : Eval σ β := fun m =>
  match x m with
  | (.value a, m) => f a m
  | (.failed e, m) => (.failed e, m)
  | (.unfinished, m) => (.unfinished, m)

instance : Monad (Eval σ) where
  pure := Eval.pure
  bind := Eval.bind

/-- Fails with a fault of a kind, for a cause and at a place. -/
def fail (kind : IssueKind) (cause : Cause) (position : Nat) : Eval σ α := fun m =>
  (.failed ⟨kind, cause, position⟩, m)

/-- Gives up. -/
def giveUp : Eval σ α := fun m =>
  (.unfinished, m)

/-- The machine as it is. -/
def machine : Eval σ (Machine σ) := fun m =>
  (.value m, m)

/-- The store as it is. -/
def store : Eval σ (Store σ) := fun m =>
  (.value m.store, m)

/-- Changes the machine. -/
def update (f : Machine σ → Machine σ) : Eval σ Unit := fun m =>
  (.value (), f m)

/-- Performs an operation on values. A refusal is blamed on a place. -/
def reply (operation : Store σ → Reply σ α) (position : Nat) : Eval σ α := fun m =>
  match operation m.store with
  | (.ok a, s) => (.value a, { m with store := s })
  | (.error refusal, s) => (.failed ⟨.runtime, .refused refusal, position⟩, { m with store := s })

/-- Adds to the store. -/
def allocate (add : Store σ → α × Store σ) : Eval σ α := fun m =>
  let (a, s) := add m.store
  (.value a, { m with store := s })

/-- An evaluation and a change of the machine after it, however it ends. -/
def andFinally (x : Eval σ α) (f : Machine σ → Machine σ) : Eval σ α := fun m =>
  let (outcome, m) := x m
  (outcome, f m)

/-- An evaluation that is counted while it goes on. -/
def nested (x : Eval σ α) : Eval σ α := do
  update Machine.enter
  x.andFinally Machine.leave

/-- An evaluation whose errors are seen from the start of a longer text. -/
def shifted (offset : Nat) (x : Eval σ α) : Eval σ α := fun m =>
  match x m with
  | (.failed e, m) => (.failed (e.shift offset), m)
  | result => result

end Eval

end Scriptlet
