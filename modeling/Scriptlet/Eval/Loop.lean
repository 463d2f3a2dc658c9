import Scriptlet.Expr
import Scriptlet.Machine

/-!
# Conditionals and Loops

Two calls do not evaluate all of their arguments. A conditional evaluates its
condition and the branch that it selects. A loop binds its variable to one
element after another and evaluates its body each time.

The variable lives in the frame. The outermost loop makes the frame and takes
it away again, and loops inside it only add and take away their own variable,
so two loops inside one another cannot use the same name.

A loop over an array looks the array up again at every step, and thus also
visits elements that its body appends. Such a loop may never end, so it is
given a budget of steps.

## Main definitions

* `evalIf`: The evaluation of a conditional.
* `loopArray`, `loopText`: The steps of a loop.
* `evalForeach`: The evaluation of a loop.
-/

namespace Scriptlet

variable {σ : Type}

/-- Evaluates a conditional. -/
def evalIf (ev : Expr → Eval σ Value) (args : List Expr) (position : Nat) : Eval σ Value :=
  match args with
  | condition :: consequence :: more => do
    let v ← ev condition
    if v.isTruthy then
      ev consequence
    else
      match more with
      | otherwise :: _ => ev otherwise
      | [] => pure .undefined
  | _ => Eval.fail .runtime .conditionalArguments position

/-- Evaluates the body for the elements of an array from a place on, in at most `budget` steps. -/
def loopArray (ev : Expr → Eval σ Value) (name : String) (r : ArrayRef) (body : Expr) :
    (budget : Nat) → (place : Nat) → Eval σ Unit
  | 0, _ => Eval.giveUp
  | budget + 1, place => do
    let s ← Eval.store
    match (s.elements r)[place]? with
    | none => pure ()
    | some element => do
      Eval.update (·.bindFrame name element)
      let _ ← ev body
      loopArray ev name r body budget (place + 1)

/-- Evaluates the body for the characters of a text. -/
def loopText (ev : Expr → Eval σ Value) (name : String) (body : Expr) : List Char → Eval σ Unit
  | [] => pure ()
  | c :: cs => do
    Eval.update (·.bindFrame name (.text c.toString))
    let _ ← ev body
    loopText ev name body cs

/-- Evaluates the list of a loop, and the body for each of its elements. -/
def iterate (budget : Nat) (ev : Expr → Eval σ Value) (name : String) (list body : Expr) :
    Eval σ Unit := do
  match ← ev list with
  | .array r => loopArray ev name r body budget 0
  | .text t => loopText ev name body t.toList
  | v => Eval.fail .typing (.notIterable v.type) list.position

/-- Makes a frame if there is none. -/
def Machine.openFrame (m : Machine σ) : Machine σ :=
  if m.frames.isEmpty then { m with frames := .empty :: m.frames } else m

/-- Takes away what a loop added to a machine: the frame if it made it, else its variable. -/
def Machine.closeLoop (outermost : Bool) (name : String) (m : Machine σ) : Machine σ :=
  if outermost then { m with frames := m.frames.tail } else m.unbindFrame name

/-- Evaluates a loop with a variable. -/
def evalLoop (budget : Nat) (ev : Expr → Eval σ Value) (name : String) (position : Nat)
    (list body : Expr) : Eval σ Value := do
  let m ← Eval.machine
  if m.inFrame name then
    Eval.fail .runtime (.loopVariableInUse name) position
  else do
    Eval.update Machine.openFrame
    (iterate budget ev name list body).andFinally (Machine.closeLoop m.frames.isEmpty name)
    pure .undefined

/-- Evaluates a loop. -/
def evalForeach (budget : Nat) (ev : Expr → Eval σ Value) (args : List Expr) (position : Nat) :
    Eval σ Value :=
  match args with
  | [item, list, body] =>
    match item.name? with
    | some name => evalLoop budget ev name item.position list body
    | none => Eval.fail .typing .loopVariableExpected item.position
  | _ => Eval.fail .runtime .loopArguments position

end Scriptlet
