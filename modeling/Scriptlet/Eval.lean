import Scriptlet.Eval.Assign
import Scriptlet.Eval.Call
import Scriptlet.Eval.Loop
import Scriptlet.Token

/-!
# Evaluation

The evaluation of a node is defined in terms of the evaluation of others, and
the whole by how deep expressions may stand inside one another: at depth zero
every expression is nested too deeply, and each further level evaluates nodes
with the level below. Evaluation is thus total without a look at the tree, and
a statement about it needs one lemma about nodes and an induction on depth.

## Main definitions

* `evalNode`: The evaluation of a node, given that of others.
* `eval`: Evaluation to a depth.
* `evaluate`: Evaluation to the depth of the language.
-/

namespace Scriptlet

variable {σ : Type} [Host σ]

/-- Evaluates both operands, from the left. -/
def evalBoth (ev : Expr → Eval σ Value) (left right : Expr) : Eval σ (Value × Value) := do
  let a ← ev left
  let b ← ev right
  pure (a, b)

/-- The product or quotient of two numbers. -/
def evalScaling (op : Operator) (a b : Value) (position : Nat) : Eval σ Value :=
  match a, b with
  | .number x, .number y =>
    if op = .divide then
      if y == 0.0 then Eval.fail .runtime .divisionByZero position else pure (.number (x / y))
    else
      pure (.number (x * y))
  | a, b => Eval.fail .typing (.numbersOnly a.type b.type) position

/-- Evaluates a binary operator other than an assignment and an access to a member. -/
def evalOperator (ev : Expr → Eval σ Value) (op : Operator) (left right : Expr) (position : Nat) :
    Eval σ Value := do
  match op with
  | .multiply | .divide =>
    let (a, b) ← evalBoth ev left right
    evalScaling op a b position
  | .add =>
    let (a, b) ← evalBoth ev left right
    pure (a.add (← Eval.store) b)
  | .subtract =>
    let (a, b) ← evalBoth ev left right
    pure (a.subtract (← Eval.store) b)
  | .remainder =>
    let (a, b) ← evalBoth ev left right
    pure (a.remainder (← Eval.store) b)
  | .and =>
    let (a, b) ← evalBoth ev left right
    pure (a.both b)
  | .or =>
    let (a, b) ← evalBoth ev left right
    pure (a.either b)
  | .equal =>
    let (a, b) ← evalBoth ev left right
    pure (.truth (a.equals b))
  | .unequal =>
    let (a, b) ← evalBoth ev left right
    pure (.truth (!a.equals b))
  | .greater | .less | .atLeast | .atMost =>
    let (a, b) ← evalBoth ev left right
    pure (.truth (Value.compares (← Eval.store) op a b))
  | _ => Eval.fail .runtime (.unknownOperator op) position

/-- Evaluates a node, given the evaluation of others and a budget for the steps of loops. -/
def evalNode (budget : Nat) (ev : Expr → Eval σ Value) : Expr → Eval σ Value
  | .literal value _ => pure (.ofLiteral value)
  | .var name _ => do
    let m ← Eval.machine
    pure (m.lookup name)
  | .unary .not operand _ => do
    let v ← ev operand
    pure (.truth (!v.isTruthy))
  | .unary .increment target m => evalAssign ev target (.step 1.0) m.position
  | .unary .decrement target m => evalAssign ev target (.step (-1.0)) m.position
  | .unary op _ m => Eval.fail .runtime (.unknownOperator op) m.position
  | .binary .assign target right m => evalAssign ev target (.replace right) m.position
  | .binary .addAssign target right m => evalAssign ev target (.add right) m.position
  | .binary .subtractAssign target right m => evalAssign ev target (.subtract right) m.position
  | .binary .dot left right _ => evalMember ev left right
  | .binary .index left right _ => evalMember ev left right
  | .binary op left right m => evalOperator ev op left right m.position
  | .array elements _ => do
    let values ← evalAll ev elements
    Eval.allocate (·.newArray values.toArray)
  | .call "if" args m => evalIf ev args m.position
  | .call "foreach" args m => evalForeach budget ev args m.position
  | .call name args m => callFunction ev name args m.position

/-- Evaluates an expression in which no node stands deeper than `levels`. The machine counts how
    deep evaluation has gone, and the levels are those that it may still go down. -/
def eval (budget : Nat) : (levels : Nat) → Expr → Eval σ Value
  | 0, e => Eval.fail .runtime .nestedTooDeeply e.position
  | levels + 1, e => (evalNode budget (eval budget levels) e).nested

/-- Evaluates an expression. -/
def evaluate (budget : Nat) (e : Expr) : Eval σ Value :=
  eval budget maxNesting e

end Scriptlet
