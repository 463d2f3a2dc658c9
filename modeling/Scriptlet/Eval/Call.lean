import Scriptlet.Expr
import Scriptlet.Library.Generic
import Scriptlet.Library.Math
import Scriptlet.Machine

/-!
# Calls

What is called is found before the arguments are evaluated, so a call of
something that is not there fails without evaluating any. Functions are found
by name among the numeric functions, the generic ones and the names of the
context; methods in the fields of an object, in what a host object says it has,
and among the methods of texts and arrays.

Every definition takes the evaluation of subexpressions as an argument. What
they may be is settled only where the whole is put together.

## Main definitions

* `evalAll`: The values of several expressions, from the left.
* `Method`, `findMethod?`: The method of a value that a name means.
* `evalMember`: A member of a value, or the call of one of its methods.
* `callFunction`: The call of a function.
-/

namespace Scriptlet

variable {σ : Type} [Host σ]

/-- The values of several expressions, evaluated from the left. -/
def evalAll (ev : Expr → Eval σ Value) : List Expr → Eval σ (List Value)
  | [] => pure []
  | e :: es => do
    let v ← ev e
    let vs ← evalAll ev es
    pure (v :: vs)

/-! ### Methods -/

/-- What a method call can turn out to call. -/
inductive Method (σ : Type) where
  /-- A function that is a field of an object. -/
  | field (function : FunctionRef)
  /-- A field of an object that is not a function. -/
  | notFunction
  /-- A method of a host object. -/
  | host (receiver : HostRef)
  /-- A method of texts or arrays. -/
  | library (f : Native σ)

/-- The method of a value that a name means. -/
def findMethod? (s : Store σ) (object : Value) (name : String) : Option (Method σ) :=
  match object with
  | .object r =>
    match (s.fields r).get? name with
    | some (.function f) => some (.field f)
    | some _ => some .notFunction
    | none => none
  | .host r => if Host.has s r name then some (.host r) else none
  | .text _ => (TextMethod.method? name).map .library
  | .array _ => (ArrayMethod.method? name).map .library
  | _ => none

/-- Calls a method of a value. -/
def Method.call (method : Method σ) (object : Value) (name : String) (args : List Value)
    (s : Store σ) : Reply σ Value :=
  match method with
  | field f => .ofHost (Host.apply f args s)
  | notFunction => (.error (.notFunction name), s)
  | host r => .ofHost (Host.invoke r name args s)
  | library f => f (object :: args) s

/-- Evaluates the call of a method of a value. -/
def callMethod (ev : Expr → Eval σ Value) (object : Value) (name : String) (args : List Expr)
    (position : Nat) : Eval σ Value := do
  match findMethod? (← Eval.store) object name with
  | none => Eval.fail .reference (.methodNotFound name) position
  | some method => do
    let values ← evalAll ev args
    Eval.reply (method.call object name values) position

/-- Evaluates an access to a member. On the right of it a call is the call of a method; anything
    else is evaluated, and its text names the member. -/
def evalMember (ev : Expr → Eval σ Value) (left right : Expr) : Eval σ Value := do
  let object ← ev left
  if object.isTruthy then
    match right with
    | .call name args mark => callMethod ev object name args mark.position
    | _ => do
      let key ← ev right
      let s ← Eval.store
      pure (object.getMember s (key.toText s))
  else
    Eval.fail .reference (.objectNotFound left.path) left.position

/-! ### Functions -/

/-- Calls what a name of the context stands for. -/
def Context.call (context : Context) (name : String) (args : List Value) (s : Store σ) :
    Reply σ Value :=
  match context.get? name with
  | some (.function f) => .ofHost (Host.apply f args s)
  | _ => (.error (.notFunction name), s)

/-- The library function that a name means. -/
def libraryFunction? (name : String) : Option (Native σ) :=
  (Math.function? name).or (Generic.function? name)

/-- Evaluates the call of a function. A name of the context is looked up again once the arguments
    are there. -/
def callFunction (ev : Expr → Eval σ Value) (name : String) (args : List Expr) (position : Nat) :
    Eval σ Value := do
  let m ← Eval.machine
  match libraryFunction? name with
  | some f => do
    let values ← evalAll ev args
    Eval.reply (f values) position
  | none =>
    if m.context.contains name then do
      let values ← evalAll ev args
      let m ← Eval.machine
      Eval.reply (m.context.call name values) position
    else
      Eval.fail .reference (.functionNotFound name) position

end Scriptlet
