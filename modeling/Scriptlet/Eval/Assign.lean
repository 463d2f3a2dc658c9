import Scriptlet.Expr.Source
import Scriptlet.Machine
import Scriptlet.Value.Arithmetic

/-!
# Assignments

An assignment writes only to what is there: a loop variable, a name of the
context, or a member. What is written to is found first, then the right side is
evaluated, then the old value is read if it is needed, and then the new one is
written. The right side may do anything in between, also to what was found.

## Main definitions

* `Slot`: What can be assigned to.
* `resolve`: The slot that an expression means.
* `Machine.readSlot`, `writeSlot`: The contents of a slot.
* `Update`: What an assignment makes of the old value and the right side.
* `evalAssign`: The evaluation of an assignment.
-/

namespace Scriptlet

variable {σ : Type} [Host σ]

/-- What can be assigned to. -/
inductive Slot where
  | frame (name : String)
  | context (name : String)
  | member (object : Value) (key : String)
deriving DecidableEq

/-- An expression that cannot be assigned to, in words. -/
def describeTarget (target : Expr) : String :=
  match target.operator? with
  | some op => op.symbol
  | none => target.source

/-- The slot of a name. -/
def resolveName (name : String) (position : Nat) : Eval σ Slot := do
  let m ← Eval.machine
  if m.inFrame name then pure (.frame name)
  else if m.context.contains name then pure (.context name)
  else Eval.fail .reference (.targetNotFound name) position

/-- The slot of a member. -/
def resolveMember (ev : Expr → Eval σ Value) (left right : Expr) : Eval σ Slot := do
  let object ← ev left
  let key ← ev right
  let s ← Eval.store
  let key := key.toText s
  if object.isTruthy then
    if object.hasMember s key then pure (.member object key)
    else Eval.fail .reference (.targetNotFound key) right.position
  else
    Eval.fail .reference (.targetObjectNotFound left.path) left.position

/-- The slot that an expression means, which has to be there. -/
def resolve (ev : Expr → Eval σ Value) (target : Expr) : Eval σ Slot :=
  match target with
  | .var name mark => resolveName name mark.position
  | .binary .dot left right _ => resolveMember ev left right
  | .binary .index left right _ => resolveMember ev left right
  | _ => Eval.fail .typing (.notAssignable (describeTarget target)) target.position

/-- The contents of a slot. -/
def Machine.readSlot (m : Machine σ) : Slot → Value
  | .frame name | .context name => m.lookup name
  | .member object key => object.getMember m.store key

/-- Writes to a slot. The host may refuse to have a name of the context given a value. -/
def writeSlot (slot : Slot) (value : Value) (position : Nat) : Eval σ Unit :=
  match slot with
  | .frame name => Eval.update (·.bindFrame name value)
  | .context name => do
    match Host.guardValue (← Eval.store) name value with
    | some reason => Eval.fail .runtime (.refused (.byHost reason)) position
    | none => Eval.update (·.bindContext name value)
  | .member object key => Eval.reply (object.setMember key value) position

/-- What an assignment makes of the old value of its slot. -/
inductive Update where
  /-- The right side takes the place of the old value. -/
  | replace (right : Expr)
  /-- The right side is added to the old value. -/
  | add (right : Expr)
  /-- The right side is taken from the old value. -/
  | subtract (right : Expr)
  /-- The old value, as a number, changes by a step; it is also the value of the assignment. -/
  | step (change : Float)

/-- The value of the right side of an update. -/
def Update.right (ev : Expr → Eval σ Value) : Update → Eval σ Value
  | replace e | add e | subtract e => ev e
  | step _ => pure .undefined

/-- What an update stores, and its value as an expression. -/
def Update.result (update : Update) (s : Store σ) (old right : Value) : Value × Value :=
  match update with
  | replace _ => (right, right)
  | add _ => (old.add s right, old.add s right)
  | subtract _ => (old.subtract s right, old.subtract s right)
  | step d => (.number (old.toNumber s + d), .number (old.toNumber s))

/-- Evaluates an assignment. -/
def evalAssign (ev : Expr → Eval σ Value) (target : Expr) (update : Update) (position : Nat) :
    Eval σ Value := do
  let slot ← resolve ev target
  let right ← update.right ev
  let m ← Eval.machine
  let (stored, value) := update.result m.store (m.readSlot slot) right
  writeSlot slot stored position
  pure value

end Scriptlet
