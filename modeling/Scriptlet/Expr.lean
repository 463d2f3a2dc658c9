import Scriptlet.Literal
import Scriptlet.Operator

/-!
# Expressions

The tree of a statement. Every node carries a mark: the position and the
priority of the token that it was built from, which is the operator for an
operator, the name for a call and the opening bracket for an array.

## Main definitions

* `Mark`: Where a node stands and how tightly it binds.
* `Expr`: Expression trees.
* `Expr.height`: The number of nodes on the longest way down.
* `Expr.path`: A node named by the names and constants in it.
* `Expr.operator?`, `Expr.name?`: What a node is, if it is that.
-/

namespace Scriptlet

/-- The position and the priority of the token that a node was built from. -/
structure Mark where
  position : Nat
  priority : Nat
deriving DecidableEq

/-- Expression trees. -/
inductive Expr where
  | literal (value : Literal) (mark : Mark)
  | var (name : String) (mark : Mark)
  | unary (op : Operator) (operand : Expr) (mark : Mark)
  | binary (op : Operator) (left right : Expr) (mark : Mark)
  | array (elements : List Expr) (mark : Mark)
  | call (name : String) (args : List Expr) (mark : Mark)

namespace Expr

/-- The mark of a node. -/
def mark : Expr → Mark
  | literal _ m | var _ m | unary _ _ m | binary _ _ _ m | array _ m | call _ _ m => m

/-- Where a node stands. -/
def position (e : Expr) : Nat :=
  e.mark.position

/-- The operator of an operator node. -/
def operator? : Expr → Option Operator
  | unary op _ _ | binary op _ _ _ => some op
  | _ => none

/-- The name of a variable. -/
def name? : Expr → Option String
  | var name _ => some name
  | _ => none

mutual

/-- The number of nodes on the longest way from the root to a leaf. -/
def height : Expr → Nat
  | literal _ _ | var _ _ => 1
  | unary _ operand _ => operand.height + 1
  | binary _ left right _ => max left.height right.height + 1
  | array elements _ => heights elements + 1
  | call _ args _ => heights args + 1

/-- The height of the highest tree of a list. -/
def heights : List Expr → Nat
  | [] => 0
  | e :: es => max e.height (heights es)

end

/-- A node named by the names and constants in it, for messages about what it stands for. -/
def path : Expr → String
  | var name _ => name
  | literal (.text s) _ => s
  | literal value _ => value.source
  | binary _ left right _ => left.path ++ "." ++ right.path
  | unary _ operand _ => operand.path
  | call name _ _ => name ++ "()"
  | array _ _ => "[]"

end Expr

end Scriptlet
