import Scriptlet.Expr

/-!
# Writing Expressions

An expression as source text and as an outline. Source text puts brackets
around every binary operator, so what it means does not hang on the priorities
of the text that the tree was read from. A sign in front of an operand comes
back as a difference from zero, which is what it was read as.

## Main definitions

* `Expr.source`: An expression as source text.
* `Expr.outline`: An expression with one node a line, indented by depth.
* `isIdentifier`: Whether a text can stand behind a point as a name.
-/

namespace Scriptlet

/-- Whether a text is a letter followed by letters and digits. -/
def isIdentifier (s : String) : Bool :=
  match s.toList with
  | c :: cs => c.isAlpha && cs.all Char.isAlphanum
  | [] => false

namespace Expr

/-- Texts with a comma between them. -/
def commaSeparated (texts : List String) : String :=
  String.intercalate ", " texts

/-- Puts round brackets around the text of a unary node, which alone needs them as an operand of
    `!`, of a postfix operator and in front of a member. -/
def bracketed (e : Expr) (text : String) : String :=
  match e with
  | unary _ _ _ => "(" ++ text ++ ")"
  | _ => text

/-- A literal as source text. A negative number has no numeral of its own. -/
def literalSource : Literal → String
  | .number x => if x < 0.0 then "(0 - " ++ Number.toText (-x) ++ ")" else Number.toText x
  | value => value.source

/-- The text of an access to a member: behind a point where the member is a name or a call, between
    square brackets elsewhere. -/
def memberSource (op : Operator) (receiver : String) (right : Expr) (member : String) : String :=
  match op, right with
  | .dot, literal (.text name) _ =>
    if isIdentifier name then receiver ++ "." ++ name else receiver ++ "[" ++ member ++ "]"
  | .dot, call _ _ _ => receiver ++ "." ++ member
  | _, _ => receiver ++ "[" ++ member ++ "]"

mutual

/-- An expression as source text. -/
def source : Expr → String
  | literal value _ => literalSource value
  | var name _ => name
  | unary .not operand _ => "!" ++ bracketed operand operand.source
  | unary op operand _ => bracketed operand operand.source ++ op.symbol
  | binary op left right _ =>
    if op.isMember then
      memberSource op (bracketed left left.source) right right.source
    else
      "(" ++ left.source ++ " " ++ op.symbol ++ " " ++ right.source ++ ")"
  | array elements _ => "[" ++ commaSeparated (sources elements) ++ "]"
  | call name args _ => name ++ "(" ++ commaSeparated (sources args) ++ ")"

/-- The source texts of a list of expressions. -/
def sources : List Expr → List String
  | [] => []
  | e :: es => e.source :: sources es

end

/-- A line of an outline. -/
def outlineLine (level : Nat) (label : String) : String :=
  String.join (List.replicate level "| ") ++ label ++ "\n"

mutual

/-- The outline of a node `level` steps below the root. -/
def outlineAt (level : Nat) : Expr → String
  | literal value _ => outlineLine level (value.source ++ " Const")
  | var name _ => outlineLine level (name ++ " Variable")
  | unary op operand _ =>
    outlineLine level (op.symbol ++ " Operator") ++ outlineAt (level + 1) operand
  | binary op left right _ =>
    outlineLine level (op.symbol ++ " Operator") ++ outlineAt (level + 1) left ++
      outlineAt (level + 1) right
  | array elements _ => outlineLine level "array Array" ++ outlinesAt (level + 1) elements
  | call name args _ =>
    outlineLine level (name ++ (if args.isEmpty then "()" else "") ++ " Function") ++
      outlinesAt (level + 1) args

/-- The outlines of a list of nodes `level` steps below the root. -/
def outlinesAt (level : Nat) : List Expr → String
  | [] => ""
  | e :: es => outlineAt level e ++ outlinesAt level es

end

/-- An expression with one node a line, indented by depth. -/
def outline (e : Expr) : String :=
  outlineAt 0 e

end Expr

end Scriptlet
