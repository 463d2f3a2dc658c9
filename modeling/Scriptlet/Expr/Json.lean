import Scriptlet.Expr
import Scriptlet.Json

/-!
# Expressions as Documents

The tree of a statement as a JSON document, for tools that look at scripts.
The fields of a node come in a fixed order: its type, what it consists of, and
its mark. Numbers are written with a point, whole or not.

## Main definitions

* `Expr.toJson`: The document of an expression.
-/

namespace Scriptlet

namespace Expr

/-- A literal as a document. -/
def literalJson : Literal → Json
  | .number x => .float x
  | .text s => .text s
  | .truth b => .truth b

/-- The document of a node of a type, with the fields of that type. -/
def nodeJson (type : String) (fields : List (String × Json)) (mark : Mark) : Json :=
  .object ([("type", .text type)] ++ fields ++
    [("position", .integer mark.position), ("priority", .integer mark.priority)])

mutual

/-- The document of an expression. -/
def toJson : Expr → Json
  | literal value m => nodeJson "literal" [("value", literalJson value)] m
  | var name m => nodeJson "variable" [("name", .text name)] m
  | unary op operand m =>
    nodeJson "unary" [("op", .text op.symbol), ("operand", operand.toJson)] m
  | binary op left right m =>
    nodeJson "binary" [("op", .text op.symbol), ("left", left.toJson), ("right", right.toJson)] m
  | array elements m => nodeJson "array" [("elements", .array (toJsons elements))] m
  | call name args m => nodeJson "call" [("name", .text name), ("args", .array (toJsons args))] m

/-- The documents of a list of expressions. -/
def toJsons : List Expr → List Json
  | [] => []
  | e :: es => e.toJson :: toJsons es

end

end Expr

end Scriptlet
