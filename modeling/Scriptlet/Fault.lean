import Scriptlet.Host
import Scriptlet.Issue
import Scriptlet.Token

/-!
# Faults

Why a statement cannot be read, or its expression not be evaluated. Scanning,
reading and evaluating share one type of fault. A fault is found with a cause
and at a place, and whoever finds it says of which kind it is, so that only the
code that finds faults keeps the kinds of the phases apart.

Every cause has its wording here. What may help depends on the kind as well,
since only a reader says how deep a statement may be nested.

## Main definitions

* `Cause`: Why reading or evaluation fails.
* `Cause.message`: A cause in words.
* `Fault`: A kind, a cause and a place.
* `Fault.issue`: A fault in words.
* `Fault.shift`: The same fault seen from the start of a longer text.
-/

namespace Scriptlet

/-- The deepest nesting of a statement. -/
def maxNesting : Nat := 256

/-- Why a statement cannot be read, or its expression not be evaluated. -/
inductive Cause where
  /-- A character begins no token. -/
  | strayCharacter
  /-- A text constant has no end. -/
  | unterminatedText
  /-- There is no expression where one has to stand. -/
  | expressionMissing
  /-- A token begins no operand. -/
  | operandMissing
  /-- Something else stands where a bracket has to be closed. -/
  | closerMissing (bracket : Bracket)
  /-- A token is left over. -/
  | strayToken
  /-- Expressions stand too deep inside one another. -/
  | nestedTooDeeply
  /-- The operator has no meaning where it stands. -/
  | unknownOperator (op : Operator)
  /-- An operand of a product or quotient is not a number. -/
  | numbersOnly (left right : ValueType)
  /-- The divisor is zero. -/
  | divisionByZero
  /-- The receiver of a member that is read does not count as true. -/
  | objectNotFound (path : String)
  /-- The receiver has no such method. -/
  | methodNotFound (name : String)
  /-- There is no function of the name. -/
  | functionNotFound (name : String)
  /-- The name or member that is assigned to does not exist. -/
  | targetNotFound (key : String)
  /-- The receiver of a member that is assigned to does not count as true. -/
  | targetObjectNotFound (path : String)
  /-- What is assigned to is neither a name nor a member. -/
  | notAssignable (description : String)
  /-- A conditional has too few arguments. -/
  | conditionalArguments
  /-- A loop does not have three arguments. -/
  | loopArguments
  /-- The first argument of a loop is not a variable. -/
  | loopVariableExpected
  /-- The variable of a loop is that of a loop around it. -/
  | loopVariableInUse (name : String)
  /-- The second argument of a loop is neither an array nor a text. -/
  | notIterable (type : ValueType)
  /-- A function, a method or a write was refused. -/
  | refused (refusal : Refusal)
deriving DecidableEq

/-- The wording of a cause. Products and quotients share theirs. -/
def Cause.message : Cause → String
  | strayCharacter | strayToken => "Unexpected char"
  | unterminatedText => "Unterminated string"
  | expressionMissing => "Expected expression"
  | operandMissing => "Argument expected"
  | closerMissing b => "Expected \"" ++ b.closer.toString ++ "\""
  | nestedTooDeeply => "Expression nested too deeply"
  | unknownOperator op => "Unknown operator " ++ op.symbol
  | numbersOnly _ _ => "operator * is applicable for numbers only"
  | divisionByZero => "Divide by 0"
  | objectNotFound path => "Object " ++ path ++ " not found"
  | methodNotFound name => "Function " ++ name ++ " not found"
  | functionNotFound name => "Unknown function or command - " ++ name
  | targetNotFound key => "Cannot find property " ++ key ++ " in object"
  | targetObjectNotFound path => "Cannot find object " ++ path
  | notAssignable description => "Cannot assign value to " ++ description
  | conditionalArguments => "Wrong arguments in if command"
  | loopArguments => "Wrong arguments in foreach"
  | loopVariableExpected => "First parameter must be variable"
  | loopVariableInUse name => "Item name \"" ++ name ++ "\" is already in use"
  | notIterable _ => "Second parameter must be array"
  | refused refusal => refusal.message

/-- What is wrong with a statement: the kind of the fault, its cause, and the character of the
    statement to blame. -/
structure Fault where
  kind : IssueKind
  cause : Cause
  position : Nat
deriving DecidableEq

namespace Fault

/-- What may help. -/
def help (e : Fault) : Option String :=
  match e.kind, e.cause with
  | .grammatical, .nestedTooDeeply =>
    some ("at most " ++ toString maxNesting ++ " levels of nesting are allowed")
  | _, .numbersOnly left right =>
    some ("left side is " ++ left.name ++ ", right side is " ++ right.name)
  | _, .targetNotFound _ => some "assignment only updates names and properties that already exist"
  | _, .conditionalArguments => some "usage: if(condition, then[, else])"
  | _, .loopArguments => some "usage: foreach(item, list, body)"
  | _, .notIterable type => some ("got " ++ type.name)
  | _, _ => none

/-- A fault in words. -/
def issue (e : Fault) : Issue where
  kind := e.kind
  message := e.cause.message
  position := e.position
  help := e.help

/-- The fault as it is seen from the start of a longer text. -/
def shift (offset : Nat) (e : Fault) : Fault :=
  { e with position := e.position + offset }

end Fault

end Scriptlet
