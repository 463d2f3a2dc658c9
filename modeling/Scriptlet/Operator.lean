/-!
# Operators

Everything that joins or modifies operands, with its symbol and how tightly it
binds. Member access and indexing are operators like the rest: they bind
tightest, and what stands to their right names a member.

## Main definitions

* `Operator`: The operators.
* `Operator.symbol`: How an operator is written.
* `Operator.ofSymbol?`: The operator that a symbol writes.
* `Operator.priority`: How tightly an operator binds.
* `Operator.isAssignment`, `Operator.isMember`: Two families of operators.
-/

namespace Scriptlet

/-- The operators of the language. -/
inductive Operator where
  | dot
  | index
  | increment
  | decrement
  | not
  | multiply
  | divide
  | remainder
  | add
  | subtract
  | greater
  | less
  | atLeast
  | atMost
  | equal
  | unequal
  | and
  | or
  | assign
  | addAssign
  | subtractAssign
  | sequence
deriving DecidableEq

namespace Operator

/-- How an operator is written. Indexing is named by its opening bracket. -/
def symbol : Operator → String
  | dot => "."
  | index => "["
  | increment => "++"
  | decrement => "--"
  | not => "!"
  | multiply => "*"
  | divide => "/"
  | remainder => "%"
  | add => "+"
  | subtract => "-"
  | greater => ">"
  | less => "<"
  | atLeast => ">="
  | atMost => "<="
  | equal => "=="
  | unequal => "!="
  | and => "&"
  | or => "|"
  | assign => "="
  | addAssign => "+="
  | subtractAssign => "-="
  | sequence => ";"

/-- All operators. -/
def all : List Operator :=
  [dot, index, increment, decrement, not, multiply, divide, remainder, add, subtract, greater, less,
    atLeast, atMost, equal, unequal, and, or, assign, addAssign, subtractAssign, sequence]

/-- The operator that a symbol writes. -/
def ofSymbol? (s : String) : Option Operator :=
  all.find? (·.symbol == s)

/-- How tightly an operator binds; more binds tighter. -/
def priority : Operator → Nat
  | dot | index => 10
  | increment | decrement => 9
  | not => 8
  | multiply | divide | remainder => 7
  | add | subtract => 6
  | greater | less | atLeast | atMost | equal | unequal => 5
  | and => 4
  | or => 3
  | assign | addAssign | subtractAssign => 2
  | sequence => 1

/-- Whether an operator writes to its left operand. -/
def isAssignment : Operator → Bool
  | assign | addAssign | subtractAssign | increment | decrement => true
  | _ => false

/-- Whether an operator gives access to a member. -/
def isMember : Operator → Bool
  | dot | index => true
  | _ => false

end Operator

end Scriptlet
