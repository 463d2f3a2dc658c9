import Scriptlet.Literal
import Scriptlet.Operator

/-!
# Tokens

The words of a statement. Every token knows how many brackets are open where it
stands, and its priority is its own plus ten for each of them: that is what
makes everything inside a bracket bind tighter than anything around it, with
one comparison of priorities and no special case for brackets.

## Main definitions

* `Bracket`: Round or square.
* `TokenKind`: What a token is.
* `Token`: A token and where it stands.
* `Token.priority`: How tightly a token binds where it stands.
* `Token.wordPriority`: The same in a word of 32 bits.
-/

namespace Scriptlet

/-- The two shapes of bracket. -/
inductive Bracket where
  | round
  | square
deriving DecidableEq

namespace Bracket

/-- The character that opens a bracket. -/
def opener : Bracket → Char
  | round => '('
  | square => '['

/-- The character that closes a bracket. -/
def closer : Bracket → Char
  | round => ')'
  | square => ']'

/-- The bracket that a character opens. -/
def ofOpener? : Char → Option Bracket
  | '(' => some round
  | '[' => some square
  | _ => none

end Bracket

/-- What a token is. A name is a function where an opening round bracket follows it. -/
inductive TokenKind where
  | constant (value : Literal)
  | name (name : String)
  | function (name : String)
  | operator (op : Operator)
  | comma
  | opening (bracket : Bracket)
  | closing (bracket : Bracket)
deriving DecidableEq

namespace TokenKind

/-- The source text of a token. -/
def text : TokenKind → String
  | constant value => value.source
  | name s | function s => s
  | operator op => op.symbol
  | comma => ","
  | opening b => b.opener.toString
  | closing b => b.closer.toString

/-- The priority of a token outside all brackets. -/
def basePriority : TokenKind → Nat
  | constant _ | name _ | function _ | closing _ => 0
  | operator op => op.priority
  | comma => 1
  | opening _ => 10

/-- Whether a point behind the token gives access to a member of what the token ends. -/
def isOperandEnd : TokenKind → Bool
  | name _ | closing _ => true
  | _ => false

end TokenKind

/-- The priority that a symbol stands for, if it is an operator or punctuation. -/
def symbolPriority? (s : String) : Option Nat :=
  match Operator.ofSymbol? s with
  | some op => some op.priority
  | none =>
    let punctuation : List TokenKind := [.comma, .opening .round, .closing .round, .closing .square]
    (punctuation.find? (·.text == s)).map TokenKind.basePriority

/-- A token, with the offset of its first character, the offset at which scanning goes on behind
    it, and the number of brackets open in front of it. -/
structure Token where
  kind : TokenKind
  position : Nat
  stop : Nat
  depth : Nat
deriving DecidableEq

namespace Token

/-- What each open bracket adds to a priority. -/
def depthBoost : Nat := 10

/-- How tightly a token binds where it stands. -/
def priority (t : Token) : Nat :=
  t.kind.basePriority + depthBoost * t.depth

/-- The highest priority a token can have with some brackets open. -/
def topPriority (depth : Nat) : Nat :=
  depthBoost * depth + 10

/-- What the open brackets add to a priority, in a word. -/
def wordBoost (depth : Nat) : UInt32 :=
  .ofNat depth * .ofNat depthBoost

/-- How tightly a token binds where it stands, in a word. So many brackets may be open that the sum
    is too large for it, and then it begins at zero again. -/
def wordPriority (t : Token) : UInt32 :=
  wordBoost t.depth + .ofNat t.kind.basePriority

/-- The number of brackets open behind the token. -/
def depthBehind (t : Token) : Nat :=
  match t.kind with
  | .opening _ => t.depth + 1
  | .closing _ => t.depth - 1
  | _ => t.depth

end Token

end Scriptlet
