import Scriptlet.Expr
import Scriptlet.Token.Scan

/-!
# Reading Expressions

Expressions are read by climbing priorities. An expression above a priority is
an operand followed by every operator that binds tighter than that priority,
each taking as its right operand an expression above its own. Brackets need no
grammar of their own beyond finding the closing one, since tokens inside them
have higher priorities than all around them.

Nesting is limited. Reading an expression and adding an operator to an operand
each use up one of the levels that the surrounding expression has left, and the
levels are what the definitions recurse on. The limit is thus also the reason
that reading ends.

The list of tokens may stop at a lexical fault. Running out of tokens then
means meeting that fault, and `Ending.blame` says which of the two it is.

## Main definitions

* `Ending.blame`: What is wrong where the tokens run out.
* `Parse.expression`: An expression above a priority.
* `Parse.extend`: The operators behind an operand.
* `Expr.parse`: The expression that a statement is.
-/

namespace Scriptlet

/-- What is wrong where more tokens are needed than there are: the fault that ended the scan, or
    the given cause at the end of the text. -/
def Ending.blame (ending : Ending) (cause : Cause) : Fault :=
  match ending with
  | .complete stop _ => ⟨.grammatical, cause, stop⟩
  | .broken e _ => e

namespace Token

/-- The mark of a node built from a token. -/
def mark (t : Token) : Mark :=
  ⟨t.position, t.priority⟩

/-- Whether a token adds to an operand in an expression above a priority: an operator or an indexing
    bracket that binds tighter. -/
def continues (t : Token) (above : Nat) : Bool :=
  above < t.priority &&
    match t.kind with
    | .operator _ | .opening .square => true
    | _ => false

end Token

namespace Parse

/-- How to read an expression above a priority off the front of the tokens. The position is to blame
    if the levels are used up. -/
abbrev Reader := (above position : Nat) → List Token → Except Fault (Expr × List Token)

variable (ending : Ending)

/-- Reads what a bracket holds and its closing bracket, behind the opening bracket `t`. -/
def group (read : Reader) (bracket : Bracket) (t : Token) (rest : List Token) :
    Except Fault (Expr × List Token) := do
  let (inner, rest) ← read t.priority t.stop rest
  match rest with
  | [] => .error (ending.blame (.closerMissing bracket))
  | u :: rest =>
    if u.kind = .closing bracket then .ok (inner, rest)
    else .error ⟨.grammatical, .closerMissing bracket, u.position⟩

/-- Reads the elements of a list up to its closing bracket. A comma may follow the last one. Every
    element takes at least one token, so as many rounds as there are tokens are enough. -/
def elements (read : Reader) (bracket : Bracket) (above : Nat) :
    (rounds : Nat) → List Token → Except Fault (List Expr × List Token)
  | _, [] => .error (ending.blame (.closerMissing bracket))
  | 0, t :: _ => .error ⟨.grammatical, .strayToken, t.position⟩
  | rounds + 1, t :: rest =>
    if t.kind = .closing bracket then
      .ok ([], rest)
    else do
      let (e, behind) ← read above t.position (t :: rest)
      match behind with
      | [] => .error (ending.blame (.closerMissing bracket))
      | u :: more =>
        if u.kind = .comma then do
          let (es, more) ← elements read bracket above rounds more
          .ok (e :: es, more)
        else if u.kind = .closing bracket then
          .ok ([e], more)
        else
          .error ⟨.grammatical, .strayToken, u.position⟩

/-- Reads a list of elements, behind its opening bracket. -/
def list (read : Reader) (bracket : Bracket) (above : Nat) (rest : List Token) :
    Except Fault (List Expr × List Token) :=
  elements ending read bracket above rest.length rest

/-- The zero that a sign is applied to, at the place of the sign. -/
def zeroAt (t : Token) : Expr :=
  .literal (.number 0.0) ⟨t.position, Token.depthBoost * t.depth⟩

/-- Reads the operand that begins with the token `t`. A sign in front of an operand is a difference
    from, or a sum with, a zero at its place. -/
def operand (read : Reader) (t : Token) (rest : List Token) :
    Except Fault (Expr × List Token) :=
  match t.kind with
  | .constant value => .ok (.literal value t.mark, rest)
  | .name name => .ok (.var name t.mark, rest)
  | .function name => do
    -- the opening bracket that makes the name a function
    let (args, rest) ← list ending read .round t.priority rest.tail
    .ok (.call name args t.mark, rest)
  | .operator .not => do
    let (e, rest) ← read t.priority t.stop rest
    .ok (.unary .not e t.mark, rest)
  | .operator .add => do
    let (e, rest) ← read t.priority t.stop rest
    .ok (.binary .add (zeroAt t) e t.mark, rest)
  | .operator .subtract => do
    let (e, rest) ← read t.priority t.stop rest
    .ok (.binary .subtract (zeroAt t) e t.mark, rest)
  | .opening .round => group ending read .round t rest
  | .opening .square => do
    let (es, rest) ← list ending read .square t.priority rest
    .ok (.array es t.mark, rest)
  | _ => .error ⟨.grammatical, .operandMissing, t.position⟩

/-- Adds the operator or indexing bracket `t` to the operand `left`. -/
def addTo (read : Reader) (left : Expr) (t : Token) (rest : List Token) :
    Except Fault (Expr × List Token) :=
  match t.kind with
  | .operator .increment => .ok (.unary .increment left t.mark, rest)
  | .operator .decrement => .ok (.unary .decrement left t.mark, rest)
  | .operator op => do
    let (right, rest) ← read t.priority t.stop rest
    .ok (.binary op left right t.mark, rest)
  | _ => do
    let (i, rest) ← group ending read .square t rest
    .ok (.binary .index left i t.mark, rest)

mutual

/-- Reads an expression of operators that bind tighter than `above`. -/
def expression (levels above position : Nat) (tokens : List Token) :
    Except Fault (Expr × List Token) :=
  match levels with
  | 0 => .error ⟨.grammatical, .nestedTooDeeply, position⟩
  | levels + 1 =>
    match tokens with
    | [] => .error (ending.blame .expressionMissing)
    | t :: rest => do
      let (left, rest) ← operand ending (expression levels) t rest
      extend levels above left rest

/-- Adds to the operand `left` every operator behind it that binds tighter than `above`. -/
def extend (levels above : Nat) (left : Expr) (tokens : List Token) :
    Except Fault (Expr × List Token) :=
  match tokens with
  | [] => .ok (left, [])
  | t :: rest =>
    if t.continues above then
      match levels with
      | 0 => .error ⟨.grammatical, .nestedTooDeeply, t.position⟩
      | levels + 1 => do
        let (left, rest) ← addTo ending (expression levels) left t rest
        extend levels above left rest
    else
      .ok (left, t :: rest)

end

/-- Reads a statement: one expression and nothing behind it. -/
def statement (tokens : List Token) : Except Fault Expr := do
  let (e, rest) ← expression ending maxNesting 0 0 tokens
  match rest, ending with
  | [], .complete _ _ => .ok e
  | [], .broken fault _ => .error fault
  | t :: _, _ => .error ⟨.grammatical, .strayToken, t.position⟩

end Parse

/-- The expression that a statement is. -/
def Expr.parse (text : List Char) : Except Fault Expr :=
  let scan := Scan.ofText text
  Parse.statement scan.ending scan.tokens

end Scriptlet
