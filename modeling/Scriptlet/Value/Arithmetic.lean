import Scriptlet.Operator
import Scriptlet.Value.Text

/-!
# Operations on Values

What the operators do to values. All but one of them convert their operands to
numbers; addition joins texts as soon as one operand is a text or is written as
one. Comparisons look at the texts of what is shared, and compare two texts by
their characters.

## Main definitions

* `Value.add`, `Value.subtract`, `Value.remainder`: Arithmetic.
* `Value.order?`: How two values compare, if they do.
* `Value.compares`: The comparisons.
-/

namespace Scriptlet

namespace Value

variable {σ : Type}

/-- Whether a value makes an addition join texts. -/
def isJoined : Value → Bool
  | text _ | array _ | object _ | host _ | function _ => true
  | undefined | null | truth _ | number _ => false

/-- The sum of two values. -/
def add (s : Store σ) (a b : Value) : Value :=
  if a.isJoined || b.isJoined then
    text (a.toText s ++ b.toText s)
  else
    number (a.toNumber s + b.toNumber s)

/-- The difference of two values. -/
def subtract (s : Store σ) (a b : Value) : Value :=
  number (a.toNumber s - b.toNumber s)

/-- The remainder of two values. -/
def remainder (s : Store σ) (a b : Value) : Value :=
  number (Number.remainder (a.toNumber s) (b.toNumber s))

/-- What is shared counts as its text in comparisons. -/
def comparand (s : Store σ) : Value → Value
  | array r => text (toText s (array r))
  | object r => text (toText s (object r))
  | host r => text (toText s (host r))
  | function r => text (toText s (function r))
  | v => v

/-- How two numbers compare. A number that is none compares with nothing. -/
def orderNumbers? (a b : Float) : Option Ordering :=
  if a < b then some .lt
  else if b < a then some .gt
  else if a == b then some .eq
  else none

/-- How two texts compare, character by character. -/
def orderTexts (a b : String) : Ordering :=
  if a < b then .lt else if a = b then .eq else .gt

/-- How two values compare, if they do. -/
def order? (s : Store σ) (a b : Value) : Option Ordering :=
  match a.comparand s, b.comparand s with
  | text x, text y => some (orderTexts x y)
  | x, y => orderNumbers? (x.toNumber s) (y.toNumber s)

/-- Whether a comparison holds between two values. Operators that compare nothing never hold. -/
def compares (s : Store σ) (op : Operator) (a b : Value) : Bool :=
  match order? s a b, op with
  | some o, .greater => o = .gt
  | some o, .less => o = .lt
  | some o, .atLeast => o ≠ .lt
  | some o, .atMost => o ≠ .gt
  | _, _ => false

end Value

end Scriptlet
