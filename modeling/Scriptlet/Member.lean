import Scriptlet.Value.Text

/-!
# Members

The members of a value are named by texts. An object has its fields, a host
object what the host says. Arrays and texts have a length and, under the
numerals of their places, elements and characters; a numeral has to be written
the one way that numbers are, so that no two texts name the same place.

Only what is already a member can be assigned to in an array, and nothing can
in a text.

## Main definitions

* `readIndex?`: The number that a text is read as.
* `arrayIndex?`: The place that a text names.
* `Value.getMember`: What a member is.
* `Value.hasMember`: Whether a member is there to be assigned to.
* `Value.setMember`: Writing a member.
-/

namespace Scriptlet

-- Powers of natural numbers are the built-in ones, also where other powers are known.
attribute [local instance(high)] instPowNat

/-- The bound of array places. -/
def arrayIndexBound : Nat := 2 ^ (64 : Nat)

/-- The number below the bound that a text is read as: digits, of which the first may be zeros,
    behind a plus sign or none. -/
def readIndex? (key : List Char) : Option Nat :=
  let digits := if key.head? = some '+' then key.tail else key
  if digits ≠ [] ∧ digits.all Char.isDigit then
    let n := Decimal.ofDigits digits
    if n < arrayIndexBound then some n else none
  else
    none

/-- The place that a text names: the number that it is read as, if that is written the same way. -/
def arrayIndex? (key : String) : Option Nat :=
  (readIndex? key.toList).filter fun n => Decimal.digitsOf n = key.toList

namespace Value

variable {σ : Type} [Host σ]

/-- What a member of a value is. What is not there is undefined. -/
def getMember (s : Store σ) (object : Value) (key : String) : Value :=
  match object with
  | .object r => ((s.fields r).get? key).getD undefined
  | host r => Host.get s r key
  | array r =>
    if key = "length" then number (Number.ofNat (s.elements r).size)
    else ((arrayIndex? key).bind fun i => (s.elements r)[i]?).getD undefined
  | text t =>
    if key = "length" then number (Number.ofNat t.toList.length)
    else ((arrayIndex? key).bind fun i => t.toList[i]?).elim undefined fun c => text c.toString
  | _ => undefined

/-- Whether a member of a value is there to be assigned to. -/
def hasMember (s : Store σ) (object : Value) (key : String) : Bool :=
  match object with
  | .object r => (s.fields r).contains key
  | host r => Host.has s r key
  | array r => (arrayIndex? key).any (· < (s.elements r).size)
  | _ => false

/-- Writes a member of a value. Objects take new members, arrays do not. -/
def setMember (object : Value) (key : String) (value : Value) (s : Store σ) : Reply σ Unit :=
  match object with
  | .object r => (.ok (), s.setFields r ((s.fields r).insert key value))
  | host r => .ofHost (Host.set r key value s)
  | array r =>
    match arrayIndex? key with
    | some i =>
      if i < (s.elements r).size then
        (.ok (), s.setElements r ((s.elements r).setIfInBounds i value))
      else
        (.error (.noProperty key), s)
    | none => (.error (.noProperty key), s)
  | v => (.error (.noProperties v.type), s)

end Value

end Scriptlet
