/-!
# Numbers

Script numbers are binary64 values. Arithmetic is the ordinary arithmetic of
`Float`; what the language adds on top are a few operations that look at a
number as an exact quantity: is it a whole number, what is its part before the
point, what remains after a division.

All of these are answered from `parts`, which takes a number apart into a sign,
a significand and a power of two. On parts the questions are about natural
numbers and have exact answers, so no rounding enters and nothing depends on
the bit layout.

## Main definitions

* `Number.Parts`: A number taken apart.
* `Number.parts`: The parts of a number.
* `Number.magnitude`: The whole part of `m * 2 ^ e`.
* `Number.ofScaled`: The number nearest to `± m * 2 ^ e`.
* `Number.integer?`: The integer that a number equals, if there is one.
* `Number.remainder`: The remainder with the sign of the dividend.
-/

namespace Scriptlet

namespace Number

-- Powers of natural numbers are the built-in ones, also where other powers are known.
attribute [local instance(high)] instPowNat

/-- A number taken apart. A finite number is `significand * 2 ^ exponent`, negated if so marked;
    zero has significand `0` and keeps its sign. -/
inductive Parts where
  | nan
  | infinite (negative : Bool)
  | finite (negative : Bool) (significand : Nat) (exponent : Int)
deriving DecidableEq

/-- Whether a sign is the minus sign. -/
def isMinus : Float.Model.UnpackedFloat.Sign → Bool
  | .negative => true
  | .positive => false

/-- The parts of a number. Zero is given the exponent `0`. -/
def parts (x : Float) : Parts :=
  match x.toModel.unpack with
  | .notANumber => .nan
  | .infinity sign => .infinite (isMinus sign)
  | .zero sign => .finite (isMinus sign) 0 0
  | .finite sign significand exponent _ => .finite (isMinus sign) significand exponent

/-- Not a number. -/
def nan : Float := 0.0 / 0.0

/-- Positive infinity. -/
def infinity : Float := 1.0 / 0.0

/-- The whole part of `significand * 2 ^ exponent`. -/
def magnitude (significand : Nat) : Int → Nat
  | .ofNat k => significand * 2 ^ k
  | .negSucc k => significand / 2 ^ (k + 1)

/-- Attaches a sign. A negated zero is the negative zero. -/
def signed (negative : Bool) (x : Float) : Float :=
  if negative then -x else x

/-- The number nearest to `significand * 2 ^ exponent`, with a sign. A negative power of two is a
    power of ten once the significand carries the same power of five, so decimal scaling
    gives it. -/
def ofScaled (negative : Bool) (significand : Nat) : Int → Float
  | .ofNat k => signed negative (Float.ofScientific (significand * 2 ^ k) false 0)
  | .negSucc k => signed negative (Float.ofScientific (significand * 5 ^ (k + 1)) true (k + 1))

/-- The number nearest to a natural number. -/
def ofNat (n : Nat) : Float :=
  Float.ofScientific n false 0

/-- The number nearest to an integer. -/
def ofInt (i : Int) : Float :=
  signed (i < 0) (ofNat i.natAbs)

/-- Whether `significand * 2 ^ exponent` has no part behind the point. -/
def isWhole (significand : Nat) : Int → Bool
  | .ofNat _ => true
  | .negSucc k => significand % 2 ^ (k + 1) == 0

/-- The integer that a number equals, if it equals one. -/
def integer? (x : Float) : Option Int :=
  match parts x with
  | .finite negative significand exponent =>
    if isWhole significand exponent then
      let n : Int := magnitude significand exponent
      some (if negative then -n else n)
    else
      none
  | _ => none

/-- Drops the part behind the point. -/
def truncate (x : Float) : Float :=
  if x < 0.0 then x.ceil else x.floor

/-- The remainder of a division whose quotient is cut toward zero. It is exact, and it has the
    sign of the dividend even where it is zero. -/
def remainder (x y : Float) : Float :=
  match parts x, parts y with
  | .finite negative m e, .finite _ n f =>
    if n = 0 then
      nan
    else
      let g := min e f
      ofScaled negative ((m * 2 ^ (e - g).toNat) % (n * 2 ^ (f - g).toNat)) g
  | .finite _ _ _, .infinite _ => x
  | _, _ => nan

end Number

end Scriptlet
