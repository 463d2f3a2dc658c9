import Scriptlet.Library.Arguments
import Scriptlet.Library.Elementary

/-!
# The Numeric Library

Functions of numbers. Arguments are converted to numbers, and a missing one is
not a number, so nothing here is ever refused.

## Main definitions

* `Math.roundHalfUp`, `Math.sign`, `Math.power`, `Math.hypotenuse`, `Math.greatest`, `Math.least`:
  The functions that are more than a function of real analysis.
* `Math.ofNumber?`: The functions of one number.
* `Math.ofNumbers?`: The functions of several numbers.
* `Math.function?`: All functions by name.
-/

namespace Scriptlet

namespace Math

/-- The nearest whole number, the upper one of two equally near. -/
def roundHalfUp (x : Float) : Float :=
  if x.isFinite then
    let below := x.floor
    if 0.5 ≤ x - below then below + 1.0 else below
  else
    x

/-- One with the sign of a number. Zeros and what is not a number stay. -/
def sign (x : Float) : Float :=
  if x.isNaN || x == 0.0 then x else if x < 0.0 then -1.0 else 1.0

/-- The nearest number of half the precision. -/
def roundToSingle (x : Float) : Float :=
  x.toFloat32.toFloat

/-- A power. An exponent that is not a number gives none, whatever the base. -/
def power (base exponent : Float) : Float :=
  if exponent.isNaN then Number.nan else base.pow exponent

/-- The square root of the sum of squares, infinite as soon as one of the numbers is. The empty sum
    is the negative zero, the neutral number of addition. -/
def hypotenuse (xs : List Float) : Float :=
  if xs.any Float.isInf then Number.infinity
  else (xs.foldl (fun sum x => sum + x * x) (-0.0)).sqrt

/-- The greatest of some numbers. Of equal ones the first is taken. -/
def greatest (xs : List Float) : Float :=
  if xs.any Float.isNaN then Number.nan
  else xs.foldl (fun best x => if best < x then x else best) (-Number.infinity)

/-- The least of some numbers. Of equal ones the first is taken. -/
def least (xs : List Float) : Float :=
  if xs.any Float.isNaN then Number.nan
  else xs.foldl (fun best x => if x < best then x else best) Number.infinity

/-- The functions of one number. -/
def ofNumber? : String → Option (Float → Float)
  | "abs" => some Float.abs
  | "ceil" => some Float.ceil
  | "floor" => some Float.floor
  | "round" => some roundHalfUp
  | "trunc" => some Number.truncate
  | "sign" => some sign
  | "fround" => some roundToSingle
  | "sqrt" => some Float.sqrt
  | "cbrt" => some Float.cbrt
  | "exp" => some Float.exp
  | "expm1" => some expLessOne
  | "log" => some Float.log
  | "log10" => some Float.log10
  | "log1p" => some logOneMore
  | "log2" => some Float.log2
  | "sin" => some Float.sin
  | "cos" => some Float.cos
  | "tan" => some Float.tan
  | "asin" => some Float.asin
  | "acos" => some Float.acos
  | "atan" => some Float.atan
  | "sinh" => some Float.sinh
  | "cosh" => some Float.cosh
  | "tanh" => some Float.tanh
  | "asinh" => some Float.asinh
  | "acosh" => some Float.acosh
  | "atanh" => some Float.atanh
  | _ => none

/-- The functions of several numbers. -/
def ofNumbers? : String → Option (List Float → Float)
  | "pow" => some fun xs => power (xs.getD 0 Number.nan) (xs.getD 1 Number.nan)
  | "atan2" => some fun xs => Float.atan2 (xs.getD 0 Number.nan) (xs.getD 1 Number.nan)
  | "hypot" => some hypotenuse
  | "max" => some greatest
  | "min" => some least
  | _ => none

/-- A random number. -/
def random {σ : Type} [Host σ] : Native σ := fun _ s =>
  let (x, s) := s.draw
  (.ok (.number x), s)

/-- The numeric functions by name. -/
def function? {σ : Type} [Host σ] (name : String) : Option (Native σ) :=
  match ofNumber? name, ofNumbers? name with
  | some f, _ => some fun args s => (.ok (.number (f (Arguments.number s args 0))), s)
  | none, some f => some fun args s => (.ok (.number (f (args.map (Value.toNumber s)))), s)
  | none, none => if name = "random" then some random else none

end Math

end Scriptlet
