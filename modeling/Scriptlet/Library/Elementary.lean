import Scriptlet.Number

/-!
# Exponentials and Logarithms Near One

The exponential less one, and the logarithm of one more. Near zero both would
lose their digits to the one that is taken away or added, so neither is computed
from the exponential or the logarithm. The argument is brought near zero by
multiples of the logarithm of two, there a quotient of polynomials stands for
the function, and a correction for what rounding took away is carried along.

## Main definitions

* `Math.expLessOne`: The exponential less one.
* `Math.logOneMore`: The logarithm of one more.
-/

namespace Scriptlet

namespace Math

/-- The upper half of the bits of a number: sign, exponent and the first digits. -/
def highWord (x : Float) : Nat :=
  (x.toBits >>> 32).toNat

/-- The upper half of the bits of a number without its sign. -/
def highMagnitude (x : Float) : Nat :=
  highWord x % 0x80000000

/-- A number with other bits in its upper half. -/
def withHighWord (x : Float) (high : Nat) : Float :=
  Float.ofBits ((UInt64.ofNat high <<< 32) ||| (x.toBits &&& 0xffffffff))

/-- The greater part of the logarithm of two. It has so few digits that its multiples are exact. -/
def logTwoHigh : Float := 6.93147180369123816490e-01

/-- The smaller part of the logarithm of two. -/
def logTwoLow : Float := 1.90821492927058770002e-10

/-- A number near zero with a correction to it, and the multiple of the logarithm of two that was
    taken away. -/
structure Reduced where
  rest : Float
  correction : Float
  exponent : Int

/-- What is left of a number when a multiple of the logarithm of two is taken away. -/
def Reduced.of (exponent : Int) (high low : Float) : Reduced :=
  let rest := high - low
  ⟨rest, (high - rest) - low, exponent⟩

/-- A number as a multiple of the logarithm of two and a rest of at most half of it. -/
def reduce (x : Float) : Reduced :=
  let magnitude := highMagnitude x
  if magnitude ≤ 0x3fd62e42 then ⟨x, 0.0, 0⟩
  else if magnitude < 0x3ff0a2b2 then
    if 0.0 < x then .of 1 (x - logTwoHigh) logTwoLow
    else .of (-1) (x + logTwoHigh) (-logTwoLow)
  else
    let turned := 1.44269504088896338700e+00 * x + (if 0.0 < x then 0.5 else -0.5)
    let exponent := turned.toInt64.toInt
    let multiple := Float.ofInt exponent
    .of exponent (x - multiple * logTwoHigh) (multiple * logTwoLow)

/-- The exponential less one of a reduced number. -/
def Reduced.expLessOne (r : Reduced) : Float :=
  let x := r.rest
  let half := 0.5 * x
  let square := x * half
  let square2 := square * square
  let square4 := square2 * square2
  let quotient := 1.0 + square * -3.33333333333331316428e-02 +
    square2 * (1.58730158725481460165e-03 + square * -7.93650757867487942473e-05) +
    square4 * (4.00821782732936239552e-06 + square * -2.01099218183624371326e-07)
  let t := 3.0 - quotient * half
  let e := square * ((quotient - t) / (6.0 - x * t))
  if r.exponent = 0 then
    x - (x * e - square)
  else
    let e := x * (e - r.correction) - r.correction - square
    if r.exponent = -1 then 0.5 * (x - e) - 0.5
    else if r.exponent = 1 then
      if x < -0.25 then -2.0 * (e - (x + 0.5)) else 1.0 + 2.0 * (x - e)
    else if r.exponent ≤ -2 ∨ 56 < r.exponent then
      (1.0 - (e - x)).scaleB r.exponent - 1.0
    else
      let small := (1.0 : Float).scaleB (-r.exponent)
      if r.exponent < 20 then ((1.0 - small) - (e - x)).scaleB r.exponent
      else (x - (e + small) + 1.0).scaleB r.exponent

/-- The exponential less one. -/
def expLessOne (x : Float) : Float :=
  let magnitude := highMagnitude x
  if x.isNaN then x
  else if 0x4043687a ≤ magnitude ∧ x < 0.0 then -1.0
  else if 7.09782712893383973096e+02 < x then Number.infinity
  else if magnitude < 0x3c900000 then x
  else (reduce x).expLessOne

/-- A number one more than another as a power of two times a number near one, with what the sum
    lost of the smaller of its parts. -/
def reduceSum (x : Float) : Reduced :=
  let sum := if highMagnitude x < 0x43400000 then 1.0 + x else x
  let exponent : Int := highWord sum / 0x100000 - 1023
  let lost :=
    if 0x43400000 ≤ highMagnitude x then 0.0
    else if 0 < exponent then (1.0 - (sum - x)) / sum
    else (x - (sum - 1.0)) / sum
  let digits := highWord sum % 0x100000
  if digits < 0x6a09e then ⟨withHighWord sum (digits + 0x3ff00000) - 1.0, lost, exponent⟩
  else ⟨withHighWord sum (digits + 0x3fe00000) - 1.0, lost, exponent + 1⟩

/-- The logarithm of one more than a reduced number, which has another power of two as a factor. -/
def Reduced.logOneMore (r : Reduced) : Float :=
  let f := r.rest
  let halfSquare := 0.5 * f * f
  let multiple := Float.ofInt r.exponent
  let low := multiple * logTwoLow + r.correction
  if f.abs < 9.5367431640625e-07 then
    if f == 0.0 then
      if r.exponent = 0 then 0.0 else multiple * logTwoHigh + low
    else
      let rest := halfSquare * (1.0 - 0.66666666666666666 * f)
      if r.exponent = 0 then f - rest
      else multiple * logTwoHigh - ((rest - low) - f)
  else
    let s := f / (2.0 + f)
    let z := s * s
    let z2 := z * z
    let z4 := z2 * z2
    let z6 := z4 * z2
    let rest := z * 6.666666666666735130e-01 +
      z2 * (3.999999999940941908e-01 + z * 2.857142874366239149e-01) +
      z4 * (2.222219843214978396e-01 + z * 1.818357216161805012e-01) +
      z6 * (1.531383769920937332e-01 + z * 1.479819860511658591e-01)
    if r.exponent = 0 then f - (halfSquare - s * (halfSquare + rest))
    else multiple * logTwoHigh - ((halfSquare - (s * (halfSquare + rest) + low)) - f)

/-- The logarithm of one more. -/
def logOneMore (x : Float) : Float :=
  let magnitude := highMagnitude x
  if x.isNaN ∨ x < -1.0 then Number.nan
  else if x == -1.0 then -Number.infinity
  else if 0x7ff00000 ≤ magnitude then x
  else if magnitude < 0x3c900000 then x
  else if magnitude < 0x3e200000 then x - x * x * 0.5
  else if magnitude ≤ 0x3fd2bec3 ∨ 0.0 < x ∧ magnitude < 0x3fda827a then
    Reduced.logOneMore ⟨x, 0.0, 0⟩
  else (reduceSum x).logOneMore

end Math

end Scriptlet
