import Scriptlet.Number.Shortest

/-!
# The Text of Numbers

Two layouts write the shortest digits of a number. Script text is always
positional, however long that gets, and has no trace of the sign of zero. The
text of numbers in JSON documents marks them as non-integers and turns to an
exponent outside a middle range.

The layouts differ in how they break a tie between two equally short and
equally near decimals, which is why the search for digits takes the rule.

## Main definitions

* `Decimal.positional`: Digits and a point, without an exponent.
* `Decimal.marked`: Digits that show a point or an exponent.
* `Number.toText`: The text of a number in scripts.
* `Number.plain`: The positional text of a number, sign of zero included.
* `Number.toMarked?`: The text of a finite number in JSON documents.
-/

namespace Scriptlet

namespace Decimal

/-- The digits of a natural number. -/
def digitsOf (n : Nat) : List Char :=
  Nat.toDigits 10 n

/-- A row of zeros. -/
def zeros (n : Nat) : List Char :=
  List.replicate n '0'

/-- The part of a row of digits before a point that stands `places` from the right. -/
def beforePoint (digits : List Char) (places : Nat) : List Char :=
  if digits.length ≤ places then ['0'] else digits.take (digits.length - places)

/-- The part of a row of digits behind a point that stands `places` from the right. -/
def behindPoint (digits : List Char) (places : Nat) : List Char :=
  zeros (places - digits.length) ++ digits.drop (digits.length - places)

/-- The magnitude of a decimal in positional notation; `whole` follows where nothing stands
    behind the point. -/
def positional (whole : String) (d : Decimal) : String :=
  let digits := digitsOf d.digits
  match d.exponent with
  | .ofNat k => String.ofList (digits ++ zeros k) ++ whole
  | .negSucc k =>
    String.ofList (beforePoint digits (k + 1) ++ '.' :: behindPoint digits (k + 1))

/-- The magnitude of a decimal as one digit before the point and an exponent with its sign. -/
def scientific (d : Decimal) : String :=
  let digits := digitsOf d.digits
  let fraction := digits.drop 1
  let mantissa := digits.take 1 ++ (if fraction = [] then [] else '.' :: fraction)
  let exponent := (digits.length : Int) - 1 + d.exponent
  let sign := if exponent < 0 then "e-" else "e+"
  String.ofList mantissa ++ sign ++ String.ofList (digitsOf exponent.natAbs)

/-- The magnitude of a decimal with a mark that tells it from an integer: a point where the leading
    digit stands from the fifth place behind the point up to the sixteenth before it, an exponent
    elsewhere. -/
def marked (d : Decimal) : String :=
  let leading := (digitsOf d.digits).length - 1 + d.exponent
  if -5 ≤ leading ∧ leading < 16 then d.positional ".0" else d.scientific

end Decimal

namespace Number

/-- The minus sign of a negative number. -/
def minus (negative : Bool) : String :=
  if negative then "-" else ""

/-- The text of a number in scripts: positional, ties upward, and one zero. -/
def toText (x : Float) : String :=
  match parts x with
  | .nan => "NaN"
  | .infinite negative => minus negative ++ "Infinity"
  | .finite negative significand exponent =>
    if significand = 0 then "0"
    else minus negative ++ (Decimal.shortest .up negative significand exponent).positional ""

/-- The positional text of a number for inspection, which tells the two zeros apart. -/
def plain (x : Float) : String :=
  match parts x with
  | .nan => "NaN"
  | .infinite negative => minus negative ++ "inf"
  | .finite negative significand exponent =>
    if significand = 0 then minus negative ++ "0"
    else minus negative ++ (Decimal.shortest .up negative significand exponent).positional ""

/-- The text of a number in JSON documents, for the numbers that have one: ties go to the even
    digit, and a point or an exponent is always shown. -/
def toMarked? (x : Float) : Option String :=
  match parts x with
  | .finite negative significand exponent =>
    some <|
      if significand = 0 then minus negative ++ "0.0"
      else minus negative ++ (Decimal.shortest .even negative significand exponent).marked
  | _ => none

end Number

end Scriptlet
