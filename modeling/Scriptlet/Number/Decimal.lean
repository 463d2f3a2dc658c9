import Scriptlet.Number
import Scriptlet.Text.Blank

/-!
# Decimals

A decimal is a row of digits scaled by a power of ten. It stands between the
text of a number and the number itself: reading a numeral gives a decimal, and
a decimal is rounded to the nearest number. Keeping the two steps apart leaves
the grammar free of arithmetic and the rounding free of characters.

## Main definitions

* `Decimal`: Digits scaled by a power of ten.
* `Decimal.toNumber`: The nearest number.
* `Decimal.read?`: The grammar of numerals in text.
* `Number.ofText`: The number that a text stands for.
-/

namespace Scriptlet

/-- The quantity `digits * 10 ^ exponent`, negated if so marked. -/
structure Decimal where
  negative : Bool
  digits : Nat
  exponent : Int
deriving DecidableEq

namespace Decimal

/-- The value of a row of digits. Each digit shifts what came before it. -/
def ofDigits (cs : List Char) : Nat :=
  cs.foldl (fun n c => 10 * n + (c.toNat - '0'.toNat)) 0

/-- The number nearest to a decimal, infinite where it is too large. -/
def toNumber (d : Decimal) : Float :=
  Number.signed d.negative <|
    match d.exponent with
    | .ofNat k => Float.ofScientific d.digits false k
    | .negSucc k => Float.ofScientific d.digits true (k + 1)

/-- Takes an optional sign off the front; the flag says whether it was a minus. -/
def takeSign : List Char → Bool × List Char
  | '-' :: cs => (true, cs)
  | '+' :: cs => (false, cs)
  | cs => (false, cs)

/-- Reads the exponent behind a mantissa: nothing, or the letter `e` in either case, an optional
    sign and at least one digit. -/
def readExponent? : List Char → Option Int
  | [] => some 0
  | c :: cs =>
    if c = 'e' ∨ c = 'E' then
      let (negative, ds) := takeSign cs
      if ds ≠ [] ∧ ds.all Char.isDigit then
        some (if negative then -(ofDigits ds : Int) else ofDigits ds)
      else
        none
    else
      none

/-- Takes a point and the digits behind it off the front, if there is a point. -/
def takeFraction : List Char → List Char × List Char
  | '.' :: cs => (cs.takeWhile Char.isDigit, cs.dropWhile Char.isDigit)
  | cs => ([], cs)

/-- Reads a numeral: an optional sign, digits with at most one point among or around them, and an
    optional exponent. At least one digit has to be there. -/
def read? (cs : List Char) : Option Decimal :=
  let (negative, cs) := takeSign cs
  let whole := cs.takeWhile Char.isDigit
  let (fraction, rest) := takeFraction (cs.dropWhile Char.isDigit)
  if whole = [] ∧ fraction = [] then
    none
  else
    (readExponent? rest).map fun exponent =>
      ⟨negative, ofDigits (whole ++ fraction), exponent - fraction.length⟩

end Decimal

/-- The number that a text stands for. Blanks around it do not count, nothing stands for zero, and
    what is neither a numeral nor a signed infinity is not a number. -/
def Number.ofText (text : String) : Float :=
  let cs := Text.trim text.toList
  if cs = [] then 0.0
  else if cs = "Infinity".toList ∨ cs = "+Infinity".toList then infinity
  else if cs = "-Infinity".toList then -infinity
  else match Decimal.read? cs with
    | some d => d.toNumber
    | none => nan

end Scriptlet
