import Scriptlet.Number.Decimal

/-!
# Shortest Decimals

Every double is surrounded by the reals that round to it. The decimal with the
fewest digits among those is the shortest text that still reads back as the
same number, and of several such decimals the nearest is taken.

The search is over grids of multiples of a power of ten, from coarse to fine:
on each grid only the two neighbours of the number need a look, since a grid
that has a point in the interval has a neighbour in it. The first grid that
hits gives the fewest digits. All comparisons are between natural numbers,
with the number and its interval counted in quarters of the last binary place.

## Main definitions

* `Tie`: Which of two equally near decimals is taken.
* `Decimal.onGrid`: The decimal of one grid that reads back.
* `Decimal.shortest`: The decimal of the coarsest grid that has one.
-/

namespace Scriptlet

/-- Which of two equally near neighbours is taken. -/
inductive Tie where
  | up
  | even
deriving DecidableEq

namespace Decimal

-- Powers of natural numbers are the built-in ones, also where other powers are known.
attribute [local instance(high)] instPowNat

/-- The least exponent of a double. -/
def leastExponent : Int := -1074

/-- The least significand that fills all binary places of a double. -/
def fullSignificand : Nat := 2 ^ (52 : Nat)

/-- How far below `significand * 2 ^ exponent` the reals still round to it, in quarters of the last
    place. Below a power of two the doubles lie twice as close. -/
def quartersBelow (significand : Nat) (exponent : Int) : Nat :=
  if significand = fullSignificand ∧ leastExponent < exponent then 1 else 2

/-- Chooses between the lower neighbour `c` and the next one on a grid of width `width`, where
    `excess` is what the number has beyond `c`. -/
def nearer (tie : Tie) (c excess width : Nat) : Nat :=
  if 2 * excess < width then c
  else if width < 2 * excess then c + 1
  else match tie with
    | .up => c + 1
    | .even => if c % 2 = 0 then c else c + 1

/-- The multiple of `10 ^ place` that rounds to `significand * 2 ^ exponent`, if one of the two
    neighbours does. The ends of the interval belong to it where the significand is even. -/
def onGrid (tie : Tie) (significand : Nat) (exponent place : Int) : Option Nat :=
  let scale := 2 ^ (exponent - 2).toNat * 10 ^ (-place).toNat
  let width := 2 ^ (2 - exponent).toNat * 10 ^ place.toNat
  let value := 4 * significand * scale
  let low := value - quartersBelow significand exponent * scale
  let high := value + 2 * scale
  let inside (n : Nat) : Bool :=
    if significand % 2 = 0 then low ≤ n * width ∧ n * width ≤ high
    else low < n * width ∧ n * width < high
  let c := value / width
  match inside c, inside (c + 1) with
  | true, true => some (nearer tie c (value - c * width) width)
  | true, false => some c
  | false, true => some (c + 1)
  | false, false => none

/-- A place to start at: every multiple of the next higher power of ten lies outside the
    interval of `significand * 2 ^ exponent`. -/
def topPlace (significand : Nat) (exponent : Int) : Int :=
  (significand.log2 + exponent) * 30103 / 100000 + 1

/-- The decimal with the fewest digits that reads back as `significand * 2 ^ exponent`. Twenty
    places from the top reach beyond seventeen digits, and seventeen always suffice. -/
def shortest (tie : Tie) (negative : Bool) (significand : Nat) (exponent : Int) : Decimal :=
  let top := topPlace significand exponent
  let hit := (List.range 20).findSome? fun (i : Nat) =>
    (onGrid tie significand exponent (top - i)).map fun c => (c, top - (i : Int))
  match hit with
  | some (digits, place) => ⟨negative, digits, place⟩
  | none => ⟨negative, 0, 0⟩

end Decimal

end Scriptlet
