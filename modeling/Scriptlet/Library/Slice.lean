import Scriptlet.Library.Arguments

/-!
# Slices

Both texts and arrays can be sliced. A bound is any value: its whole part
counts from the start, or from the end where it is negative, and stops at the
ends of the sequence. What is not a number counts as zero. A slice that would
end before it starts is empty.

Bounds are worked out on natural numbers from the parts of a number, so they
are exact for every length.

## Main definitions

* `Slice.relativeIndex`: The place that a bound means in a sequence of some length.
* `Slice.bounds`: Where the slice that two arguments describe starts and ends.
-/

namespace Scriptlet

namespace Slice

variable {σ : Type}

/-- The place that a bound means in a sequence of some length. -/
def relativeIndex (bound : Float) (length : Nat) : Nat :=
  match Number.parts bound with
  | .nan => 0
  | .infinite negative => if negative then 0 else length
  | .finite negative significand exponent =>
    let n := Number.magnitude significand exponent
    if negative && n ≠ 0 then length - n else min n length

/-- Where the slice of a sequence that the arguments from the second on describe starts and ends. -/
def bounds (s : Store σ) (args : List Value) (length : Nat) : Nat × Nat :=
  let start := (Arguments.optional? args 1).elim 0 fun v => relativeIndex (v.toNumber s) length
  let stop := (Arguments.optional? args 2).elim length fun v => relativeIndex (v.toNumber s) length
  (start, max stop start)

end Slice

end Scriptlet
