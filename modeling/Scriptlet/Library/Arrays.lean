import Scriptlet.Library.Slice

/-!
# Methods of Arrays

Two methods change the array that they are called on, for everyone who holds
it; the others only look at it.

## Main definitions

* `ArrayMethod.withReceiver`: A method of the array that it is called on.
* `ArrayMethod.push`, `ArrayMethod.pop`: The methods that change the array.
* `ArrayMethod.indexOf`, `ArrayMethod.includes`, `ArrayMethod.join`, `ArrayMethod.slice`: The
  others.
* `ArrayMethod.method?`: All methods by name.
-/

namespace Scriptlet

namespace ArrayMethod

variable {σ : Type}

/-- A method of the array that it is called on, given the remaining arguments. -/
def withReceiver (f : ArrayRef → List Value → Store σ → Value × Store σ) : Native σ := fun args s =>
  match args with
  | .array r :: rest =>
    let (v, s) := f r rest s
    (.ok v, s)
  | _ => (.error .notArray, s)

/-- Appends elements and gives the new length. -/
def push : Native σ := withReceiver fun r values s =>
  let elements := s.elements r ++ values.toArray
  (.number (Number.ofNat elements.size), s.setElements r elements)

/-- Takes off the last element and gives it. -/
def pop : Native σ := withReceiver fun r _ s =>
  ((s.elements r).back?.getD .undefined, s.setElements r (s.elements r).pop)

/-- Where a value first occurs, or less than zero. -/
def indexOf : Native σ := withReceiver fun r rest s =>
  let sought := rest.headD .undefined
  (.number (((s.elements r).findIdx? (·.equals sought)).elim (-1.0) Number.ofNat), s)

/-- Whether an element is the value sought. Other than for equality, what is not a number is sought
    and found. -/
def isSought (sought element : Value) : Bool :=
  match element, sought with
  | .number a, .number b => (a.isNaN && b.isNaN) || a == b
  | a, b => a.equals b

/-- Whether a value occurs. -/
def includes : Native σ := withReceiver fun r rest s =>
  (.truth ((s.elements r).any (isSought (rest.headD .undefined))), s)

/-- The texts of the elements with a separator between them. -/
def join : Native σ := withReceiver fun r rest s =>
  let separator := (Arguments.optional? rest 0).elim "," (Value.toText s)
  (.text (Value.join s separator r), s)

/-- A new array of a part of the elements. -/
def slice : Native σ := withReceiver fun r rest s =>
  let elements := s.elements r
  let (start, stop) := Slice.bounds s (.array r :: rest) elements.size
  s.newArray (elements.extract start stop)

/-- The methods of arrays by name. -/
def method? : String → Option (Native σ)
  | "push" => some push
  | "pop" => some pop
  | "indexOf" => some indexOf
  | "includes" => some includes
  | "join" => some join
  | "slice" => some slice
  | _ => none

end ArrayMethod

end Scriptlet
