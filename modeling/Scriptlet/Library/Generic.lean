import Scriptlet.Library.Arrays
import Scriptlet.Library.Texts
import Scriptlet.Value.Arithmetic

/-!
# Generic Functions

Functions that are called by name alone: sums and choices over any number of
values, and methods of texts and arrays that take their receiver as an
argument.

## Main definitions

* `Generic.sum`, `Generic.or`, `Generic.and`: Folds of an operator over the arguments.
* `Generic.string`: The text of a value.
* `Generic.function?`: All functions by name.
-/

namespace Scriptlet

/-- The first of two values that counts as true, or the second. -/
def Value.either (a b : Value) : Value :=
  if a.isTruthy then a else b

/-- The first of two values that does not count as true, or the second. -/
def Value.both (a b : Value) : Value :=
  if a.isTruthy then b else a

namespace Generic

variable {σ : Type}

/-- The sum of the arguments, from zero. -/
def sum : Native σ := fun args s =>
  (.ok (args.foldl (Value.add s) (.number 0.0)), s)

/-- The first argument that counts as true, or the last one. -/
def or : Native σ := fun args s =>
  (.ok (args.foldl Value.either (.number 0.0)), s)

/-- The first argument that does not count as true, or the last one. -/
def and : Native σ := fun args s =>
  (.ok (args.foldl Value.both (.truth true)), s)

/-- A method that takes a text or an array, whichever its first argument is. -/
def onTextOrArray (name : String) (onText onArray : Native σ) : Native σ := fun args s =>
  match args with
  | .text _ :: _ => onText args s
  | .array _ :: _ => onArray args s
  | _ => (.error (.wantsTextOrArray name), s)

/-- A method that takes a text as its first argument. -/
def onText (name : String) (method : Native σ) : Native σ := fun args s =>
  match args with
  | .text _ :: _ => method args s
  | _ => (.error (.wantsText name), s)

/-- The text of a value that is there. -/
def string : Native σ := fun args s =>
  match args with
  | [] | .undefined :: _ => (.error (.noText "undefined"), s)
  | .null :: _ => (.error (.noText "null"), s)
  | v :: _ => (.ok (.text (v.toText s)), s)

/-- The generic functions by name. -/
def function? : String → Option (Native σ)
  | "sum" => some sum
  | "or" => some or
  | "and" => some and
  | "indexOf" => some (onTextOrArray "indexOf" TextMethod.indexOf ArrayMethod.indexOf)
  | "slice" => some (onTextOrArray "slice" TextMethod.slice ArrayMethod.slice)
  | "split" => some (onText "split" TextMethod.split)
  | "string" => some string
  | "replace" => some (onText "replace" TextMethod.replace)
  | _ => none

end Generic

end Scriptlet
