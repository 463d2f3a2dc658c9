import Scriptlet.Value.Text

/-!
# Arguments

Library functions take any number of arguments of any type. A missing argument
is not a number where a number is wanted, and its text is that of undefined. An
optional argument may also be given as undefined.

## Main definitions

* `Native`: A function of the library.
* `Arguments.number`, `Arguments.text`, `Arguments.optional?`: The arguments by place.
-/

namespace Scriptlet

/-- A function of the library. The receiver of a method is its first argument. -/
abbrev Native (σ : Type) := List Value → Store σ → Reply σ Value

namespace Arguments

variable {σ : Type}

/-- An argument as a number. -/
def number (s : Store σ) (args : List Value) (i : Nat) : Float :=
  args[i]?.elim Number.nan (Value.toNumber s)

/-- An argument as a text. -/
def text (s : Store σ) (args : List Value) (i : Nat) : String :=
  args[i]?.elim "undefined" (Value.toText s)

/-- An argument that may be left out. -/
def optional? (args : List Value) (i : Nat) : Option Value :=
  match args[i]? with
  | none | some .undefined => none
  | some v => some v

end Arguments

end Scriptlet
