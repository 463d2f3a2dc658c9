import Scriptlet.Library.Slice
import Scriptlet.Text.Case
import Scriptlet.Text.Search

/-!
# Methods of Texts

All of them count in characters.

## Main definitions

* `TextMethod.receiver?`: The text that a method is called on.
* `TextMethod.indexOf`, `TextMethod.slice`, `TextMethod.split`, `TextMethod.replace`,
  `TextMethod.charAt`: The methods with arguments of their own kinds.
* `TextMethod.method?`: All methods by name.
-/

namespace Scriptlet

namespace TextMethod

variable {σ : Type}

/-- The text that a method is called on. -/
def receiver? : List Value → Except Refusal (List Char)
  | .text t :: _ => .ok t.toList
  | _ => .error .notText

/-- A method that leaves the store as it is. -/
def pureMethod (f : Store σ → List Char → List Value → Value) : Native σ := fun args s =>
  (f s · args) <$> receiver? args |> (·, s)

/-- A text value. -/
def ofChars (cs : List Char) : Value :=
  .text (String.ofList cs)

/-- Where a text first occurs, or less than zero. The byte is found first, and then the characters
    in front of it are counted. -/
def indexOf : Native σ := pureMethod fun s t args =>
  .number ((Text.findByte? (Arguments.text s args 1).toList t).elim (-1.0) fun byte =>
    Number.ofNat (Text.charactersBefore t byte))

/-- A part of the text. -/
def slice : Native σ := pureMethod fun s t args =>
  let (start, stop) := Slice.bounds s args t.length
  ofChars ((t.take stop).drop start)

/-- The pieces of a text at a delimiter: all of it without one, single characters at the empty
    one. -/
def pieces (t : List Char) : Option (List Char) → List (List Char)
  | none => [t]
  | some [] => t.map ([·])
  | some delimiter => Text.cut delimiter t

/-- The number of elements that a limit allows. Only a finite limit that is not negative counts. -/
def limit? (x : Float) : Option Nat :=
  match Number.parts x with
  | .finite negative significand exponent =>
    if negative && significand ≠ 0 then none else some (Number.magnitude significand exponent)
  | _ => none

/-- A list cut to a limit. -/
def limited {α : Type} (xs : List α) : Option Nat → List α
  | none => xs
  | some n => xs.take n

/-- An array of the pieces of a text at a delimiter, cut to a limit. -/
def split : Native σ := fun args s =>
  match receiver? args with
  | .error e => (.error e, s)
  | .ok t =>
    let delimiter := (Arguments.optional? args 1).map fun v => (v.toText s).toList
    let limit := (Arguments.optional? args 2).bind fun v => limit? (v.toNumber s)
    let (v, s) := s.newArray ((limited (pieces t delimiter) limit).map ofChars).toArray
    (.ok v, s)

/-- The text with the first occurrence of another replaced. -/
def replace : Native σ := pureMethod fun s t args =>
  ofChars (Text.replaceFirst (Arguments.text s args 1).toList (Arguments.text s args 2).toList t)

/-- The character at a place, if the place lies in the text. What is not a number is the start. -/
def charAt? (t : List Char) (place : Float) : Option Char :=
  match Number.parts place with
  | .nan => t.head?
  | .infinite _ => none
  | .finite negative significand exponent =>
    let n := Number.magnitude significand exponent
    if negative && n ≠ 0 then none else t[n]?

/-- The character at a place as a text, empty outside of the text. -/
def charAt : Native σ := pureMethod fun s t args =>
  let place := (Arguments.optional? args 1).elim 0.0 (Value.toNumber s)
  ofChars (charAt? t place).toList

/-- The methods of texts by name. -/
def method? : String → Option (Native σ)
  | "indexOf" => some indexOf
  | "slice" => some slice
  | "split" => some split
  | "replace" => some replace
  | "toUpperCase" => some <| pureMethod fun _ t _ => ofChars (Text.toUpper t)
  | "toLowerCase" => some <| pureMethod fun _ t _ => ofChars (Text.toLower t)
  | "trim" => some <| pureMethod fun _ t _ => ofChars (Text.trim t)
  | "includes" => some <| pureMethod fun s t args =>
    .truth (Text.find? (Arguments.text s args 1).toList t).isSome
  | "startsWith" => some <| pureMethod fun s t args =>
    .truth ((Arguments.text s args 1).toList.isPrefixOf t)
  | "endsWith" => some <| pureMethod fun s t args =>
    .truth (Text.endsIn (Arguments.text s args 1).toList t)
  | "charAt" => some charAt
  | "toString" => some <| pureMethod fun _ t _ => ofChars t
  | _ => none

end TextMethod

end Scriptlet
