import Scriptlet.Host
import Scriptlet.Text.Quoted
import Scriptlet.Value.Writing

/-!
# Values as Text and as Numbers

Every value has a text form and a number form. The text of an array joins the
texts of its elements. An array that is reached again while it is being written
adds nothing.

## Main definitions

* `ArrayRef.joinWithin`, `Value.textWithin`: Texts while arrays are being written.
* `Value.join`: The texts of the elements of an array with a separator.
* `Value.toText`: The text form of a value.
* `Value.toNumber`: The number form of a value.
* `Value.inspect`: A value for the eyes of a developer.
-/

namespace Scriptlet

variable {σ : Type}

/-- The text of a value that is not an array. -/
def Value.plainText : Value → String
  | undefined => "undefined"
  | null => "null"
  | truth b => Literal.truthWord b
  | number x => Number.toText x
  | text s => s
  | array _ => ""
  | object _ | host _ => "[object Object]"
  | function _ => "[function]"

/-- The texts of the elements of an array with a separator between them. Missing elements add
    nothing between the separators, and arrays inside arrays are joined with commas. -/
def ArrayRef.joinWithin (s : Store σ) (separator : String) (r : ArrayRef) : Writing String := do
  if ← Writing.enter (.array r) then
    let texts ← (s.elements r).toList.mapM fun
      | .undefined | .null => pure ""
      | .array q => q |>.joinWithin s ","
      | v => pure v.plainText
    Writing.leave (.array r)
    pure (String.intercalate separator texts)
  else
    pure ""
partial_fixpoint

namespace Value

open ArrayRef (joinWithin)

/-- The text form of a value while arrays are being written. -/
def textWithin (s : Store σ) : Value → Writing String
  | array r => joinWithin s "," r
  | v => pure v.plainText

/-- The texts of the elements of an array with a separator between them. -/
def join (s : Store σ) (separator : String) (r : ArrayRef) : String :=
  (joinWithin s separator r).result ""

/-- The text form of a value. -/
def toText (s : Store σ) (v : Value) : String :=
  (textWithin s v).result ""

/-- The number form of a value. An array counts by its text, so the empty one is zero. -/
def toNumber (s : Store σ) : Value → Float
  | undefined => Number.nan
  | null => 0.0
  | truth b => if b then 1.0 else 0.0
  | number x => x
  | text t => Number.ofText t
  | array r => Number.ofText (toText s (array r))
  | object _ | host _ | function _ => Number.nan

/-- A value for the eyes of a developer, which shows its type. -/
def inspect [Host σ] (s : Store σ) : Value → String
  | undefined => "Undefined"
  | null => "Null"
  | truth b => "Bool(" ++ Literal.truthWord b ++ ")"
  | number x => "Number(" ++ Number.plain x ++ ")"
  | text t => "String(" ++ Text.quoted t ++ ")"
  | array r => "Array([" ++ join s ", " r ++ "])"
  | object r => "[Object keys=" ++ toString (s.fields r).size ++ "]"
  | host r => "[Host " ++ Host.typeName s r ++ "]"
  | function _ => "[NativeFunction]"

end Value

end Scriptlet
