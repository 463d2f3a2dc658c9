import Scriptlet.Number.Text

/-!
# Literals

The constants that can be written in a script.

## Main definitions

* `Literal`: A number, a text or a truth value.
* `Literal.source`: A literal as it is written.
-/

namespace Scriptlet

/-- A constant of the source text. -/
inductive Literal where
  | number (value : Float)
  | text (value : String)
  | truth (value : Bool)
deriving DecidableEq

namespace Literal

/-- The word for a truth value. -/
def truthWord : Bool → String
  | true => "true"
  | false => "false"

/-- A literal as it is written: texts stand between quotes. -/
def source : Literal → String
  | number x => Number.toText x
  | text s => "\"" ++ s ++ "\""
  | truth b => truthWord b

end Literal

end Scriptlet
