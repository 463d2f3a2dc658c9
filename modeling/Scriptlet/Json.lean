import Scriptlet.Number.Text

/-!
# JSON Documents

The documents in which contexts come in and go out and trees are shown. An
integer and a number with a point or an exponent are different documents, since
they are written differently.

## Main definitions

* `Json`: A document.
* `Json.compact`: Its text without any spacing.
* `Json.pretty`: Its text with one entry a line.
* `Json.kindName`: What a document is, in words.
-/

namespace Scriptlet

/-- A JSON document. The fields of an object keep their order. -/
inductive Json where
  | null
  | truth (value : Bool)
  | integer (value : Int)
  | float (value : Float)
  | text (value : String)
  | array (items : List Json)
  | object (fields : List (String × Json))

namespace Json

/-- A digit of a character code, in hexadecimal and four places. -/
def controlCode (c : Char) : List Char :=
  let digits := Nat.toDigits 16 c.toNat
  List.replicate (4 - digits.length) '0' ++ digits

/-- A character as it stands in a quoted text. Only what would end the text or break the line has to
    be escaped. -/
def escaped (c : Char) : List Char :=
  match c with
  | '"' => ['\\', '"']
  | '\\' => ['\\', '\\']
  | '\x08' => ['\\', 'b']
  | '\x0c' => ['\\', 'f']
  | '\n' => ['\\', 'n']
  | '\r' => ['\\', 'r']
  | '\t' => ['\\', 't']
  | c => if c.toNat < 0x20 then '\\' :: 'u' :: controlCode c else [c]

/-- A text between quotes. -/
def quote (s : String) : String :=
  String.ofList ('"' :: s.toList.flatMap escaped ++ ['"'])

/-- The text of an integer. -/
def integerText (i : Int) : String :=
  (if i < 0 then "-" else "") ++ String.ofList (Decimal.digitsOf i.natAbs)

/-- The text of a number with a point or an exponent. Numbers that are not finite have none. -/
def floatText (x : Float) : String :=
  (Number.toMarked? x).getD "null"

mutual

/-- The text of a document without any spacing. -/
def compact : Json → String
  | null => "null"
  | truth true => "true"
  | truth false => "false"
  | integer i => integerText i
  | float x => floatText x
  | text s => quote s
  | array items => "[" ++ String.intercalate "," (compactItems items) ++ "]"
  | object fields => "\x7b" ++ String.intercalate "," (compactFields fields) ++ "\x7d"

/-- The texts of the items of an array. -/
def compactItems : List Json → List String
  | [] => []
  | item :: items => item.compact :: compactItems items

/-- The texts of the fields of an object. -/
def compactFields : List (String × Json) → List String
  | [] => []
  | (key, value) :: fields => (quote key ++ ":" ++ value.compact) :: compactFields fields

end

/-- The start of a line `depth` containers deep. -/
def newLine (depth : Nat) : String :=
  "\n" ++ String.join (List.replicate depth "  ")

/-- Entries on lines of their own between brackets. An empty container takes no lines. -/
def spread (depth : Nat) (opener closer : String) (entries : List String) : String :=
  if entries = [] then
    opener ++ closer
  else
    opener ++ newLine (depth + 1) ++ String.intercalate ("," ++ newLine (depth + 1)) entries ++
      newLine depth ++ closer

mutual

/-- The text of a document `depth` containers deep, with one entry a line. -/
def prettyAt (depth : Nat) : Json → String
  | array items => spread depth "[" "]" (prettyItems (depth + 1) items)
  | object fields => spread depth "\x7b" "\x7d" (prettyFields (depth + 1) fields)
  | scalar => scalar.compact

/-- The texts of the items of an array. -/
def prettyItems (depth : Nat) : List Json → List String
  | [] => []
  | item :: items => prettyAt depth item :: prettyItems depth items

/-- The texts of the fields of an object. -/
def prettyFields (depth : Nat) : List (String × Json) → List String
  | [] => []
  | (key, value) :: fields =>
    (quote key ++ ": " ++ prettyAt depth value) :: prettyFields depth fields

end

/-- The text of a document with one entry a line. -/
def pretty (document : Json) : String :=
  prettyAt 0 document

/-- What a document is, in words. -/
def kindName : Json → String
  | null => "null"
  | truth _ => "a boolean"
  | integer _ | float _ => "a number"
  | text _ => "a string"
  | array _ => "an array"
  | object _ => "an object"

end Json

end Scriptlet
