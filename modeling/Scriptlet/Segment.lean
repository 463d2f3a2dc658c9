/-!
# Segments

A script is cut into segments at its semicolons. A semicolon inside quotes does
not cut, and a character is inside quotes if an odd number of quotation marks
stands before it. The cut looks at nothing else, so semicolons inside brackets
cut too.

Every segment knows where it starts. Segments are kept also where they are
blank, so that nothing of the script is lost but the semicolons between them.

## Main definitions

* `Segment`: A part of a script and where it starts.
* `cutStatements`: The texts between the semicolons of a script.
* `Segment.ofScript`: The segments of a script.
-/

namespace Scriptlet

/-- A part of a script. The offset counts the characters of the script before it. -/
structure Segment where
  offset : Nat
  text : List Char
deriving DecidableEq

/-- Puts a character in front of the first of several texts. -/
def consFirst (c : Char) : List (List Char) → List (List Char)
  | [] => [[c]]
  | text :: texts => (c :: text) :: texts

/-- The texts between the semicolons of a script that starts inside quotes or not. -/
def cutStatements (quoted : Bool) : List Char → List (List Char)
  | [] => [[]]
  | c :: cs =>
    if c = ';' ∧ quoted = false then [] :: cutStatements quoted cs
    else consFirst c (cutStatements (if c = '"' then !quoted else quoted) cs)

namespace Segment

/-- Segments with the given texts, of which the first starts at an offset and each of the others one
    semicolon after the one before it. -/
def placed (offset : Nat) : List (List Char) → List Segment
  | [] => []
  | text :: texts => ⟨offset, text⟩ :: placed (offset + text.length + 1) texts

/-- The segments of a script. -/
def ofScript (script : List Char) : List Segment :=
  placed 0 (cutStatements false script)

end Segment

end Scriptlet
