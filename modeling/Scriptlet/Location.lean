/-!
# Locations

A place in a text as people name it, by line and column, and the lines
themselves. Lines are counted by the newlines before the place; the text of a
line leaves out what ends it, a newline or a return and a newline.

## Main definitions

* `Location`: A line, counted from one, and a column, counted from zero.
* `Location.ofOffset`: The location of the character at an offset.
* `textLines`: The lines of a text.
-/

namespace Scriptlet

/-- A line, counted from one, and a column, counted from zero. -/
structure Location where
  line : Nat
  column : Nat
deriving DecidableEq

namespace Location

/-- The location at the start of a text. -/
def start : Location :=
  ⟨1, 0⟩

/-- The location behind a character. -/
def advance (l : Location) (c : Char) : Location :=
  if c = '\n' then ⟨l.line + 1, 0⟩ else ⟨l.line, l.column + 1⟩

/-- The location of an offset. Offsets beyond the end of the text count as its end. -/
def ofOffset (text : List Char) (offset : Nat) : Location :=
  (text.take offset).foldl advance start

end Location

/-- The lines of a text without their ends. Nothing behind the last newline is no line. -/
def textLines : List Char → List (List Char)
  | [] => []
  | '\n' :: cs => [] :: textLines cs
  | '\r' :: '\n' :: cs => [] :: textLines cs
  | c :: cs =>
    match textLines cs with
    | [] => [[c]]
    | line :: lines => (c :: line) :: lines

end Scriptlet
