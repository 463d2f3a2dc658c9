import Scriptlet.Issue
import Scriptlet.Location
import Scriptlet.Number.Text

/-!
# Diagnostics

An issue as it is shown to people: what it is, where it is, the line of the
script that it is on, and a caret below the place.

## Main definitions

* `Diagnostic`: An issue beside the script that it is about.
* `Diagnostic.sourceRow`, `Diagnostic.caretRow`: The line of the script, and the caret.
* `Diagnostic.render`: The whole text.
-/

namespace Scriptlet

/-- An issue beside the script that it is about. -/
structure Diagnostic where
  file : String
  script : List Char
  issue : Issue

namespace Diagnostic

/-- Where the issue is. -/
def location (d : Diagnostic) : Location :=
  .ofOffset d.script d.issue.position

/-- The line of the script that the issue is on. -/
def line (d : Diagnostic) : List Char :=
  (textLines d.script)[d.location.line - 1]?.getD []

/-- The digits of a number, right-aligned to three places. -/
def lineNumber (n : Nat) : List Char :=
  let digits := Decimal.digitsOf n
  List.replicate (3 - digits.length) ' ' ++ digits

/-- The row with the line of the script. -/
def sourceRow (d : Diagnostic) : List Char :=
  lineNumber d.location.line ++ [' ', '|', ' '] ++ d.line

/-- The row with the caret. -/
def caretRow (d : Diagnostic) : List Char :=
  [' ', ' ', ' ', '|', ' '] ++ List.replicate d.location.column ' ' ++ ['^']

/-- The headline: the code and the message. -/
def headline (d : Diagnostic) : String :=
  "error[" ++ d.issue.kind.code ++ "]: " ++ d.issue.message

/-- The row with the place. Its column counts from one. -/
def placeRow (d : Diagnostic) : String :=
  "  --> " ++ d.file ++ ":" ++ String.ofList (Decimal.digitsOf d.location.line) ++ ":" ++
    String.ofList (Decimal.digitsOf (d.location.column + 1))

/-- The rows that say what may help. -/
def helpRows (d : Diagnostic) : List String :=
  match d.issue.help with
  | some help => ["", "help: " ++ help]
  | none => []

/-- The text of a diagnostic. -/
def render (d : Diagnostic) : String :=
  let rows := [d.headline, d.placeRow, "   |", String.ofList d.sourceRow, String.ofList d.caretRow]
  String.join ((rows ++ d.helpRows).map (· ++ "\n"))

end Diagnostic

end Scriptlet
