/-!
# Issues

What a reader of a script is told when something is wrong with it: which kind
of fault it is, what it is in words, where it is, and sometimes how to help it.
A fault gives its cause in a form that the phases can tell apart; an issue is
what it comes down to for the reader.

## Main definitions

* `IssueKind`: The kinds of fault, each with a stable code.
* `Issue`: A fault in words and its place.
* `Issue.shift`: The same issue seen from the start of a longer text.
-/

namespace Scriptlet

/-- The kinds of fault. The first two arise before a script runs, the others while it runs. -/
inductive IssueKind where
  | lexical
  | grammatical
  | reference
  | typing
  | runtime
deriving DecidableEq

namespace IssueKind

/-- The stable code of a kind. -/
def code : IssueKind → String
  | lexical => "E_LEX"
  | grammatical => "E_SYNTAX"
  | reference => "E_REFERENCE"
  | typing => "E_TYPE"
  | runtime => "E_RUNTIME"

/-- Whether faults of a kind arise before a script runs. -/
def isCompileTime : IssueKind → Bool
  | lexical | grammatical => true
  | reference | typing | runtime => false

end IssueKind

/-- A fault in words. The position counts characters from the start of the text at hand. -/
structure Issue where
  kind : IssueKind
  message : String
  position : Nat
  help : Option String := none
deriving DecidableEq

/-- The issue as it is seen from the start of a longer text, in which the text at hand begins
    `offset` characters later. -/
def Issue.shift (offset : Nat) (issue : Issue) : Issue :=
  { issue with position := issue.position + offset }

end Scriptlet
