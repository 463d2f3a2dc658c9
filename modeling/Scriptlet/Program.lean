import Scriptlet.Eval
import Scriptlet.Expr.Parse
import Scriptlet.Segment
import Scriptlet.Text.Blank

/-!
# Programs

A program is a script that was compiled: its statements in order, each with the
text that it was read from and the place of that text in the script. It can run
any number of times on any machine.

Nothing runs unless all of a script compiles. A statement that fails ends the
run, and what the statements before it did stays done. Positions are those of
the script, whichever statement is at fault.

## Main definitions

* `Statement`, `Program`: A compiled segment, and all those of a script.
* `Program.compile`: The program of a script.
* `CompileError`: The fault of a segment that does not compile.
* `Program.run`: Runs a program.
-/

namespace Scriptlet

/-- A segment of a script and the expression that it reads as. -/
structure Statement where
  offset : Nat
  text : List Char
  expr : Expr

/-- The statements of a script, in order. -/
structure Program where
  statements : List Statement

/-- The fault of a segment. -/
structure CompileError where
  segment : Segment
  error : Fault

/-- A compile error in words. The message shows the segment with a mark at the fault. -/
def CompileError.issue (e : CompileError) : Issue :=
  let issue := e.error.issue
  let before := String.ofList (e.segment.text.take issue.position)
  let behind := String.ofList (e.segment.text.drop issue.position)
  let message := issue.message ++ ": " ++ before ++ " >>" ++ behind
  { issue with message }.shift e.segment.offset

/-- The statement of a segment. -/
def Statement.ofSegment (segment : Segment) : Except CompileError Statement :=
  match Expr.parse segment.text with
  | .ok expr => .ok ⟨segment.offset, segment.text, expr⟩
  | .error error => .error ⟨segment, error⟩

namespace Program

/-- The statements of segments. Blank segments have none. -/
def compileSegments : List Segment → Except CompileError (List Statement)
  | [] => .ok []
  | segment :: segments =>
    if Text.isAllBlank segment.text then compileSegments segments
    else do
      let statement ← Statement.ofSegment segment
      let statements ← compileSegments segments
      pure (statement :: statements)

/-- The program of a script. -/
def compile (script : List Char) : Except CompileError Program := do
  let statements ← compileSegments (Segment.ofScript script)
  pure ⟨statements⟩

variable {σ : Type} [Host σ]

/-- Runs statements one after the other. -/
def runAll (budget : Nat) : List Statement → Eval σ Unit
  | [] => pure ()
  | statement :: statements => do
    let _ ← (evaluate budget statement.expr).shifted statement.offset
    runAll budget statements

/-- Runs a program. -/
def run (budget : Nat) (program : Program) : Eval σ Unit :=
  runAll budget program.statements

end Program

end Scriptlet
