import Scriptlet.Command
import Scriptlet.Context
import Scriptlet.Diagnostic
import Scriptlet.Expr.Json
import Scriptlet.Expr.Source
import Scriptlet.Json.Read
import Scriptlet.Program

/-!
# The Command Line

What a command prints, and how it fails. A command needs texts from outside,
the script and perhaps a context, and asks for them one at a time: the context
only once the script compiles. Where texts come from is left open, so that the
same definition runs on files and on given texts. Left open as well is what the
program takes over from others: how arguments are understood, and how documents
are read and written.

## Main definitions

* `TextSource`: Where a text comes from.
* `Failure`: How a command fails, with its exit code and its words.
* `Platform`: What is taken over from others.
* `Command.perform`: What a command prints, or how it fails.
* `CommandLine.perform`: The same for the arguments of a command line.
* `Report`: What is seen of it from outside.
-/

namespace Scriptlet

/-- Where a text comes from. -/
inductive TextSource where
  /-- The standard input. -/
  | input
  /-- A file. -/
  | file (path : String)
deriving DecidableEq

namespace TextSource

/-- A file if there is one, else the standard input. -/
def ofPath : Option String → TextSource
  | some path => file path
  | none => input

/-- The name of a source in diagnostics. -/
def name : TextSource → String
  | input => "<stdin>"
  | file path => path

end TextSource

/-- How a command fails. -/
inductive Failure where
  /-- The arguments are not understood. -/
  | usage
  /-- The script does not compile, or fails. -/
  | script (diagnostic : Diagnostic)
  /-- A text cannot be read. -/
  | unreadable (reason : String)
  /-- The context is not a document, or a document cannot be written. -/
  | notJson
  /-- The document of the context describes none. -/
  | notContext (error : ContextError)
  /-- The script was given up, since the steps that it was allowed did not suffice. -/
  | unfinished

namespace Failure

/-- The exit code of a failure. -/
def exitCode : Failure → Nat
  | usage => 2
  | script d => if d.issue.kind.isCompileTime then 2 else 3
  | unreadable _ | notJson | notContext _ => 4
  | unfinished => 5

/-- How the program is used. -/
def usageText : String :=
  "usage: pawx-expr run [script] [--context FILE]\n" ++
    "       pawx-expr ast [script] [--format tree|json|source]\n" ++
    "       pawx-expr --version\n"

/-- A failure in words. -/
def text : Failure → String
  | usage => usageText
  | script d => d.render
  | unreadable reason => "Error: IO error: " ++ reason ++ "\n"
  | notJson => "Error: JSON error: not a JSON document\n"
  | notContext e => "Error: invalid context: " ++ e.message ++ "\n"
  | unfinished => "Error: out of steps\n"

end Failure

/-- How many steps a loop may take: more than there is time for. -/
def stepBudget : Nat :=
  4611686018427387904

/-- What a program takes over from others. -/
structure Platform where
  /-- The command that arguments ask for, where the environment may name the file of a context. -/
  command? : List String → Option String → Option Command
  /-- The document that a text is. -/
  document? : String → Option Json
  /-- A document as a text of several lines. -/
  pretty? : Json → Option String

/-- What the program takes over when it runs. -/
def Platform.stock : Platform where
  command? := Command.ofArguments?
  document? := Json.ofText?
  pretty? document := some document.pretty

/-- A reader of texts, which may fail for a reason. -/
abbrev TextReader (m : Type → Type) := TextSource → m (Except String String)

namespace Command

variable {m : Type → Type} [Monad m] (platform : Platform)

/-- Reads a text. -/
def load (read : TextReader m) (source : TextSource) : ExceptT Failure m String :=
  ExceptT.mk do
    match ← read source with
    | .ok text => pure (.ok text)
    | .error reason => pure (.error (.unreadable reason))

/-- Reads and compiles a script. The script comes along, for diagnostics. -/
def loadProgram (read : TextReader m) (source : TextSource) :
    ExceptT Failure m (List Char × Program) := do
  let script := (← load read source).toList
  match Program.compile script with
  | .ok program => pure (script, program)
  | .error e => throw (.script ⟨source.name, script, e.issue⟩)

/-- Reads a context, which is empty if there is no file to read it from. -/
def loadContext (read : TextReader m) (path : Option String) (s : Store Unit) :
    ExceptT Failure m (Context × Store Unit) :=
  match path with
  | none => pure (.empty, s)
  | some path => do
    match platform.document? (← load read (.file path)) with
    | none => throw .notJson
    | some document =>
      match Context.ofJson? document s with
      | .ok loaded => pure loaded
      | .error e => throw (.notContext e)

/-- Writes a document, and a line break behind it. -/
def printDocument (document : Json) : ExceptT Failure m String :=
  match platform.pretty? document with
  | some text => pure (text ++ "\n")
  | none => throw .notJson

/-- Runs a script on a context, and prints the context that results. -/
def performRun (budget : Nat) (read : TextReader m) (seed : UInt64)
    (script context : Option String) : ExceptT Failure m String := do
  let source := TextSource.ofPath script
  let (text, program) ← loadProgram read source
  let (context, store) ← loadContext platform read context (.empty seed ())
  match program.run budget { store, context } with
  | (.value (), machine) => printDocument platform (machine.context.toJson machine.store)
  | (.failed e, _) => throw (.script ⟨source.name, text, e.issue⟩)
  | (.unfinished, _) => throw .unfinished

/-- Writes syntax trees. -/
def printTrees (trees : List Expr) : Format → ExceptT Failure m String
  | .tree => pure (String.join (trees.map Expr.outline))
  | .source => pure (String.join (trees.map (·.source ++ "\n")))
  | .json => printDocument platform (.array (trees.map Expr.toJson))

/-- Prints the syntax trees of a script. -/
def performAst (read : TextReader m) (script : Option String) (format : Format) :
    ExceptT Failure m String := do
  let (_, program) ← loadProgram read (.ofPath script)
  printTrees platform (program.statements.map (·.expr)) format

/-- What a command prints, or how it fails. -/
def perform (budget : Nat) (read : TextReader m) (seed : UInt64) :
    Command → ExceptT Failure m String
  | version => pure "pawx-expr 0.1.0\n"
  | run script context => performRun platform budget read seed script context
  | ast script format => performAst platform read script format

end Command

namespace CommandLine

variable {m : Type → Type} [Monad m]

/-- What a command line prints, or how it fails. -/
def perform (read : TextReader m) (seed : UInt64) (args : List String)
    (environment : Option String) (platform : Platform := .stock) (budget : Nat := stepBudget) :
    ExceptT Failure m String :=
  match platform.command? args environment with
  | some command => command.perform platform budget read seed
  | none => throw .usage

end CommandLine

/-- What is seen of a command from outside. -/
structure Report where
  exitCode : Nat
  output : String
  complaint : String
deriving DecidableEq

/-- The report of what a command printed, or how it failed. -/
def Report.ofResult : Except Failure String → Report
  | .ok output => ⟨0, output, ""⟩
  | .error failure => ⟨failure.exitCode, "", failure.text⟩

end Scriptlet
