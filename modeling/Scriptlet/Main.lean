import Scriptlet.CommandLine

/-!
# The Program

Reads files, the standard input and the environment for the command line, and
prints what comes of it.
-/

open Scriptlet

/-- Reads a text from outside. -/
def readSource (source : TextSource) : IO (Except String String) := do
  try
    match source with
    | .file path => pure (.ok (← IO.FS.readFile path))
    | .input =>
      let bytes ← (← IO.getStdin).readBinToEnd
      match String.fromUTF8? bytes with
      | some text => pure (.ok text)
      | none => pure (.error "the input is not text")
  catch e => pure (.error e.toString)

/-- Performs the command line. -/
def main (args : List String) : IO UInt32 := do
  let environment ← IO.getEnv "PAWX_EXPR_CONTEXT"
  let seed ← IO.monoNanosNow
  let result ← (CommandLine.perform readSource seed.toUInt64 args environment).run
  let report := Report.ofResult result
  IO.print report.output
  IO.eprint report.complaint
  pure report.exitCode.toUInt32
