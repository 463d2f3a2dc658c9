/-!
# Commands

What the command line asks for. A command takes at most one script and has one
option with a value, which can be given in several ways: the value may follow
as an argument of its own, stand behind an equals sign, or, after the one-letter
form, follow directly. Anything else is not understood.

## Main definitions

* `Format`: How syntax trees are printed.
* `Command`: What the command line asks for.
* `Command.Argument.ofText`: What one argument is.
* `Command.Arguments.read?`: The script and the option among several arguments.
* `Command.ofArguments?`: The command that arguments ask for.
-/

namespace Scriptlet

/-- How syntax trees are printed. -/
inductive Format where
  | tree
  | json
  | source
deriving DecidableEq

/-- The format of a name. -/
def Format.ofName? : String → Option Format
  | "tree" => some tree
  | "json" => some json
  | "source" => some source
  | _ => none

/-- What the command line asks for. A script that is not given is read from the standard input. -/
inductive Command where
  /-- The version of the program. -/
  | version
  /-- Running a script on a context from a file. -/
  | run (script context : Option String)
  /-- The syntax trees of a script. -/
  | ast (script : Option String) (format : Format)
deriving DecidableEq

namespace Command

/-- The names of the option of a command. -/
structure OptionName where
  long : List Char
  short : Char

/-- What one argument of a command is. -/
inductive Argument where
  /-- Not an option. -/
  | plain (text : String)
  /-- The option of the command, with its value if that is part of the argument. -/
  | option (value : Option String)
  /-- The end of the options. -/
  | separator
  /-- An option that the command does not have. -/
  | unknown
deriving DecidableEq

/-- What an argument is. A lone dash is not an option. -/
def Argument.ofText (name : OptionName) (text : String) : Argument :=
  match text.toList with
  | ['-', '-'] => separator
  | '-' :: '-' :: cs =>
    if cs.takeWhile (· != '=') = name.long then
      match cs.dropWhile (· != '=') with
      | [] => option none
      | _ :: value => option (some (String.ofList value))
    else
      unknown
  | '-' :: c :: cs =>
    if c = name.short then
      match cs with
      | [] => option none
      | '=' :: value => option (some (String.ofList value))
      | value => option (some (String.ofList value))
    else
      unknown
  | _ => plain text

/-- The script and the value of the option that arguments give. -/
structure Arguments where
  script : Option String := none
  value : Option String := none

namespace Arguments

/-- Adds the script, of which there is only one. -/
def addScript? (a : Arguments) (path : String) : Option Arguments :=
  if a.script.isSome || path.isEmpty then none else some { a with script := some path }

/-- Adds the value of the option, which may not be given twice. -/
def addValue? (a : Arguments) (value : String) : Option Arguments :=
  if a.value.isSome then none else some { a with value := some value }

/-- Reads arguments. Behind the end of the options all are plain. -/
def read? (name : OptionName) : List String → Arguments → Option Arguments
  | [], a => some a
  | text :: rest, a =>
    match Argument.ofText name text with
    | .plain path => (a.addScript? path).bind (read? name rest)
    | .option (some value) => (a.addValue? value).bind (read? name rest)
    | .option none =>
      match rest with
      | [] => none
      | next :: rest =>
        match Argument.ofText name next with
        | .plain value => (a.addValue? value).bind (read? name rest)
        | _ => none
    | .separator => rest.foldlM addScript? a
    | .unknown => none

end Arguments

/-- The option with the file of the context. -/
def contextOption : OptionName :=
  ⟨['c', 'o', 'n', 't', 'e', 'x', 't'], 'c'⟩

/-- The option with the format. -/
def formatOption : OptionName :=
  ⟨['f', 'o', 'r', 'm', 'a', 't'], 'f'⟩

/-- The command to run a script. A file of a context that is not given is that of the environment,
    and must have a name. -/
def run? (args : List String) (environment : Option String) : Option Command := do
  let a ← Arguments.read? contextOption args {}
  let context := a.value.or environment
  if context = some "" then none else some (run a.script context)

/-- The command to print syntax trees. -/
def ast? (args : List String) : Option Command := do
  let a ← Arguments.read? formatOption args {}
  match a.value with
  | none => some (ast a.script .tree)
  | some name => (Format.ofName? name).map (ast a.script)

/-- The command that arguments ask for, where the environment may name the file of a context. -/
def ofArguments? (args : List String) (environment : Option String) : Option Command :=
  match args with
  | "run" :: args => run? args environment
  | "ast" :: args => ast? args
  | "--version" :: _ => some version
  | arg :: _ => if ['-', 'V'].isPrefixOf arg.toList then some version else none
  | [] => none

end Command

end Scriptlet
