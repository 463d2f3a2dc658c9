import Scriptlet.Value.Json

/-!
# Contexts

The names that a script can use, and what they stand for. A context comes in as
a JSON object and goes out as one.

## Main definitions

* `Context`: Names and the values bound to them.
* `Context.ofJson?`: The context that a document describes.
* `Context.toJson`: The document of a context.
* `ContextError`: A document that describes no context.
-/

namespace Scriptlet

/-- Names and the values bound to them. -/
abbrev Context := Record Value

/-- A document that is not an object describes no context. -/
structure ContextError where
  found : Json

/-- The wording of a context error. -/
def ContextError.message (e : ContextError) : String :=
  "context must be a JSON object, got " ++ e.found.kindName

namespace Context

variable {σ : Type}

/-- The context that a document describes, and the store that has its contents. -/
def ofJson? (document : Json) (s : Store σ) : Except ContextError (Context × Store σ) :=
  match document with
  | .object fields =>
    let (entries, s) := Value.ofJsonFields fields s
    .ok (.ofList entries, s)
  | other => .error ⟨other⟩

/-- The document of a context. -/
def toJson (s : Store σ) (context : Context) : Json :=
  .object (context.entries.map fun e => (e.1, e.2.toJson s))

end Context

end Scriptlet
