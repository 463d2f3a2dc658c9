import Scriptlet.Value

/-!
# Writing What Is Shared

A value is written out, as text or as a document, together with what it
contains. Arrays and objects are shared, so one may be reached again from within
itself, and writing it there again would never end. Those being written are
therefore kept in a set: a container joins it before its contents are written
and leaves it behind them, and one that is in the set is not written again.

Nothing else limits how far down the writing goes. Writing that does not end has
no result.

## Main definitions

* `Container`: An array or an object.
* `Writing`: Writing with the set of containers that are being written.
* `Writing.enter`, `Writing.leave`: The start and the end of writing a container.
* `Writing.result`: What is written from the outside.
-/

namespace Scriptlet

/-- What a value can contain others in. -/
inductive Container where
  | array (ref : ArrayRef)
  | object (ref : ObjectRef)
deriving DecidableEq

/-- Writing something while a set of containers is being written. -/
abbrev Writing (α : Type) := StateT (List Container) Option α

namespace Writing

variable {α : Type}

/-- Adds a container to those being written. The answer is whether it was not one of them. -/
def enter (c : Container) : Writing Bool := do
  if c ∈ (← get) then
    pure false
  else
    modify (c :: ·)
    pure true

/-- Takes a container out of those being written. -/
def leave (c : Container) : Writing Unit :=
  modify (·.erase c)

/-- What is written from the outside, where no container is being written, or `missing` if that
    does not end. -/
def result (missing : α) (writing : Writing α) : α :=
  (writing.run' []).getD missing

end Writing

end Scriptlet
