import Scriptlet.Json
import Scriptlet.Store
import Scriptlet.Value.Writing

/-!
# Values as Documents

Values go out as JSON documents and come in from them. On the way out, what a
document cannot hold becomes null: functions, host objects, numbers that are
not finite, and an array or object reached again from within itself. On the way
in every array and object of the document is a new one.

## Main definitions

* `Value.toJsonWithin`: The document of a value while containers are being written.
* `Value.toJson`: The document of a value.
* `Value.ofJson`: The value of a document, and the store that has its contents.
-/

namespace Scriptlet

namespace Value

variable {σ : Type}

/-- Whole numbers below this are written as integers. -/
def integerBound : Nat := 9000000000000000

/-- The document of a number. -/
def numberJson (x : Float) : Json :=
  match Number.integer? x with
  | some i => if i.natAbs < integerBound then .integer i else .float x
  | none => if x.isFinite then .float x else .null

/-- The document of a value that contains nothing. -/
def plainJson : Value → Json
  | truth b => .truth b
  | number x => numberJson x
  | text t => .text t
  | undefined | null | array _ | object _ | host _ | function _ => .null

/-- The document of a value while containers are being written. -/
def toJsonWithin (s : Store σ) (v : Value) : Writing Json := do
  match v with
  | array r =>
    if ← Writing.enter (.array r) then
      let items ← (s.elements r).toList.mapM fun item => item |>.toJsonWithin s
      Writing.leave (.array r)
      pure (.array items)
    else
      pure .null
  | object r =>
    if ← Writing.enter (.object r) then
      let fields ← (s.fields r).entries.mapM fun e => do
        let item ← e.2 |>.toJsonWithin s
        pure (e.1, item)
      Writing.leave (.object r)
      pure (.object fields)
    else
      pure .null
  | v => pure v.plainJson
partial_fixpoint

/-- The document of a value. -/
def toJson (s : Store σ) (v : Value) : Json :=
  (toJsonWithin s v).result .null

mutual

/-- The value of a document, and the store that has its contents. -/
def ofJson : Json → Store σ → Value × Store σ
  | .null, s => (null, s)
  | .truth b, s => (truth b, s)
  | .integer i, s => (number (Number.ofInt i), s)
  | .float x, s => (number x, s)
  | .text t, s => (text t, s)
  | .array items, s =>
    let (values, s) := ofJsonItems items s
    s.newArray values.toArray
  | .object fields, s =>
    let (entries, s) := ofJsonFields fields s
    s.newObject (.ofList entries)

/-- The values of the items of an array. -/
def ofJsonItems : List Json → Store σ → List Value × Store σ
  | [], s => ([], s)
  | item :: items, s =>
    let (v, s) := ofJson item s
    let (vs, s) := ofJsonItems items s
    (v :: vs, s)

/-- The values of the fields of an object. -/
def ofJsonFields : List (String × Json) → Store σ → List (String × Value) × Store σ
  | [], s => ([], s)
  | (key, item) :: fields, s =>
    let (v, s) := ofJson item s
    let (entries, s) := ofJsonFields fields s
    ((key, v) :: entries, s)

end

end Value

end Scriptlet
