import Scriptlet.Literal

/-!
# Values

What expressions evaluate to. Arrays, objects, host objects and functions are
shared: a value only refers to them, every holder of a reference sees the same
contents, and two references are equal if they refer to the same thing. What
they refer to is kept in a store.

## Main definitions

* `ArrayRef`, `ObjectRef`, `HostRef`, `FunctionRef`: References.
* `Value`: Values.
* `ValueType`, `Value.type`: The types of values.
* `Value.isTruthy`: Whether a value counts as true.
* `Value.equals`: Equality without conversion.
-/

namespace Scriptlet

/-- Refers to an array. -/
structure ArrayRef where
  index : Nat
deriving DecidableEq

/-- Refers to an object. -/
structure ObjectRef where
  index : Nat
deriving DecidableEq

/-- Refers to an object of the host. -/
structure HostRef where
  index : Nat
deriving DecidableEq

/-- Refers to a function of the host. -/
structure FunctionRef where
  index : Nat
deriving DecidableEq

/-- Values of scripts. -/
inductive Value where
  | undefined
  | null
  | truth (value : Bool)
  | number (value : Float)
  | text (value : String)
  | array (ref : ArrayRef)
  | object (ref : ObjectRef)
  | host (ref : HostRef)
  | function (ref : FunctionRef)
deriving DecidableEq

/-- The types of values. -/
inductive ValueType where
  | undefined
  | null
  | truth
  | number
  | text
  | array
  | object
  | host
  | function
deriving DecidableEq

/-- The name of a type in messages. -/
def ValueType.name : ValueType → String
  | undefined => "Undefined"
  | null => "Null"
  | truth => "Bool"
  | number => "Number"
  | text => "String"
  | array => "Array"
  | object => "Object"
  | host => "Host"
  | function => "Function"

namespace Value

/-- The type of a value. -/
def type : Value → ValueType
  | undefined => .undefined
  | null => .null
  | truth _ => .truth
  | number _ => .number
  | text _ => .text
  | array _ => .array
  | object _ => .object
  | host _ => .host
  | function _ => .function

/-- The value of a literal. -/
def ofLiteral : Literal → Value
  | .number x => number x
  | .text s => text s
  | .truth b => truth b

/-- Whether a value counts as true. What is shared counts as true even where it is empty. -/
def isTruthy : Value → Bool
  | undefined | null => false
  | truth b => b
  | number x => !(x == 0.0) && !x.isNaN
  | text s => s ≠ ""
  | array _ | object _ | host _ | function _ => true

/-- Equality without conversion. Numbers are compared as numbers, so one that is none differs from
    itself; what is shared equals only itself. -/
def equals : Value → Value → Bool
  | undefined, undefined | null, null => true
  | truth a, truth b => a = b
  | number a, number b => a == b
  | text a, text b => a = b
  | array a, array b => a = b
  | object a, object b => a = b
  | host a, host b => a = b
  | function a, function b => a = b
  | _, _ => false

end Value

end Scriptlet
