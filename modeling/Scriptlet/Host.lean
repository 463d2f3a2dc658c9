import Scriptlet.Store

/-!
# Hosts

A program that embeds the language is its host. It can hand functions and
objects of its own to scripts, it can forbid assignments to names, and random
numbers come from it. All that scripts see of it is what the host answers, so a
host is no more than its answers together with the world that they may look at
and change.

An operation that is refused says why. The reasons of the language itself are
listed in `Refusal`; a host words its own.

## Main definitions

* `Host`: The answers of a host with a world.
* `Store.draw`: A random number.
* `Refusal`: Why an operation on values is refused.
* `Reply`: The outcome of an operation on values, and the store behind it.
-/

namespace Scriptlet

/-- The random number from zero up to, and without, one that a state of the stock generator gives,
    and the next state. -/
def nextRandom (seed : UInt64) : Float × UInt64 :=
  let seed := seed * 6364136223846793005 + 1442695040888963407
  ((seed >>> 11).toFloat / 9007199254740992.0, seed)

/-- The answers of a host whose world has type `σ`. -/
class Host (σ : Type) where
  /-- The name of the type of a host object. -/
  typeName : Store σ → HostRef → String := fun _ _ => "Object"
  /-- Whether a host object has a member. -/
  has : Store σ → HostRef → String → Bool
  /-- A member of a host object. -/
  get : Store σ → HostRef → String → Value
  /-- Writes a member of a host object. -/
  set : HostRef → String → Value → Store σ → Except String Unit × Store σ
  /-- Calls a method of a host object. -/
  invoke : HostRef → String → List Value → Store σ → Except String Value × Store σ
  /-- Calls a function. -/
  apply : FunctionRef → List Value → Store σ → Except String Value × Store σ
  /-- Why a name may not be assigned to, if so. -/
  guard : Store σ → String → Option String := fun _ _ => none
  /-- Why a name may not be given a value, if so. A host that does not look at the value only guards
      the name. -/
  guardValue : Store σ → String → Value → Option String := fun s name _ => guard s name
  /-- The random number that a state of the generator gives, and the next state. -/
  draw : σ → UInt64 → Float × UInt64 := fun _ seed => nextRandom seed

/-- The host without functions and objects. -/
instance : Host Unit where
  has _ _ _ := false
  get _ _ _ := .undefined
  set _ _ _ s := (.ok (), s)
  invoke _ _ _ s := (.ok .undefined, s)
  apply _ _ s := (.ok .undefined, s)

/-- A random number, and the store with the generator behind it. -/
def Store.draw {σ : Type} [Host σ] (s : Store σ) : Float × Store σ :=
  let (x, seed) := Host.draw s.world s.seed
  (x, { s with seed })

/-- Why an operation on values is refused. -/
inductive Refusal where
  | notFunction (name : String)
  | noProperty (key : String)
  | noProperties (type : ValueType)
  | wantsTextOrArray (function : String)
  | wantsText (function : String)
  | noText (word : String)
  | notText
  | notArray
  | byHost (reason : String)
deriving DecidableEq

/-- The wording of a refusal. -/
def Refusal.message : Refusal → String
  | notFunction name => name ++ " is not a function"
  | noProperty key => "Cannot find property " ++ key ++ " in object"
  | noProperties type => "Cannot assign to a property of " ++ type.name
  | wantsTextOrArray function => function ++ " expects a string or an array"
  | wantsText function => function ++ " expects a string"
  | noText word => "Cannot convert " ++ word ++ " to string"
  | notText => "string method called on a non-string"
  | notArray => "array method called on a non-array"
  | byHost reason => reason

/-- The outcome of an operation on values, and the store behind it. -/
abbrev Reply (σ α : Type) := Except Refusal α × Store σ

namespace Reply

variable {σ α : Type}

/-- The outcome of an operation of the host. -/
def ofHost (reply : Except String α × Store σ) : Reply σ α :=
  match reply with
  | (.ok a, s) => (.ok a, s)
  | (.error reason, s) => (.error (.byHost reason), s)

end Reply

end Scriptlet
