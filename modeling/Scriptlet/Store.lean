import Scriptlet.Record
import Scriptlet.Value

/-!
# Stores

A store holds what values refer to: the contents of all arrays and objects, the
state of a generator of random numbers, and a world that belongs to the host and
that scripts reach only through it.

Looking up and changing contents are total. A reference that a store did not
give out refers to something empty that cannot be changed.

## Main definitions

* `Store`: Contents of arrays and objects, beside the world of the host.
* `Store.elements`, `Store.fields`: The contents of an array or object.
* `Store.setElements`, `Store.setFields`: Changing them.
* `Store.newArray`, `Store.newObject`: Adding an array or object.

## Theorems

* `Store.elements_setElements`, `Store.fields_setFields`: What a change does to the contents.
-/

namespace Scriptlet

/-- What values refer to, where the host keeps a world of type `σ`. -/
structure Store (σ : Type) where
  arrays : Array (Array Value)
  objects : Array (Record Value)
  seed : UInt64
  world : σ

namespace Store

variable {σ : Type}

/-- The store in which nothing is referred to. -/
def empty (seed : UInt64) (world : σ) : Store σ where
  arrays := #[]
  objects := #[]
  seed := seed
  world := world

/-- The elements of an array. -/
def elements (s : Store σ) (r : ArrayRef) : Array Value :=
  s.arrays[r.index]?.getD #[]

/-- The fields of an object. -/
def fields (s : Store σ) (r : ObjectRef) : Record Value :=
  s.objects[r.index]?.getD .empty

/-- The store in which an array has the given elements. -/
def setElements (s : Store σ) (r : ArrayRef) (elements : Array Value) : Store σ :=
  { s with arrays := s.arrays.setIfInBounds r.index elements }

/-- The store in which an object has the given fields. -/
def setFields (s : Store σ) (r : ObjectRef) (fields : Record Value) : Store σ :=
  { s with objects := s.objects.setIfInBounds r.index fields }

/-- Adds an array. -/
def newArray (s : Store σ) (elements : Array Value) : Value × Store σ :=
  (.array ⟨s.arrays.size⟩, { s with arrays := s.arrays.push elements })

/-- Adds an object. -/
def newObject (s : Store σ) (fields : Record Value) : Value × Store σ :=
  (.object ⟨s.objects.size⟩, { s with objects := s.objects.push fields })

theorem elements_setElements (s : Store σ) (r q : ArrayRef) (elements : Array Value) :
    (s.setElements r elements).elements q =
      if q = r ∧ r.index < s.arrays.size then elements else s.elements q := by
  obtain ⟨i⟩ := r
  obtain ⟨j⟩ := q
  simp only [Store.elements, setElements, Array.getElem?_setIfInBounds, ArrayRef.mk.injEq]
  by_cases hij : i = j
  · subst hij
    by_cases hi : i < s.arrays.size <;> simp [hi]
  · simp [hij, Ne.symm hij]

theorem fields_setFields (s : Store σ) (r q : ObjectRef) (fields : Record Value) :
    (s.setFields r fields).fields q =
      if q = r ∧ r.index < s.objects.size then fields else s.fields q := by
  obtain ⟨i⟩ := r
  obtain ⟨j⟩ := q
  simp only [Store.fields, setFields, Array.getElem?_setIfInBounds, ObjectRef.mk.injEq]
  by_cases hij : i = j
  · subst hij
    by_cases hi : i < s.objects.size <;> simp [hi]
  · simp [hij, Ne.symm hij]

end Store

end Scriptlet
