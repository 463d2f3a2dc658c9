import Scriptlet.Eval.Call

/-!
# Effects on Stores

What a single operation on values can do to a store. Evaluation changes the
store in many places, but only in a few ways, and this is the list of them:
a new seed, a new array, an element or a field that is written, an array that
grows or shrinks, and whatever a host does.

The list keeps two things that proofs need later. The array methods that change
a length appear together with the name by which they are called, so a tree that
calls no such name cannot change a length. And a field is only written if the
object has it, provided that hosts leave the objects of scripts alone: between
the check that the field is there and the write, a host may have been called.

## Main definitions

* `Store.Keeps`: That what is seen of arrays or objects stays the same.
* `Store.Extends`, `Store.KeepsKeys`, `Store.KeepsLengths`: All of them, their keys, their lengths.
* `Host.Discreet`: Hosts that leave the arrays and objects of scripts alone.
* `Store.Effect`: What one operation can do to a store.
* `Mild`: Functions of the library with such an effect.

## Theorems

* `mild_libraryFunction`, `mild_textMethod`, `mild_arrayMethod`: The library is mild.
* `effect_call`, `effect_setMember`: Calls of methods and writing of members.
* `Effect.keepsKeys`: No effect adds or takes away a key.
* `Effect.keepsLengths`: Without two of the methods, none changes a length.
-/

namespace Scriptlet

variable {σ : Type}

/-! ### Stores -/

/-- What is at a place of a store stays there, as far as can be seen of it.
    Places may be added. -/
def Store.Keeps {α β : Type} (contents : Store σ → Array α) (view : α → β) (s s' : Store σ) :
    Prop :=
  ∀ (i : Nat) (a : α), (contents s)[i]? = some a →
    ∃ a', (contents s')[i]? = some a' ∧ view a' = view a

/-- The arrays and objects of a store are the same in another, which may have
    more. -/
def Store.Extends (s s' : Store σ) : Prop :=
  Keeps Store.arrays id s s' ∧ Keeps Store.objects id s s'

/-- Objects keep their keys. -/
def Store.KeepsKeys : Store σ → Store σ → Prop :=
  Keeps Store.objects Record.contains

/-- Arrays keep their lengths. -/
def Store.KeepsLengths : Store σ → Store σ → Prop :=
  Keeps Store.arrays Array.size

namespace Store.Keeps

variable {α β : Type} {contents : Store σ → Array α} {view : α → β} {s s' s'' : Store σ}

theorem of_eq (h : contents s' = contents s) : Keeps contents view s s' := by
  intro i a ha
  exact ⟨a, by rw [h, ha], rfl⟩

theorem refl (s : Store σ) : Keeps contents view s s :=
  of_eq rfl

theorem trans (h : Keeps contents view s s') (h' : Keeps contents view s' s'') :
    Keeps contents view s s'' := by
  intro i a ha
  rcases h i a ha with ⟨a', ha', hview⟩
  rcases h' i a' ha' with ⟨a'', ha'', hview'⟩
  exact ⟨a'', ha'', hview'.trans hview⟩

/-- A place that is added is behind all others. -/
theorem of_push {a : α} (h : contents s' = (contents s).push a) : Keeps contents view s s' := by
  intro i b hb
  have hi := (Array.getElem?_eq_some_iff.mp hb).1
  refine ⟨b, ?_, rfl⟩
  rw [h, Array.getElem?_push, if_neg (Nat.ne_of_lt hi), hb]

/-- What stays the same looks the same. -/
theorem of_id (h : Keeps contents id s s') : Keeps contents view s s' := by
  intro i a ha
  rcases h i a ha with ⟨a', ha', rfl⟩
  exact ⟨_, ha', rfl⟩

end Store.Keeps

/-- A host whose objects and functions leave the arrays and objects of scripts
    alone. -/
structure Host.Discreet (σ : Type) [Host σ] : Prop where
  set : ∀ (r : HostRef) (key : String) (value : Value) (s : Store σ),
    s.Extends (Host.set r key value s).2
  invoke : ∀ (r : HostRef) (name : String) (args : List Value) (s : Store σ),
    s.Extends (Host.invoke r name args s).2
  apply : ∀ (f : FunctionRef) (args : List Value) (s : Store σ),
    s.Extends (Host.apply f args s).2

theorem Store.Extends.refl (s : Store σ) : s.Extends s :=
  ⟨.refl s, .refl s⟩

theorem Host.discreet_unit : Host.Discreet Unit where
  set _ _ _ s := .refl s
  invoke _ _ _ s := .refl s
  apply _ _ s := .refl s

/-- What one operation on values can do to a store, where methods are called
    by some names only. -/
inductive Store.Effect [Host σ] (called : String → Prop) : Store σ → Store σ → Prop where
  | none (s : Store σ) : Effect called s s
  | seed (s : Store σ) (seed : UInt64) : Effect called s { s with seed }
  | array (s : Store σ) (elements : Array Value) : Effect called s (s.newArray elements).2
  | push (s : Store σ) (r : ArrayRef) (values : Array Value) (call : called "push") :
      Effect called s (s.setElements r (s.elements r ++ values))
  | pop (s : Store σ) (r : ArrayRef) (call : called "pop") :
      Effect called s (s.setElements r (s.elements r).pop)
  | element (s : Store σ) (r : ArrayRef) (i : Nat) (value : Value) :
      Effect called s (s.setElements r ((s.elements r).setIfInBounds i value))
  | field (s : Store σ) (r : ObjectRef) (key : String) (value : Value)
      (present : Host.Discreet σ → (s.fields r).contains key = true) :
      Effect called s (s.setFields r ((s.fields r).insert key value))
  | set (s : Store σ) (r : HostRef) (key : String) (value : Value) :
      Effect called s (Host.set r key value s).2
  | invoke (s : Store σ) (r : HostRef) (name : String) (args : List Value) :
      Effect called s (Host.invoke r name args s).2
  | apply (s : Store σ) (f : FunctionRef) (args : List Value) :
      Effect called s (Host.apply f args s).2

open Store (Effect)

/-! ### The library -/

section Library

variable [Host σ] {called : String → Prop}

/-- A function of the library that does one of these things. -/
def Mild (called : String → Prop) (f : Native σ) : Prop :=
  ∀ args s, Effect called s (f args s).2

theorem mild_of_unchanged {f : Native σ} (h : ∀ args s, (f args s).2 = s) : Mild called f := by
  intro args s
  rw [h]
  exact .none s

theorem mild_pureMethod (f : Store σ → List Char → List Value → Value) :
    Mild called (TextMethod.pureMethod f) :=
  mild_of_unchanged fun _ _ => rfl

theorem mild_withReceiver {f : ArrayRef → List Value → Store σ → Value × Store σ}
    (h : ∀ r rest s, Effect called s (f r rest s).2) :
    Mild called (ArrayMethod.withReceiver f) := by
  intro args s
  unfold ArrayMethod.withReceiver
  split
  · exact h _ _ s
  · exact .none s

theorem mild_split : Mild called (TextMethod.split : Native σ) := by
  intro args s
  unfold TextMethod.split
  split
  · exact .none s
  · exact .array s _

theorem mild_textMethod {name : String} {f : Native σ} (h : TextMethod.method? name = some f) :
    Mild called f := by
  unfold TextMethod.method? at h
  split at h <;> simp only [Option.some.injEq, reduceCtorEq] at h <;> subst h
  case h_3 => exact mild_split
  all_goals exact mild_pureMethod _

theorem mild_arrayMethod {name : String} {f : Native σ} (h : ArrayMethod.method? name = some f)
    (hcalled : called name) : Mild called f := by
  unfold ArrayMethod.method? at h
  split at h <;> simp only [Option.some.injEq, reduceCtorEq] at h <;> subst h
  · exact mild_withReceiver fun r rest s => .push s r _ hcalled
  · exact mild_withReceiver fun r rest s => .pop s r hcalled
  · exact mild_withReceiver fun r rest s => .none s
  · exact mild_withReceiver fun r rest s => .none s
  · exact mild_withReceiver fun r rest s => .none s
  · exact mild_withReceiver fun r rest s => .array s _

theorem mild_onTextOrArray (name : String) {onText onArray : Native σ} (htext : Mild called onText)
    (harray : Mild called onArray) : Mild called (Generic.onTextOrArray name onText onArray) := by
  intro args s
  unfold Generic.onTextOrArray
  split
  · exact htext _ s
  · exact harray _ s
  · exact .none s

theorem mild_onText (name : String) {method : Native σ} (h : Mild called method) :
    Mild called (Generic.onText name method) := by
  intro args s
  unfold Generic.onText
  split
  · exact h _ s
  · exact .none s

theorem mild_generic {name : String} {f : Native σ} (h : Generic.function? name = some f) :
    Mild called f := by
  unfold Generic.function? at h
  split at h <;> simp only [Option.some.injEq, reduceCtorEq] at h <;> subst h
  · exact mild_of_unchanged fun _ _ => rfl
  · exact mild_of_unchanged fun _ _ => rfl
  · exact mild_of_unchanged fun _ _ => rfl
  · exact mild_onTextOrArray _ (mild_pureMethod _) (mild_withReceiver fun r rest s => .none s)
  · exact mild_onTextOrArray _ (mild_pureMethod _) (mild_withReceiver fun r rest s => .array s _)
  · exact mild_onText _ mild_split
  · refine mild_of_unchanged fun args s => ?_
    unfold Generic.string
    split <;> rfl
  · exact mild_onText _ (mild_pureMethod _)

theorem mild_math {name : String} {f : Native σ} (h : Math.function? name = some f) :
    Mild called f := by
  unfold Math.function? at h
  split at h
  · simp only [Option.some.injEq] at h
    subst h
    exact mild_of_unchanged fun _ _ => rfl
  · simp only [Option.some.injEq] at h
    subst h
    exact mild_of_unchanged fun _ _ => rfl
  · split at h
    · simp only [Option.some.injEq] at h
      subst h
      exact fun _ s => .seed s _
    · simp at h

theorem mild_libraryFunction {name : String} {f : Native σ} (h : libraryFunction? name = some f) :
    Mild called f := by
  unfold libraryFunction? at h
  rcases Option.or_eq_some_iff.mp h with h | ⟨_, h⟩
  · exact mild_math h
  · exact mild_generic h

/-! ### Members and methods -/

theorem effect_ofHost {α : Type} {called : String → Prop} {s : Store σ}
    {reply : Except String α × Store σ} (h : Effect called s reply.2) :
    Effect called s (Reply.ofHost reply).2 := by
  unfold Reply.ofHost
  split <;> exact h

theorem effect_call {called : String → Prop} {s : Store σ} {object : Value} {name : String}
    {method : Method σ} (h : findMethod? s object name = some method) (hcalled : called name)
    (values : List Value) (s' : Store σ) :
    Effect called s' (method.call object name values s').2 := by
  -- The receiver decides: an object, a host object, a text, an array, or nothing to call.
  unfold findMethod? at h
  split at h
  · split at h
    · simp only [Option.some.injEq] at h
      subst h
      exact effect_ofHost (.apply s' _ values)
    · simp only [Option.some.injEq] at h
      subst h
      exact .none s'
    · simp at h
  · split at h
    · simp only [Option.some.injEq] at h
      subst h
      exact effect_ofHost (.invoke s' _ name values)
    · simp at h
  · rcases Option.map_eq_some_iff.mp h with ⟨f, hf, rfl⟩
    exact mild_textMethod hf _ s'
  · rcases Option.map_eq_some_iff.mp h with ⟨f, hf, rfl⟩
    exact mild_arrayMethod hf hcalled _ s'
  · simp at h

theorem effect_setMember {called : String → Prop} {s : Store σ} {object : Value} {key : String}
    (h : Host.Discreet σ → ∀ r, object = .object r → (s.fields r).contains key = true)
    (value : Value) : Effect called s (object.setMember key value s).2 := by
  unfold Value.setMember
  split
  · exact .field s _ key value fun hhost => h hhost _ rfl
  · exact effect_ofHost (.set s _ key value)
  · split
    · split
      · exact .element s _ _ value
      · exact .none s
    · exact .none s
  · exact .none s

end Library

/-! ### Keys and lengths -/

namespace Store

variable {s s' : Store σ}

theorem keepsLengths_newArray (s : Store σ) (elements : Array Value) :
    s.KeepsLengths (s.newArray elements).2 :=
  .of_push rfl

theorem keepsLengths_setElements {r : ArrayRef} {elements : Array Value}
    (h : elements.size = (s.elements r).size) : s.KeepsLengths (s.setElements r elements) := by
  intro i a ha
  by_cases hr : r.index = i
  · subst hr
    have hi := (Array.getElem?_eq_some_iff.mp ha).1
    refine ⟨elements, Array.getElem?_setIfInBounds_self_of_lt hi, ?_⟩
    rw [h, Store.elements, ha, Option.getD_some]
  · exact ⟨a, by rw [setElements, Array.getElem?_setIfInBounds_ne hr, ha], rfl⟩

theorem keepsKeys_setFields {r : ObjectRef} {key : String}
    (h : (s.fields r).contains key = true) (value : Value) :
    s.KeepsKeys (s.setFields r ((s.fields r).insert key value)) := by
  intro i a ha
  by_cases hr : r.index = i
  · subst hr
    have hi := (Array.getElem?_eq_some_iff.mp ha).1
    refine ⟨_, Array.getElem?_setIfInBounds_self_of_lt hi, ?_⟩
    rw [Record.contains_insert_of_contains h, fields, ha, Option.getD_some]
  · exact ⟨a, by rw [setFields, Array.getElem?_setIfInBounds_ne hr, ha], rfl⟩

/-- A key that an object has is still there where objects keep their keys. -/
theorem KeepsKeys.contains_fields (h : s.KeepsKeys s') {r : ObjectRef} {key : String}
    (hkey : (s.fields r).contains key = true) : (s'.fields r).contains key = true := by
  unfold fields at hkey ⊢
  cases hr : s.objects[r.index]? with
  | none => simp [hr, Record.contains] at hkey
  | some a =>
      rcases h r.index a hr with ⟨a', ha', hcontains⟩
      rw [hr, Option.getD_some] at hkey
      rw [ha', Option.getD_some, hcontains, hkey]

/-- An operation on values neither adds nor takes away a key. -/
theorem Effect.keepsKeys [Host σ] {called : String → Prop} (hhost : Host.Discreet σ)
    (h : Effect called s s') : s.KeepsKeys s' := by
  cases h with
  | none | seed | array | element | push | pop => exact .of_eq rfl
  | field r key value present => exact keepsKeys_setFields (present hhost) value
  | set r key value => exact (hhost.set r key value s).2.of_id
  | invoke r name args => exact (hhost.invoke r name args s).2.of_id
  | apply f args => exact (hhost.apply f args s).2.of_id

/-- Only two methods of arrays change the length of one. -/
theorem Effect.keepsLengths [Host σ] {called : String → Prop} (hhost : Host.Discreet σ)
    (hpush : ¬ called "push") (hpop : ¬ called "pop") (h : Effect called s s') :
    s.KeepsLengths s' := by
  cases h with
  | none | seed | field => exact .of_eq rfl
  | array elements => exact keepsLengths_newArray s elements
  | push _ _ call => exact absurd call hpush
  | pop _ call => exact absurd call hpop
  | element r i value => exact keepsLengths_setElements (by simp)
  | set r key value => exact (hhost.set r key value s).1.of_id
  | invoke r name args => exact (hhost.invoke r name args s).1.of_id
  | apply f args => exact (hhost.apply f args s).1.of_id

end Store

end Scriptlet
