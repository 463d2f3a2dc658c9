import Scriptlet.Member
import Scriptlet.Proofs.Number.Numeral

/-!
# Laws of Members

Arrays and objects are two kinds of store for the same three operations: reading a
member, asking whether it can be assigned to, and assigning to it. Each of the three
looks the key up for itself, and for arrays by way of a place. They agree because of
one view of both kinds, the contents under a key. A member can be assigned to if
there are contents under its key, reading gives the contents where there are any,
and assigning replaces the contents under one key and leaves all others alone.

For arrays the last of these rests on keys being canonical. A place has one numeral,
so two keys never mean the same place, and the length is under no key at all.

## Main definitions

* `Value.contents?`: What an array or object has under a key.
* `Value.otherwise`: What is read where there are no contents.

## Theorems

* `arrayIndex?_eq_some_iff`: The keys of places.
* `arrayIndex?_inj`: No two keys mean the same place.
* `hasMember_eq_isSome`, `getMember_eq_getD`: Asking and reading in terms of contents.
* `setMember_of_contents`: Assigning in terms of contents.
* `members_obey_store_laws`: What is assigned is read back, and nothing else changes.
-/

namespace Scriptlet

/-! ### Keys of places -/

theorem lt_of_readIndex? {key : List Char} {i : Nat} (h : readIndex? key = some i) :
    i < arrayIndexBound := by
  simp only [readIndex?, Option.ite_none_right_eq_some, Option.some.injEq] at h
  rcases h with ⟨_, hbound, rfl⟩
  exact hbound

/-- The numeral of a number below the bound is read as that number. -/
theorem readIndex?_digitsOf {i : Nat} (h : i < arrayIndexBound) :
    readIndex? (Decimal.digitsOf i) = some i := by
  have hdigits := Number.all_isDigit_digitsOf i
  have hsign : (Decimal.digitsOf i).head? ≠ some '+' := fun hhead => by
    have hplus := List.all_eq_true.mp hdigits '+' (List.mem_of_head? hhead)
    exact absurd hplus (by decide)
  have hne : Decimal.digitsOf i ≠ [] := Nat.toDigits_ne_nil
  simp only [readIndex?, if_neg hsign, hdigits, hne, ne_eq, not_false_eq_true, and_self, if_true,
    Number.ofDigits_digitsOf, if_pos h]

/-- The keys of places are numerals without a sign and without zeros in front. -/
theorem arrayIndex?_eq_some_iff {key : String} {i : Nat} :
    arrayIndex? key = some i ↔ key.toList = Decimal.digitsOf i ∧ i < arrayIndexBound := by
  unfold arrayIndex?
  rw [Option.filter_eq_some_iff, decide_eq_true_iff]
  constructor
  · rintro ⟨hread, hdigits⟩
    exact ⟨hdigits.symm, lt_of_readIndex? hread⟩
  · rintro ⟨hkey, hbound⟩
    exact ⟨hkey ▸ readIndex?_digitsOf hbound, hkey.symm⟩

/-- No two keys mean the same place. -/
theorem arrayIndex?_inj {key other : String} {i : Nat} (h : arrayIndex? key = some i)
    (h' : arrayIndex? other = some i) : key = other := by
  rw [arrayIndex?_eq_some_iff] at h h'
  exact String.toList_injective (h.1.trans h'.1.symm)

/-- The length is not the key of a place. -/
theorem arrayIndex?_length : arrayIndex? "length" = none := by
  decide

namespace Value

variable {σ : Type}

/-! ### Contents -/

/-- What an array or object has under a key. -/
def contents? (s : Store σ) (object : Value) (key : String) : Option Value :=
  match object with
  | .array r => (arrayIndex? key).bind fun i => (s.elements r)[i]?
  | .object r => (s.fields r).get? key
  | _ => none

/-- What is read of an array or object where it has no contents: its length, or
    nothing. -/
def otherwise (s : Store σ) (object : Value) (key : String) : Value :=
  match object with
  | .array r => if key = "length" then number (Number.ofNat (s.elements r).size) else undefined
  | _ => undefined

/-- A value is an array or an object. -/
def IsStore (object : Value) : Prop :=
  (∃ r, object = .array r) ∨ ∃ r, object = .object r

variable {object : Value} {key : String} {s : Store σ}

/-- An array with elements is in the store. -/
theorem index_lt_of_elements {r : ArrayRef} {i : Nat} (h : i < (s.elements r).size) :
    r.index < s.arrays.size := by
  refine Nat.lt_of_not_le fun hle => ?_
  simp [Store.elements, Array.getElem?_eq_none hle] at h

/-- An object with fields is in the store. -/
theorem index_lt_of_fields {r : ObjectRef} (h : (s.fields r).contains key = true) :
    r.index < s.objects.size := by
  refine Nat.lt_of_not_le fun hle => ?_
  simp [Store.fields, Array.getElem?_eq_none hle, Record.contains] at h

/-- Assigning to an element changes the contents under the one key of its place. -/
theorem contents?_setElements {r : ArrayRef} {i : Nat} (hplace : arrayIndex? key = some i)
    (hi : i < (s.elements r).size) (value object : Value) (other : String) :
    object.contents? (s.setElements r ((s.elements r).setIfInBounds i value)) other =
      if object = .array r ∧ other = key then some value else object.contents? s other := by
  cases object with
  | array q =>
      simp only [contents?, Store.elements_setElements, index_lt_of_elements hi, and_true,
        array.injEq]
      by_cases hq : q = r
      · subst hq
        by_cases hother : other = key
        · simp [hother, hplace, hi]
        · cases hindex : arrayIndex? other with
          | none => simp [hother]
          | some j =>
              -- Another key means another place.
              have hne : i ≠ j := fun heq => hother (arrayIndex?_inj hindex (heq ▸ hplace))
              simp [hother, Array.getElem?_setIfInBounds_ne hne]
      · simp [hq]
  | _ => simp [contents?, Store.setElements, Store.fields]

/-- Assigning to a field changes the contents under its key. -/
theorem contents?_setFields {r : ObjectRef} (hkey : (s.fields r).contains key = true)
    (value object : Value) (other : String) :
    object.contents? (s.setFields r ((s.fields r).insert key value)) other =
      if object = .object r ∧ other = key then some value else object.contents? s other := by
  cases object with
  | object q =>
      simp only [contents?, Store.fields_setFields, index_lt_of_fields hkey, and_true,
        object.injEq]
      by_cases hq : q = r
      · subst hq
        simp [Record.get?_insert]
      · simp [hq]
  | _ => simp [contents?, Store.setFields, Store.elements]

/-! ### Members -/

variable [Host σ]

theorem hasMember_eq_isSome (h : object.IsStore) (s : Store σ) (key : String) :
    object.hasMember s key = (object.contents? s key).isSome := by
  rcases h with ⟨r, rfl⟩ | ⟨r, rfl⟩
  · simp only [hasMember, contents?]
    cases arrayIndex? key with
    | none => rfl
    | some i => by_cases hi : i < (s.elements r).size <;> simp [hi]
  · rfl

theorem getMember_eq_getD (h : object.IsStore) (s : Store σ) (key : String) :
    object.getMember s key = (object.contents? s key).getD (object.otherwise s key) := by
  rcases h with ⟨r, rfl⟩ | ⟨r, rfl⟩
  · by_cases hlength : key = "length"
    · subst hlength
      simp [getMember, contents?, otherwise, arrayIndex?_length]
    · simp only [getMember, contents?, otherwise, if_neg hlength]
  · rfl

/-- Where there are contents, assigning replaces them. All other contents, also those
    of other arrays and objects, and the lengths of arrays stay as they are. -/
theorem setMember_of_contents (h : object.IsStore) (hkey : (object.contents? s key).isSome = true)
    (value : Value) :
    ∃ s', object.setMember key value s = (.ok (), s') ∧
      (∀ object' other, object'.contents? s' other =
        if object' = object ∧ other = key then some value else object'.contents? s other) ∧
      ∀ object' other, otherwise s' object' other = otherwise s object' other := by
  rcases h with ⟨r, rfl⟩ | ⟨r, rfl⟩
  · rcases hplace : arrayIndex? key with _ | i
    · simp [contents?, hplace] at hkey
    have hi : i < (s.elements r).size := by simpa [contents?, hplace] using hkey
    refine ⟨_, by simp only [setMember, hplace, if_pos hi],
      contents?_setElements hplace hi value, fun object' other => ?_⟩
    cases object' with
    | array q =>
        have hsize : ((s.setElements r ((s.elements r).setIfInBounds i value)).elements q).size =
            (s.elements q).size := by
          rw [Store.elements_setElements]
          split
          · next hq => rw [hq.1, Array.size_setIfInBounds]
          · rfl
        simp only [otherwise, hsize]
    | _ => rfl
  · refine ⟨_, rfl, contents?_setFields hkey value, fun object' other => ?_⟩
    cases object' <;> rfl

/-- An array takes no new members. -/
theorem setMember_of_no_contents {r : ArrayRef} (hkey : (array r).contents? s key = none)
    (value : Value) : (array r).setMember key value s = (.error (.noProperty key), s) := by
  simp only [setMember]
  cases hplace : arrayIndex? key with
  | none => rfl
  | some i =>
      have hi : ¬ i < (s.elements r).size := by simpa [contents?, hplace] using hkey
      simp only [if_neg hi]

/-- Arrays and objects obey the laws of a store. If a member can be assigned to, it is,
    then it is what was assigned, no other member of anything changes, and the same
    members can be assigned to. What an array does not have cannot be assigned to, and
    an attempt changes nothing. -/
theorem members_obey_store_laws {object : Value} (h : object.IsStore) (s : Store σ) (key : String)
    (value : Value) :
    (object.hasMember s key = true →
      ∃ s', object.setMember key value s = (.ok (), s') ∧
        object.getMember s' key = value ∧
        (∀ other ≠ key, object.getMember s' other = object.getMember s other) ∧
        (∀ other, object.hasMember s' other = object.hasMember s other) ∧
        ∀ object', object'.IsStore → object' ≠ object → ∀ other,
          object'.getMember s' other = object'.getMember s other ∧
            object'.hasMember s' other = object'.hasMember s other) ∧
    ∀ r, object = .array r → object.hasMember s key = false →
      object.setMember key value s = (.error (.noProperty key), s) := by
  constructor
  · intro hkey
    rw [hasMember_eq_isSome h] at hkey
    rcases setMember_of_contents h hkey value with ⟨s', hset, hcontents, hotherwise⟩
    refine ⟨s', hset, ?_, fun other hother => ?_, fun other => ?_, fun object' h' hne other => ?_⟩
    · rw [getMember_eq_getD h, hcontents, if_pos ⟨rfl, rfl⟩, Option.getD_some]
    · rw [getMember_eq_getD h, getMember_eq_getD h, hcontents, if_neg fun heq => hother heq.2,
        hotherwise]
    · rw [hasMember_eq_isSome h, hasMember_eq_isSome h, hcontents]
      by_cases hother : other = key
      · rw [if_pos ⟨rfl, hother⟩, hother, hkey, Option.isSome_some]
      · rw [if_neg fun heq => hother heq.2]
    · rw [getMember_eq_getD h', getMember_eq_getD h', hasMember_eq_isSome h',
        hasMember_eq_isSome h', hcontents, if_neg fun heq => hne heq.1, hotherwise]
      exact ⟨rfl, rfl⟩
  · rintro r rfl hkey
    rw [hasMember_eq_isSome h, Option.isSome_eq_false_iff, Option.isNone_iff_eq_none] at hkey
    exact setMember_of_no_contents hkey value

/-- An array of two elements and an object with the same keys. The key with a zero in
    front names no place of the array, and is a field of the object. -/
theorem store_laws_of_numeral_keys :
    ∃ s : Store Unit,
      (array ⟨0⟩).hasMember s "1" = true ∧ (array ⟨0⟩).hasMember s "01" = false ∧
      (Value.object ⟨0⟩).hasMember s "01" = true ∧
      (∃ s', (array ⟨0⟩).setMember "1" (text "b") s = (.ok (), s') ∧
        (array ⟨0⟩).getMember s' "1" = text "b" ∧
        (array ⟨0⟩).getMember s' "length" = (array ⟨0⟩).getMember s "length") ∧
      (array ⟨0⟩).setMember "01" (text "b") s = (.error (.noProperty "01"), s) ∧
      ∃ s', (Value.object ⟨0⟩).setMember "01" (text "b") s = (.ok (), s') ∧
        (Value.object ⟨0⟩).getMember s' "01" = text "b" ∧
        (Value.object ⟨0⟩).getMember s' "1" = (Value.object ⟨0⟩).getMember s "1" := by
  rcases show ∃ s : Store Unit,
      (array ⟨0⟩).hasMember s "1" = true ∧ (array ⟨0⟩).hasMember s "01" = false ∧
      (Value.object ⟨0⟩).hasMember s "01" = true from
    ⟨⟨#[#[null, text "a"]], #[.ofList [("1", null), ("01", text "a")]], 0, ()⟩, by decide,
      by decide, by decide⟩ with ⟨s, hplace, hnone, hfield⟩
  have harray : (array ⟨0⟩).IsStore := .inl ⟨⟨0⟩, rfl⟩
  have hobject : (Value.object ⟨0⟩).IsStore := .inr ⟨⟨0⟩, rfl⟩
  refine ⟨s, hplace, hnone, hfield, ?_, ?_, ?_⟩
  · rcases (members_obey_store_laws harray s "1" (text "b")).1 hplace with
      ⟨s', hset, hread, hothers, _⟩
    exact ⟨s', hset, hread, hothers "length" (by decide)⟩
  · exact (members_obey_store_laws harray s "01" (text "b")).2 ⟨0⟩ rfl hnone
  · rcases (members_obey_store_laws hobject s "01" (text "b")).1 hfield with
      ⟨s', hset, hread, hothers, _⟩
    exact ⟨s', hset, hread, hothers "1" (by decide)⟩

end Value

end Scriptlet
