import Scriptlet.Proofs.Library.Search
import Scriptlet.Proofs.Number.Integers
import Scriptlet.Proofs.Value.Documents

/-!
# Slices

A slice never leaves its sequence: whatever the arguments are, it starts before
it ends and ends with the sequence at the latest. The bounds are worked out on
natural numbers. The same bounds come out of arithmetic on doubles, with
rounding, as long as the length of the sequence is a double, and that is so
below `2 ^ 53`.

A bound means the same place whether a slice ends or starts there, so the slice
up to a bound and the slice from it are the whole sequence. The first of them
adds an array to the store, and the second reads its bound in the larger store.
It reads the same number there, even where the bound is an array, provided that
all arrays in it are of the store.

Texts and arrays are treated alike, as sequences of values.

## Main definitions

* `Value.items?`: The values in a text or an array, one after the other.
* `Value.Known`: All arrays that are reached from a value are of the store.
* `Slice.roundedIndex`, `Slice.roundedBounds`: Bounds from arithmetic on doubles.

## Theorems

* `Slice.bounds_within`: The bounds lie within the sequence and in order.
* `Slice.bounds_eq_roundedBounds`: Rounding does not change them.
* `Value.toNumber_of_extends`: More arrays do not change the number form of a value.
* `callReplies_slice`: The reply of a slice.
* `slices_within_and_whole`: Slices stay in the sequence and make it up.
-/

namespace Scriptlet

variable {σ : Type}

/-! ### Bounds -/

/-- An argument that is there and not undefined is not left out. -/
theorem Arguments.optional?_of_ne {args : List Value} {i : ℕ} {v : Value} (hv : args[i]? = some v)
    (hne : v ≠ .undefined) : optional? args i = some v := by
  rw [optional?, hv]
  cases v <;> first | rfl | exact absurd rfl hne

namespace Slice

open Float.Model Float.Model.UnpackedFloat

theorem relativeIndex_le (bound : Float) (length : ℕ) : relativeIndex bound length ≤ length := by
  unfold relativeIndex
  split
  · omega
  · split <;> omega
  · dsimp only
    split <;> omega

/-- The bounds of a slice lie within the sequence and in order. -/
theorem bounds_within (s : Store σ) (args : List Value) (length : ℕ) :
    (bounds s args length).1 ≤ (bounds s args length).2 ∧ (bounds s args length).2 ≤ length := by
  have hstart : (bounds s args length).1 ≤ length := by
    unfold bounds
    cases Arguments.optional? args 1 with
    | none => exact Nat.zero_le length
    | some v => exact relativeIndex_le (v.toNumber s) length
  refine ⟨le_max_right _ _, max_le ?_ hstart⟩
  cases Arguments.optional? args 2 with
  | none => exact le_rfl
  | some v => exact relativeIndex_le (v.toNumber s) length

/-- The slice up to a bound starts with the sequence. -/
theorem bounds_front (s : Store σ) (receiver : Value) {k : Value} (hk : k ≠ .undefined)
    (length : ℕ) :
    bounds s [receiver, .number 0.0, k] length =
      (0, relativeIndex (k.toNumber s) length) := by
  have hzero : relativeIndex 0.0 length = 0 := by
    have hparts : Number.parts 0.0 = .finite false 0 0 := rfl
    rw [relativeIndex, hparts]
    exact Nat.zero_min length
  have hoptional : Arguments.optional? [receiver, .number 0.0, k] 2 = some k :=
    Arguments.optional?_of_ne rfl hk
  have hstart : Arguments.optional? [receiver, .number 0.0, k] 1 = some (.number 0.0) := rfl
  simp only [bounds, hoptional, hstart, Option.elim_some, Value.toNumber, hzero,
    Nat.max_zero]

/-- The slice from a bound ends with the sequence. -/
theorem bounds_back (s : Store σ) (receiver : Value) {k : Value} (hk : k ≠ .undefined)
    (length : ℕ) :
    bounds s [receiver, k] length = (relativeIndex (k.toNumber s) length, length) := by
  have hoptional : Arguments.optional? [receiver, k] 1 = some k :=
    Arguments.optional?_of_ne rfl hk
  have hstop : Arguments.optional? [receiver, k] 2 = none := rfl
  simp only [bounds, hoptional, hstop, Option.elim_some, Option.elim_none,
    Nat.max_eq_left (relativeIndex_le _ length)]

/-- The place that a bound means, from arithmetic on doubles: a negative bound is added to the
    length, and the outcome is cut off at zero, or at the length, before it becomes a place. -/
def roundedIndex (bound : Float) (length : ℕ) : ℕ :=
  if bound.isNaN then
    0
  else
    let whole := Number.whole bound
    let last := Number.ofNat length
    (if whole < 0.0 then max (last + whole) 0.0 else min whole last).toUInt64.toNat

/-- Where a slice starts and ends, from arithmetic on doubles. -/
def roundedBounds (s : Store σ) (args : List Value) (length : ℕ) : ℕ × ℕ :=
  let start := (Arguments.optional? args 1).elim 0 fun v => roundedIndex (v.toNumber s) length
  let stop := (Arguments.optional? args 2).elim length fun v => roundedIndex (v.toNumber s) length
  (start, max stop start)

theorem isNaN_eq_unpack (x : Float) : x.isNaN = x.toModel.unpack.isNaN := rfl

theorem max_eq_ite (x y : Float) : max x y = if x ≤ y then y else x := rfl

theorem min_eq_ite (x y : Float) : min x y = if x ≤ y then x else y := rfl

theorem toUInt64_zero : (0.0 : Float).toUInt64.toNat = 0 :=
  Number.toUInt64_of_integer? (n := 0) Number.integer?_zero (by norm_num)

/-- Cutting off at zero changes nothing about the machine word of a number that becomes zero. -/
theorem toUInt64_max_zero {x : Float} (h : x.toUInt64.toNat = 0) :
    (max x 0.0).toUInt64.toNat = 0 := by
  rw [max_eq_ite]
  split
  · exact toUInt64_zero
  · exact h

/-- A place counted from the end, if there is one, and the start otherwise. -/
theorem toUInt64_from_end {x : Float} {length n : ℕ} (hlength : length < 2 ^ 53) (hn : n ≠ 0)
    (hx : Number.integer? x = some (-(n : ℤ))) :
    (max (Number.ofNat length + x) 0.0).toUInt64.toNat = length - n := by
  have hlast := Number.integer?_ofNat hlength
  by_cases hle : n ≤ length
  · have hsum : Number.ofNat length + x = Number.ofNat (length - n) :=
      Number.add_eq_ofNat hlast hx (by omega) (by omega) (by omega) (by omega)
    have hinteger := Number.integer?_ofNat (show length - n < 2 ^ 53 by omega)
    have hzero : Number.integer? 0.0 = some ((0 : ℕ) : ℤ) := Number.integer?_zero
    rw [hsum, max_eq_ite]
    split
    · next hmax =>
      have hleast := (Number.le_iff_of_integer? hinteger hzero).mp hmax
      rw [toUInt64_zero]
      omega
    · exact Number.toUInt64_of_integer? hinteger (by omega)
  · rw [toUInt64_max_zero (Number.toUInt64_add_of_neg hlast hx (by omega) (by omega))]
    omega

/-- A place counted from the start, at most the end. -/
theorem toUInt64_from_start {x : Float} {length n : ℕ} (hlength : length < 2 ^ 53)
    (hx : Number.integer? x = some (n : ℤ)) :
    (min x (Number.ofNat length)).toUInt64.toNat = min n length := by
  have hlast := Number.integer?_ofNat hlength
  have hle := Number.le_iff_of_integer? hx hlast
  rw [min_eq_ite]
  split
  · next hmin =>
    have hbelow := hle.mp hmin
    rw [Number.toUInt64_of_integer? hx (by omega), Nat.min_eq_left hbelow]
  · next hmin =>
    rw [hle] at hmin
    rw [Number.toUInt64_of_integer? hlast (by omega), Nat.min_eq_right (by omega)]

/-- An infinite bound means an end of the sequence. -/
theorem roundedIndex_infinite {length : ℕ} (hlength : length < 2 ^ 53) {bound : Float} {sign : Sign}
    (hbound : bound.toModel.unpack = .infinity sign) :
    roundedIndex bound length = if Number.isMinus sign then 0 else length := by
  have hlast := Number.integer?_ofNat hlength
  have hnan : bound.isNaN = false := by
    rw [isNaN_eq_unpack, hbound]
    rfl
  have hwhole : Number.whole bound = bound := by simp [Number.whole, Number.parts, hbound]
  simp only [roundedIndex, hnan, hwhole, Bool.false_eq_true, if_false]
  cases sign with
  | negative =>
      have hneg : bound < 0.0 := by
        rw [Number.lt_zero_iff_unpack, hbound]
        rfl
      rw [if_pos hneg]
      exact toUInt64_max_zero (Number.toUInt64_add_of_infinite hlast hbound)
  | positive =>
      have hneg : ¬ bound < 0.0 := by
        rw [Number.lt_zero_iff_unpack, hbound]
        exact Bool.false_ne_true
      have hlarge : ¬ bound ≤ Number.ofNat length := by
        rw [Number.le_iff_unpack, hbound]
        rcases Number.integer?_cases hlast with ⟨_, _, hx⟩ | ⟨_, _, _, _, hx, _⟩
        · rw [hx]
          exact Bool.false_ne_true
        · rw [hx]
          exact Bool.false_ne_true
      rw [if_neg hneg, min_eq_ite, if_neg hlarge, Number.toUInt64_of_integer? hlast (by omega)]
      rfl

/-- A finite bound means the place of its whole part. -/
theorem roundedIndex_finite {length m : ℕ} {e : ℤ} {negative : Bool} (hlength : length < 2 ^ 53)
    {bound : Float} (hbound : Number.parts bound = .finite negative m e) :
    roundedIndex bound length =
      if negative && Number.magnitude m e ≠ 0 then length - Number.magnitude m e
      else min (Number.magnitude m e) length := by
  have hnan : bound.isNaN = false := by
    rw [isNaN_eq_unpack]
    cases hx : bound.toModel.unpack with
    | notANumber => simp [Number.parts, hx] at hbound
    | _ => rfl
  have hwhole := Number.integer?_whole hbound
  have hsign := Number.lt_zero_iff_of_integer? hwhole
  simp only [roundedIndex, hnan, Bool.false_eq_true, if_false]
  by_cases hback : negative = true ∧ Number.magnitude m e ≠ 0
  · obtain ⟨rfl, hpos⟩ := hback
    rw [if_pos rfl] at hwhole hsign
    rw [if_pos (hsign.mpr (by omega)), if_pos (by simpa using hpos)]
    exact toUInt64_from_end hlength hpos hwhole
  · -- A bound without a whole part means the start, also behind a minus sign.
    have hforward : (if negative then -(Number.magnitude m e : ℤ) else Number.magnitude m e) =
        (Number.magnitude m e : ℤ) := by
      by_cases hnegative : negative = true
      · have hzero : Number.magnitude m e = 0 := by
          by_contra hne
          exact hback ⟨hnegative, hne⟩
        simp [hzero]
      · rw [if_neg hnegative]
    rw [hforward] at hwhole hsign
    rw [if_neg (by rw [hsign]; omega), if_neg (by simpa using hback)]
    exact toUInt64_from_start hlength hwhole

/-- For a length that is a double, rounding does not change the place that a bound means. -/
theorem relativeIndex_eq_roundedIndex {length : ℕ} (hlength : length < 2 ^ 53) (bound : Float) :
    relativeIndex bound length = roundedIndex bound length := by
  cases hbound : bound.toModel.unpack with
  | notANumber =>
      rw [relativeIndex, roundedIndex, isNaN_eq_unpack, Number.parts, hbound]
      rfl
  | infinity sign =>
      rw [roundedIndex_infinite hlength hbound, relativeIndex, Number.parts, hbound]
  | zero sign =>
      have hparts : Number.parts bound = .finite (Number.isMinus sign) 0 0 := by
        rw [Number.parts, hbound]
      rw [roundedIndex_finite hlength hparts, relativeIndex, hparts]
  | finite sign m e hm =>
      have hparts : Number.parts bound = .finite (Number.isMinus sign) m e := by
        rw [Number.parts, hbound]
      rw [roundedIndex_finite hlength hparts, relativeIndex, hparts]

theorem bounds_eq_roundedBounds {length : ℕ} (hlength : length < 2 ^ 53) (s : Store σ)
    (args : List Value) : bounds s args length = roundedBounds s args length := by
  simp only [bounds, roundedBounds, relativeIndex_eq_roundedIndex hlength]

end Slice

/-! ### Sequences -/

/-- An array of a store has the same elements in a larger one. -/
theorem Store.Extends.elements_eq {s s' : Store σ} {r : ArrayRef} (h : s.Extends s')
    (hr : r.index < s.arrays.size) : s'.elements r = s.elements r := by
  rcases h.1 r.index (s.arrays[r.index]) (Array.getElem?_eq_getElem hr) with ⟨a, ha, hsame⟩
  rw [elements, elements, ha, Array.getElem?_eq_getElem hr]
  exact hsame

/-- An array keeps its elements when a part of them is added as a new one. Where it is not of the
    store, the part is empty, and so is whatever takes its place. -/
theorem Store.elements_newArray_extract (s : Store σ) (r : ArrayRef) (start stop : ℕ) :
    (s.newArray ((s.elements r).extract start stop)).2.elements r = s.elements r := by
  by_cases hr : r.index < s.arrays.size
  · exact (s.extends_newArray _).elements_eq hr
  · have hempty : s.elements r = #[] := by
      simp [elements, Array.getElem?_eq_none (Nat.not_lt.mp hr)]
    rw [hempty]
    simp only [newArray, elements, Array.getElem?_push]
    split
    · simp
    · simp [Array.getElem?_eq_none (Nat.not_lt.mp hr)]

namespace Value

open Relation (ReflTransGen)

/-- The values in a text or an array, one after the other. A text has its characters in it. -/
def items? (s : Store σ) : Value → Option (List Value)
  | text t => some (t.toList.map fun c => text (String.singleton c))
  | array r => some (s.elements r).toList
  | _ => none

/-- All arrays that are reached from a value are of the store. -/
def Known (s : Store σ) (v : Value) : Prop :=
  ∀ r, ReflTransGen (Contains s) v (array r) → r.index < s.arrays.size

variable {s s' : Store σ} {v w : Value}

theorem Known.below (h : Known s v) (hw : Contains s v w) : Known s w :=
  fun r hr => h r (.head hw hr)

/-- More arrays do not change the text of a value, whatever is being written around it. -/
theorem textIn_of_extends (h : s.Extends s') (v : Value) (opened : List Container)
    (hknown : Known s v) : textIn s' opened v = textIn s opened v := by
  induction v, opened using opened_induction s with
  | step v opened ih =>
      cases v with
      | array r =>
          have helements : s'.elements r = s.elements r := h.elements_eq (hknown r .refl)
          rw [textIn_array, textIn_array, joinIn_eq, joinIn_eq, helements]
          split
          · rfl
          · next hnew =>
            -- What is in the array is written one level further down.
            congr 1
            refine List.map_congr_left fun w hw => ?_
            have hsame := ih (.array r) rfl hnew w hw (hknown.below ⟨_, rfl, hw⟩)
            cases w with
            | undefined => rfl
            | null => rfl
            | _ => exact hsame
      | _ => rfl

/-- More arrays do not change the number form of a value. -/
theorem toNumber_of_extends (h : s.Extends s') (hknown : Known s v) :
    v.toNumber s' = v.toNumber s := by
  cases v with
  | array r => exact congrArg Number.ofText (textIn_of_extends h (array r) [] hknown)
  | _ => rfl

end Value

/-! ### Slices of sequences -/

section Calls

variable [Host σ] {s : Store σ} {receiver : Value} {items : List Value}

/-- The reply to a slice of a text or an array: a sequence of the same type, with the values between
    the bounds in it. The sequence that was sliced stays what it was. -/
theorem callReplies_slice (hitems : receiver.items? s = some items) (args : List Value) :
    ∃ part s₁, CallReplies "slice" receiver args s (.ok part, s₁) ∧ s.Extends s₁ ∧
      receiver.items? s₁ = some items ∧ part.type = receiver.type ∧
      ∀ s₂, s₁.Extends s₂ → part.items? s₂ =
        some ((items.take (Slice.bounds s (receiver :: args) items.length).2).drop
          (Slice.bounds s (receiver :: args) items.length).1) := by
  cases receiver with
  | text t =>
      obtain rfl := Option.some.inj hitems
      rw [List.length_map]
      have hcall : CallReplies "slice" (.text t) args s (.ok (TextMethod.ofChars
          ((t.toList.take (Slice.bounds s (.text t :: args) t.toList.length).2).drop
            (Slice.bounds s (.text t :: args) t.toList.length).1)), s) :=
        ⟨⟨_, rfl, rfl⟩, ⟨_, rfl, rfl⟩⟩
      refine ⟨_, s, hcall, .refl s, rfl, rfl, fun s₂ _ => ?_⟩
      rw [TextMethod.ofChars, Value.items?, String.toList_ofList, List.map_drop, List.map_take]
  | array r =>
      obtain rfl := Option.some.inj hitems
      rw [Array.length_toList]
      have hcall : CallReplies "slice" (.array r) args s
          (.ok (.array ⟨s.arrays.size⟩), (s.newArray ((s.elements r).extract
            (Slice.bounds s (.array r :: args) (s.elements r).size).1
            (Slice.bounds s (.array r :: args) (s.elements r).size).2)).2) :=
        ⟨⟨_, rfl, rfl⟩, ⟨_, rfl, rfl⟩⟩
      refine ⟨_, _, hcall, s.extends_newArray _, ?_, rfl, fun s₂ hlater => ?_⟩
      · rw [Value.items?, s.elements_newArray_extract]
      · rw [Value.items?, hlater.elements_newArray, Array.toList_extract,
          List.extract_eq_take_drop, List.drop_take]
  | _ => simp [Value.items?] at hitems

/-- Slices stay within their sequence and make it up. Whatever the arguments are, a slice of a text
    or an array gives the values between two bounds that lie within it and in order, and for a
    length below `2 ^ 53` these are the bounds from arithmetic on doubles. The slice up to any bound
    but undefined, and the slice from it on in the store that the first one leaves, are the
    sequence. -/
theorem slices_within_and_whole (hitems : receiver.items? s = some items) :
    (∀ args start stop, Slice.bounds s (receiver :: args) items.length = (start, stop) →
      start ≤ stop ∧ stop ≤ items.length ∧
      (items.length < 2 ^ 53 →
        Slice.roundedBounds s (receiver :: args) items.length = (start, stop)) ∧
      ∃ part s₁, CallReplies "slice" receiver args s (.ok part, s₁) ∧
        part.type = receiver.type ∧
        part.items? s₁ = some ((items.take stop).drop start)) ∧
    ∀ k : Value, k ≠ .undefined → k.Known s →
      ∃ front back s₁ s₂ before behind,
        CallReplies "slice" receiver [.number 0.0, k] s (.ok front, s₁) ∧
        CallReplies "slice" receiver [k] s₁ (.ok back, s₂) ∧
        front.type = receiver.type ∧ back.type = receiver.type ∧
        front.items? s₂ = some before ∧ back.items? s₂ = some behind ∧
        before ++ behind = items := by
  refine ⟨fun args start stop hbounds => ?_, fun k hk hknown => ?_⟩
  · have hwithin := Slice.bounds_within s (receiver :: args) items.length
    rcases callReplies_slice hitems args with ⟨part, s₁, hcall, _, _, htype, hpart⟩
    rw [hbounds] at hwithin hpart
    refine ⟨hwithin.1, hwithin.2, fun hlength => ?_, part, s₁, hcall, htype, hpart s₁ (.refl s₁)⟩
    rw [← Slice.bounds_eq_roundedBounds hlength, hbounds]
  · rcases callReplies_slice hitems [.number 0.0, k] with
      ⟨front, s₁, hfront, hgrown, hkept, htype, hbefore⟩
    rcases callReplies_slice hkept [k] with ⟨back, s₂, hback, hgrown', _, htype', hbehind⟩
    -- The bound is read twice, in two stores, and means one place.
    have hplace := Value.toNumber_of_extends hgrown hknown
    have hbefore := hbefore s₂ hgrown'
    have hbehind := hbehind s₂ (.refl s₂)
    rw [Slice.bounds_front s receiver hk] at hbefore
    rw [Slice.bounds_back s₁ receiver hk, hplace, List.take_length] at hbehind
    exact ⟨front, back, s₁, s₂, _, _, hfront, hback, htype, htype', hbefore, hbehind,
      List.take_append_drop _ items⟩

end Calls

/-- A store with an array of three texts and an array that counts as minus one. -/
def Slice.counted : Store Unit where
  arrays := #[#[.text "a", .text "b", .text "c"], #[.text "-1"]]
  objects := #[]
  seed := 0
  world := ()

theorem Slice.known_counted : Value.Known counted (.array ⟨1⟩) := by
  intro r hr
  -- Nothing but the array itself and its text is reached.
  rcases Relation.ReflTransGen.cases_head hr with h | ⟨w, ⟨c, hc, hw⟩, hbelow⟩
  · obtain rfl := Value.array.inj h
    decide
  · obtain rfl := Option.some.inj hc
    obtain rfl : w = .text "-1" := by simpa [Store.contents, Store.elements, counted] using hw
    rcases Relation.ReflTransGen.cases_head hbelow with h | ⟨_, ⟨_, hnone, _⟩, _⟩
    · cases h
    · cases hnone

/-- An array is sliced at a bound that is an array itself and counts from the end. -/
theorem slices_at_array_bound :
    Slice.roundedBounds Slice.counted [.array ⟨0⟩, .array ⟨1⟩] 3 = (2, 3) ∧
      (∃ part s₁, CallReplies "slice" (.array ⟨0⟩) [.array ⟨1⟩] Slice.counted (.ok part, s₁) ∧
        part.items? s₁ = some [.text "c"]) ∧
      ∃ front back s₁ s₂ before behind,
        CallReplies "slice" (.array ⟨0⟩) [.number 0.0, .array ⟨1⟩] Slice.counted
          (.ok front, s₁) ∧
        CallReplies "slice" (.array ⟨0⟩) [.array ⟨1⟩] s₁ (.ok back, s₂) ∧
        front.items? s₂ = some before ∧ back.items? s₂ = some behind ∧
        before ++ behind = [.text "a", .text "b", .text "c"] := by
  have hitems : Value.items? Slice.counted (.array ⟨0⟩) =
      some [.text "a", .text "b", .text "c"] := rfl
  have htext : Value.toText Slice.counted (.array ⟨1⟩) = "-1" := by
    have hjoin : Value.toText Slice.counted (.array ⟨1⟩) =
        Value.joinIn Slice.counted "," [] ⟨1⟩ := rfl
    rw [hjoin, Value.joinIn_eq]
    simp [Value.textIn_text, Value.element, Store.elements, Slice.counted]
  have hbounds : Slice.bounds Slice.counted [.array ⟨0⟩, .array ⟨1⟩] 3 = (2, 3) := by
    rw [Slice.bounds_back _ _ (by decide), Value.toNumber, htext]
    decide +kernel
  rcases slices_within_and_whole hitems with ⟨hwithin, hwhole⟩
  rcases hwithin [.array ⟨1⟩] 2 3 hbounds with ⟨_, _, hrounded, part, s₁, hcall, _, hpart⟩
  rcases hwhole (.array ⟨1⟩) (by decide) Slice.known_counted with
    ⟨front, back, s₂, s₃, before, behind, hfront, hback, _, _, hbefore, hbehind, happend⟩
  exact ⟨hrounded (by decide), ⟨part, s₁, hcall, hpart⟩,
    ⟨front, back, s₂, s₃, before, behind, hfront, hback, hbefore, hbehind, happend⟩⟩

end Scriptlet
