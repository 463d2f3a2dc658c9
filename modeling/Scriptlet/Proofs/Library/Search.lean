import Scriptlet.Eval.Call
import Scriptlet.Proofs.Number.Whole

/-!
# Searching

Three functions of texts depend on where one text occurs in another: one gives the
place, one tells whether there is a place, and one puts a replacement there. An
occurrence is a matter of characters: the text that is sought stands at a place if
as many characters as it has, from the place on, are the text. So it has to lie in the
text as a whole, except that the empty text stands everywhere.

The search goes along the text and stops at the first place, which is why it is the
least one. This holds for texts that overlap themselves too, since every place is
tried and nothing is skipped.

The place is given as a number. It is the number nearest to the place, so it is the
place itself in every text with fewer than `2 ^ 53` characters, and it is never the
number that stands for none, since that one is negative.

## Main definitions

* `Text.OccursAt`: One text stands in another at a place.
* `Text.FirstAt`: It stands there and nowhere before.
* `FunctionReplies`, `MethodReplies`, `CallReplies`: Calls of what the library has under a name.

## Theorems

* `Text.find?_eq_some_iff`, `Text.find?_eq_none_iff`: The search gives the first place.
* `search_functions_agree`: All three functions go by the first place.
-/

namespace Scriptlet

/-! ### Occurrences -/

namespace Text

/-- One text stands in another at a place: the characters from there on, as many as it has,
    are the text. -/
def OccursAt (needle text : List Char) (place : Nat) : Prop :=
  (text.drop place).take needle.length = needle
deriving Decidable

/-- One text stands in another at a place and at none before. -/
def FirstAt (needle text : List Char) (place : Nat) : Prop :=
  OccursAt needle text place ∧ ∀ before < place, ¬ OccursAt needle text before

variable {needle text : List Char} {place : Nat}

theorem occursAt_iff_starts : OccursAt needle text place ↔ needle <+: text.drop place := by
  rw [List.prefix_iff_eq_take, OccursAt, eq_comm]

/-- In the empty text nothing but the empty text occurs. -/
theorem occursAt_nil : OccursAt needle [] place ↔ needle = [] := by
  rw [occursAt_iff_starts, List.drop_nil, List.prefix_nil]

theorem isPrefixOf_eq_true_iff : needle.isPrefixOf text = true ↔ OccursAt needle text 0 := by
  rw [occursAt_iff_starts, List.drop_zero, List.isPrefixOf_iff_prefix]

/-- A text is found nowhere if it stands nowhere. -/
theorem find?_eq_none_iff : find? needle text = none ↔ ∀ place, ¬ OccursAt needle text place := by
  induction text with
  | nil => simp [find?, occursAt_nil]
  | cons c cs ih =>
      unfold find?
      constructor
      · intro h place
        split at h
        · simp at h
        · next hhead =>
          cases place with
          | zero => rwa [← isPrefixOf_eq_true_iff]
          | succ place => exact ih.mp (by simpa using h) place
      · intro h
        rw [if_neg (by rw [isPrefixOf_eq_true_iff]; exact h 0), Option.map_eq_none_iff, ih]
        exact fun place => h (place + 1)

/-- A place where a text stands at the start comes first only if it is the start. -/
theorem firstAt_of_head (h : OccursAt needle text 0) : FirstAt needle text place ↔ place = 0 := by
  constructor
  · rintro ⟨_, hfirst⟩
    cases place with
    | zero => rfl
    | succ place => exact absurd h (hfirst 0 (by omega))
  · rintro rfl
    exact ⟨h, fun before hbefore => absurd hbefore (by omega)⟩

/-- A text is found at the first place where it stands. -/
theorem find?_eq_some_iff : find? needle text = some place ↔ FirstAt needle text place := by
  induction text generalizing place with
  | nil =>
      unfold find?
      by_cases hneedle : needle = []
      · rw [if_pos hneedle, firstAt_of_head (occursAt_nil.mpr hneedle), Option.some.injEq, eq_comm]
      · simp [FirstAt, occursAt_nil, hneedle]
  | cons c cs ih =>
      unfold find?
      by_cases hhead : needle.isPrefixOf (c :: cs) = true
      · rw [if_pos hhead, firstAt_of_head (isPrefixOf_eq_true_iff.mp hhead), Option.some.injEq,
          eq_comm]
      · rw [if_neg hhead, Option.map_eq_some_iff]
        rw [isPrefixOf_eq_true_iff] at hhead
        -- The start is not a place, so all places are one further than in the rest.
        constructor
        · rintro ⟨later, hlater, rfl⟩
          rcases ih.mp hlater with ⟨hat, hfirst⟩
          refine ⟨hat, fun before hbefore => ?_⟩
          cases before with
          | zero => exact hhead
          | succ before => exact hfirst before (by omega)
        · rintro ⟨hat, hfirst⟩
          cases place with
          | zero => exact absurd hat hhead
          | succ place =>
              exact ⟨place, ih.mpr ⟨hat, fun before hbefore => hfirst (before + 1) (by omega)⟩, rfl⟩

/-- Counting the characters in front of the byte where a text is found gives its place. -/
theorem charactersBefore_findByte? (needle text : List Char) :
    (findByte? needle text).map (charactersBefore text) = find? needle text := by
  induction text with
  | nil =>
      unfold findByte? find?
      split <;> rfl
  | cons c cs ih =>
      unfold findByte? find?
      split
      · rfl
      · rw [← ih, Option.map_map, Option.map_map]
        congr 1
        funext byte
        -- A character takes at least one byte, so the byte is not the first one.
        have hsize := c.utf8Size_pos
        rcases hbyte : byte + c.utf8Size with _ | later
        · omega
        · have hback : later + 1 - c.utf8Size = byte := by omega
          simp only [Function.comp_apply, hbyte, charactersBefore, hback]

end Text

/-! ### Calls -/

section Calls

variable {σ : Type}

/-- The characters in front of the byte that was found are as many as in front of the place. -/
theorem indexOf_reply (s : Store σ) (t sought : String) :
    TextMethod.indexOf [.text t, .text sought] s =
      (.ok (.number ((Text.find? sought.toList t.toList).elim (-1.0) Number.ofNat)), s) := by
  rw [← Text.charactersBefore_findByte?]
  change (Except.ok (Value.number ((Text.findByte? sought.toList t.toList).elim (-1.0) fun byte =>
    Number.ofNat (Text.charactersBefore t.toList byte))), s) = _
  cases Text.findByte? sought.toList t.toList <;> rfl

variable [Host σ]

/-- The function that the library has under a name replies so to some arguments. -/
def FunctionReplies (name : String) (args : List Value) (s : Store σ) (reply : Reply σ Value) :
    Prop :=
  ∃ f, libraryFunction? name = some f ∧ f args s = reply

/-- The method that the library has under a name for a value replies so to some arguments. -/
def MethodReplies (name : String) (receiver : Value) (args : List Value) (s : Store σ)
    (reply : Reply σ Value) : Prop :=
  ∃ f, findMethod? s receiver name = some (.library f) ∧ f (receiver :: args) s = reply

/-- A function with a value as its first argument, and the method of that name of the value, both
    reply so. -/
def CallReplies (name : String) (receiver : Value) (args : List Value) (s : Store σ)
    (reply : Reply σ Value) : Prop :=
  FunctionReplies name (receiver :: args) s reply ∧ MethodReplies name receiver args s reply

/-- The functions that search agree on the first place where a text stands in another. The place
    is given as a number, minus one where there is none. A text is included if there is a place,
    and there it is replaced. -/
theorem search_functions_agree (s : Store σ) (t sought replacement : String) :
    ∃ (index : Float) (found : Bool) (replaced : String),
      CallReplies "indexOf" (.text t) [.text sought] s (.ok (.number index), s) ∧
      MethodReplies "includes" (.text t) [.text sought] s (.ok (.truth found), s) ∧
      CallReplies "replace" (.text t) [.text sought, .text replacement] s
        (.ok (.text replaced), s) ∧
      (index = -1.0 ↔ ∀ place, ¬ Text.OccursAt sought.toList t.toList place) ∧
      (∀ place, Text.FirstAt sought.toList t.toList place →
        index = Number.ofNat place ∧
        (place < 2 ^ 53 → Number.integer? index = some (place : ℤ)) ∧
        replaced.toList = t.toList.take place ++ replacement.toList ++
          t.toList.drop (place + sought.toList.length)) ∧
      (found = true ↔ index ≠ -1.0) ∧
      (index = -1.0 → replaced = t) := by
  refine ⟨(Text.find? sought.toList t.toList).elim (-1.0) Number.ofNat,
    (Text.find? sought.toList t.toList).isSome,
    .ofList (Text.replaceFirst sought.toList replacement.toList t.toList),
    ⟨⟨_, rfl, indexOf_reply s t sought⟩, ⟨_, rfl, indexOf_reply s t sought⟩⟩, ⟨_, rfl, rfl⟩,
    ⟨⟨_, rfl, rfl⟩, ⟨_, rfl, rfl⟩⟩, ?_⟩
  rw [← Text.find?_eq_none_iff, Text.replaceFirst]
  cases hfind : Text.find? sought.toList t.toList with
  | none =>
      have hnowhere := Text.find?_eq_none_iff.mp hfind
      exact ⟨by simp, fun place hplace => absurd hplace.1 (hnowhere place), by simp, by simp⟩
  | some first =>
      have hindex := Number.ofNat_ne_minus_one first
      refine ⟨by simp [hindex], fun place hplace => ?_, by simp [hindex], fun h => absurd h hindex⟩
      -- There is one first place, the one that was found.
      rw [← Text.find?_eq_some_iff, hfind, Option.some.injEq] at hplace
      subst hplace
      exact ⟨rfl, Number.integer?_ofNat, by simp⟩

end Calls

/-- A text that stands behind its own beginning, with a letter of two bytes. -/
theorem search_of_overlapping_text :
    ∃ s : Store Unit, Text.FirstAt "aéb".toList "aéaéb".toList 2 ∧
      CallReplies "indexOf" (.text "aéaéb") [.text "aéb"] s (.ok (.number 2.0), s) ∧
      MethodReplies "includes" (.text "aéaéb") [.text "aéb"] s (.ok (.truth true), s) ∧
      CallReplies "replace" (.text "aéaéb") [.text "aéb", .text "c"] s (.ok (.text "aéc"), s) := by
  have hfirst : Text.FirstAt "aéb".toList "aéaéb".toList 2 := by
    unfold Text.FirstAt
    decide
  refine ⟨.empty 0 (), hfirst, ?_⟩
  rcases search_functions_agree (.empty 0 ()) "aéaéb" "aéb" "c" with
    ⟨index, found, replaced, hindex, hincludes, hreplace, _, hplace, hfound, _⟩
  rcases hplace 2 hfirst with ⟨rfl, _, hreplaced⟩
  obtain rfl : found = true := hfound.mpr (Number.ofNat_ne_minus_one 2)
  obtain rfl : replaced = "aéc" := String.toList_injective hreplaced
  exact ⟨hindex, hincludes, hreplace⟩

end Scriptlet
