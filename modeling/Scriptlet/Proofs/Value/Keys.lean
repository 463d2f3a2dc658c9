import Mathlib.Data.List.Basic
import Mathlib.Data.List.Induction
import Mathlib.Data.Nat.Digits.Defs
import Scriptlet.Proofs.Value.Members

/-!
# Keys of Places

The key of a place in an array is tested by reading and writing. Whatever its
characters are, they are read as if they were digits, and the number that comes out
has to be written with the same characters again. Here the keys that pass the test
are described without either: they are rows of digits with no zero in front, unless
it is all there is, and the digits add up to the place.

Both directions are a matter of the last digit. What stands in front of it is a
numeral again, of a tenth of the number, and of a number that is not zero, because
otherwise there would be a zero in front. So the inductions take digits off the end.

## Main definitions

* `digitValue`: What a digit counts.
* `IsNumeral`: The numeral of a number.

## Theorems

* `ofDigits_eq_sum`: Reading adds up the digits by their places.
* `digitsOf_ofDigits`: Writing a number that was read gives its numeral.
* `isNumeral_iff`: Every number is written as its one numeral.
* `keys_are_numerals`: The keys of places are the numerals below the bound.
-/

namespace Scriptlet

/-- What a digit counts. -/
def digitValue (c : Char) : Nat :=
  c.toNat - '0'.toNat

/-- A row of characters is the numeral of a number: it has digits only, and one at least,
    a zero in front is all there is, and the digits by their places, from the last one
    on, add up to the number. -/
structure IsNumeral (cs : List Char) (n : Nat) : Prop where
  ne_nil : cs ≠ []
  digits : ∀ c ∈ cs, c.isDigit = true
  leading : cs.head? = some '0' → cs = ['0']
  value : Nat.ofDigits 10 (cs.reverse.map digitValue) = n

namespace Decimal

theorem ofDigits_concat (cs : List Char) (c : Char) :
    ofDigits (cs ++ [c]) = 10 * ofDigits cs + digitValue c := by
  rw [ofDigits, List.foldl_append]
  rfl

/-- Reading adds up the digits by their places. -/
theorem ofDigits_eq_sum (cs : List Char) :
    ofDigits cs = Nat.ofDigits 10 (cs.reverse.map digitValue) := by
  induction cs using List.reverseRecOn with
  | nil => rfl
  | append_singleton cs c ih =>
      rw [ofDigits_concat, ih, List.reverse_concat, List.map_cons, Nat.ofDigits_cons]
      exact Nat.add_comm _ _

/-- A digit is the one character that its value is written with. -/
theorem digitsOf_digitValue {c : Char} (hc : c.isDigit = true) :
    digitValue c < 10 ∧ digitsOf (digitValue c) = [c] := by
  have hbounds : 48 ≤ c.toNat ∧ c.toNat ≤ 57 := Char.isDigit_iff_toNat.mp hc
  have hvalue : digitValue c = c.toNat - 48 := rfl
  have hlt : digitValue c < 10 := by omega
  have hchar : (digitValue c).digitChar = c := by
    rw [← Char.toNat_inj, Nat.toNat_digitChar_of_lt_ten hlt]
    omega
  exact ⟨hlt, by rw [digitsOf, Nat.toDigits_of_lt_base hlt, hchar]⟩

/-- A numeral is what the number that it reads as is written with. -/
theorem digitsOf_ofDigits {cs : List Char} (hne : cs ≠ []) (hdigits : ∀ c ∈ cs, c.isDigit = true)
    (hleading : cs.head? = some '0' → cs = ['0']) : digitsOf (ofDigits cs) = cs := by
  induction cs using List.reverseRecOn with
  | nil => exact absurd rfl hne
  | append_singleton cs c ih =>
      rcases digitsOf_digitValue (hdigits c (by simp)) with ⟨hlt, hlast⟩
      by_cases hfirst : cs = []
      · subst hfirst
        rw [ofDigits_concat]
        simpa [ofDigits] using hlast
      · -- A zero in front of the last digit would be in front of all of them.
        have hhead : cs.head? ≠ some '0' := by
          intro hzero
          have hall := hleading (by rw [List.head?_append_of_ne_nil cs hfirst, hzero])
          exact hfirst (by simpa using congrArg List.length hall)
        have hfront : digitsOf (ofDigits cs) = cs :=
          ih hfirst (fun c hc => hdigits c (List.mem_append_left _ hc)) fun h => absurd h hhead
        have hpos : 0 < ofDigits cs := by
          refine Nat.pos_of_ne_zero fun hzero => hhead ?_
          rw [← hfront, hzero]
          rfl
        have happend := Nat.toDigits_append_toDigits (by decide : 1 < 10) hpos hlt
        calc digitsOf (ofDigits (cs ++ [c]))
            = digitsOf (10 * ofDigits cs + digitValue c) := by rw [ofDigits_concat]
          _ = digitsOf (ofDigits cs) ++ digitsOf (digitValue c) := happend.symm
          _ = cs ++ [c] := by rw [hfront, hlast]

/-- A number is written with a zero in front only if it is zero. -/
theorem head?_digitsOf (n : Nat) : (digitsOf n).head? = some '0' → n = 0 := by
  induction n using Nat.strongRecOn with
  | ind n ih =>
      intro hhead
      by_cases hlt : n < 10
      · rw [digitsOf, Nat.toDigits_of_lt_base hlt] at hhead
        have hzero : n.digitChar.toNat = '0'.toNat := by
          rw [Option.some.inj hhead]
        rw [Nat.toNat_digitChar_of_lt_ten hlt] at hzero
        have hcode : '0'.toNat = 48 := rfl
        omega
      · -- The digits in front of the last one are those of a tenth of the number.
        rw [digitsOf, Nat.toDigits_of_base_le (by decide) (by omega),
          List.head?_append_of_ne_nil _ Nat.toDigits_ne_nil] at hhead
        have htenth : n / 10 = 0 := ih (n / 10) (by omega) hhead
        omega

end Decimal

/-- Every number is written as its one numeral. -/
theorem isNumeral_iff {cs : List Char} {n : Nat} : IsNumeral cs n ↔ cs = Decimal.digitsOf n := by
  constructor
  · rintro ⟨hne, hdigits, hleading, hvalue⟩
    rw [← hvalue, ← Decimal.ofDigits_eq_sum, Decimal.digitsOf_ofDigits hne hdigits hleading]
  · rintro rfl
    refine ⟨Nat.toDigits_ne_nil, List.all_eq_true.mp (Number.all_isDigit_digitsOf n), ?_, ?_⟩
    · intro hhead
      rw [Decimal.head?_digitsOf n hhead]
      rfl
    · rw [← Decimal.ofDigits_eq_sum, Number.ofDigits_digitsOf]

/-- The keys of places are the numerals. A key is that of a place if the place is below
    the bound of a machine word and the key is its numeral. No other key means the same
    place, and every place below the bound has a key. -/
theorem keys_are_numerals (key : String) (i : Nat) :
    (arrayIndex? key = some i ↔ i < 2 ^ 64 ∧ IsNumeral key.toList i) ∧
    (∀ other ≠ key, arrayIndex? key = some i → arrayIndex? other ≠ some i) ∧
    (i < 2 ^ 64 → ∃ numeral, arrayIndex? numeral = some i) := by
  have hbound : arrayIndexBound = 2 ^ 64 := rfl
  refine ⟨?_, fun other hne hkey hother => hne (arrayIndex?_inj hother hkey), fun hi => ?_⟩
  · rw [arrayIndex?_eq_some_iff, isNumeral_iff, hbound, and_comm]
  · refine ⟨String.ofList (Decimal.digitsOf i), arrayIndex?_eq_some_iff.mpr ⟨?_, hbound ▸ hi⟩⟩
    rw [String.toList_ofList]

-- The last place of all, and keys that only read like the numeral of a place.
example : arrayIndex? "18446744073709551615" = some 18446744073709551615 ∧
    arrayIndex? "18446744073709551616" = none ∧ arrayIndex? "+7" = none ∧
    arrayIndex? "07" = none ∧ arrayIndex? "" = none := by
  decide

end Scriptlet
