import Mathlib.Algebra.Order.Field.Power
import Mathlib.Algebra.Order.Field.Rat
import Mathlib.Tactic.FieldSimp
import Mathlib.Tactic.Linarith
import Mathlib.Tactic.NormNum
import Mathlib.Tactic.Positivity
import Mathlib.Tactic.Ring
import Scriptlet.Number.Shortest

/-!
# Rounding to Doubles

Arithmetic on doubles computes a significand with more places than fit, cuts it
off and rounds it by two bits that sum up what was cut. What these bits mean is
a statement about fractions, `Cut`, and it survives shifting a place out.

A double stands for all quantities that round to it. They reach half a place up
and half a place down, but only a quarter down from a power of two, below which
doubles lie twice as close. `Near` is that interval. The main statement is that
rounding anything in it gives the double, however the quantity was arrived at.
A quantity a little below a power of two is the one delicate case: it is cut off
one place further down than the double it rounds to, and the carry of rounding
up brings it back.

## Main definitions

* `Cut`: What the two bits say about the part that is cut off.
* `Stands`: A significand with its two bits stands for a quantity.
* `Double`: Significands and exponents of positive doubles.
* `Near`: The quantities that round to a double.

## Theorems

* `Stands.roundedMantissa`: A significand is rounded to the nearest one.
* `targetExponent_of_near`: Where a quantity is cut off that rounds to a double.
* `roundWithAccuracy_of_near`: Such a quantity is rounded to the double.
* `mul_of_near`, `div_of_near`: So are products and quotients.
-/

namespace Scriptlet

namespace Number

open Float.Model Float.Model.UnpackedFloat

/-! ### Cutting off places -/

/-- What the round bit and the sticky bit say about the part that is cut off. -/
def Cut : (roundBit stickyBit : Bool) → ℚ → Prop
  | false, false, f => f = 0
  | false, true, f => 0 < f ∧ f < 1 / 2
  | true, false, f => f = 1 / 2
  | true, true, f => 1 / 2 < f ∧ f < 1

theorem Cut.bounds : ∀ {roundBit stickyBit : Bool} {f : ℚ}, Cut roundBit stickyBit f →
    0 ≤ f ∧ f < 1
  | false, false, f, (h : f = 0) => ⟨by linarith, by linarith⟩
  | false, true, _, h => ⟨by linarith [h.1], by linarith [h.2]⟩
  | true, false, f, (h : f = 1 / 2) => ⟨by linarith, by linarith⟩
  | true, true, _, h => ⟨by linarith [h.1], by linarith [h.2]⟩

/-- A zero is shifted out in front of the part that is cut off. -/
theorem Cut.zero : ∀ {roundBit stickyBit : Bool} {f : ℚ}, Cut roundBit stickyBit f →
    Cut false (roundBit || stickyBit) (f / 2)
  | false, false, f, (h : f = 0) => show f / 2 = 0 by linarith
  | false, true, _, h => ⟨by linarith [h.1], by linarith [h.2]⟩
  | true, false, f, (h : f = 1 / 2) => ⟨by linarith, by linarith⟩
  | true, true, _, h => ⟨by linarith [h.1], by linarith [h.2]⟩

/-- A one is shifted out in front of the part that is cut off. -/
theorem Cut.one : ∀ {roundBit stickyBit : Bool} {f : ℚ}, Cut roundBit stickyBit f →
    Cut true (roundBit || stickyBit) (1 / 2 + f / 2)
  | false, false, f, (h : f = 0) => show 1 / 2 + f / 2 = 1 / 2 by linarith
  | false, true, _, h => ⟨by linarith [h.1], by linarith [h.2]⟩
  | true, false, f, (h : f = 1 / 2) => ⟨by linarith, by linarith⟩
  | true, true, _, h => ⟨by linarith [h.1], by linarith [h.2]⟩

/-- A significand with its two bits stands for a quantity. -/
def Stands (em : ExtendedMantissa) (q : ℚ) : Prop :=
  Cut em.roundBit em.stickyBit (q - em.mantissa)

namespace Stands

variable {em : ExtendedMantissa} {q : ℚ}

theorem floor (h : Stands em q) : (em.mantissa : ℚ) ≤ q ∧ q < em.mantissa + 1 := by
  have hbounds := h.bounds
  exact ⟨by linarith [hbounds.1], by linarith [hbounds.2]⟩

theorem shiftRightOne (h : Stands em q) : Stands em.shiftRightOne (q / 2) := by
  have hhalf : ((em.mantissa % 2 : ℕ) : ℚ) + 2 * ((em.mantissa / 2 : ℕ) : ℚ) = em.mantissa := by
    exact_mod_cast Nat.mod_add_div em.mantissa 2
  -- The place that goes out is the last of the significand, and it goes in front of the rest.
  rcases Nat.mod_two_eq_zero_or_one em.mantissa with hk | hk
  · have hpart : q / 2 - ((em.mantissa / 2 : ℕ) : ℚ) = (q - em.mantissa) / 2 := by
      rw [hk, Nat.cast_zero] at hhalf
      linarith
    simp only [Stands, ExtendedMantissa.shiftRightOne, hk, hpart]
    exact h.zero
  · have hpart : q / 2 - ((em.mantissa / 2 : ℕ) : ℚ) = 1 / 2 + (q - em.mantissa) / 2 := by
      rw [hk, Nat.cast_one] at hhalf
      linarith
    simp only [Stands, ExtendedMantissa.shiftRightOne, hk, hpart]
    exact h.one

theorem shiftRight (h : Stands em q) (n : ℕ) : Stands (em >>> n) (q / 2 ^ n) := by
  induction n with
  | zero =>
      rw [pow_zero, div_one]
      exact h
  | succ n ih =>
      rw [pow_succ, div_mul_eq_div_div]
      exact ih.shiftRightOne

/-- A significand is rounded to the nearest one, and from halfway to the even
    one. -/
theorem roundedMantissa (h : Stands em q) {n : ℕ} (hlow : (n : ℚ) - 1 / 2 ≤ q)
    (hhigh : q ≤ n + 1 / 2) (hends : n % 2 = 1 → (n : ℚ) - 1 / 2 < q ∧ q < n + 1 / 2) :
    em.roundedMantissa = n := by
  rcases em with ⟨k, roundBit, stickyBit⟩
  have hle : ∀ {a b : ℕ}, (a : ℚ) < b + 1 → a ≤ b := by
    intro a b hab
    have : a < b + 1 := by exact_mod_cast hab
    omega
  cases roundBit with
  | false =>
      -- Less than half is cut off, so nothing is added.
      have hk : k = n := by
        cases stickyBit with
        | false =>
            have hq : q - k = 0 := h
            exact Nat.le_antisymm (hle (by linarith)) (hle (by linarith))
        | true =>
            have hq : 0 < q - k ∧ q - k < 1 / 2 := h
            exact Nat.le_antisymm (hle (by linarith [hq.1])) (hle (by linarith [hq.2]))
      subst hk
      cases stickyBit <;> rfl
  | true =>
      cases stickyBit with
      | false =>
          have hq : q - k = 1 / 2 := h
          have hkn : k ≤ n := hle (by linarith)
          have hnk : n ≤ k + 1 := hle (by push_cast; linarith)
          -- Halfway between two significands, an odd one would have to be away from both ends.
          have heven : n % 2 = 0 := by
            by_contra hodd
            have hstrict := hends (by omega)
            have hlt : n ≤ k := hle (by linarith [hstrict.1])
            have hgt : k + 1 ≤ n := hle (by push_cast; linarith [hstrict.2])
            omega
          show k + k % 2 = n
          omega
      | true =>
          have hq : 1 / 2 < q - k ∧ q - k < 1 := h
          have hkn : k + 1 ≤ n := hle (by push_cast; linarith [hq.1])
          have hnk : n ≤ k + 1 := hle (by push_cast; linarith [hq.2])
          show k + 1 = n
          omega

end Stands

/-! ### Doubles and what rounds to them -/

open Decimal (fullSignificand leastExponent quartersBelow)

/-- The significand and the exponent of a positive double. Only with the least
    exponent are there leading zeros. -/
structure Double (m : ℕ) (e : ℤ) : Prop where
  pos : 0 < m
  lt : m < 2 ^ 53
  least : -1074 ≤ e
  most : e ≤ 971
  full : m < 2 ^ 52 → e = -1074

/-- A quantity that rounds to a double. The ends of the interval belong to it
    where the significand is even. -/
structure Near (m : ℕ) (e : ℤ) (q : ℚ) : Prop where
  low : ((m : ℚ) - quartersBelow m e / 4) * 2 ^ e ≤ q
  high : q ≤ ((m : ℚ) + 1 / 2) * 2 ^ e
  ends : m % 2 = 1 → ((m : ℚ) - quartersBelow m e / 4) * 2 ^ e < q ∧
    q < ((m : ℚ) + 1 / 2) * 2 ^ e

/-- Where a significand is cut off whose leading place is given. -/
theorem targetExponent_eq (t : ℤ) :
    Format.binary64.targetExponent t = max (t - 53) (-1074) := by
  rfl

theorem quartersBelow_le (m : ℕ) (e : ℤ) : quartersBelow m e ≤ 2 := by
  unfold quartersBelow
  split <;> omega

theorem Double.targetExponent {m : ℕ} {e : ℤ} (h : Double m e) :
    Format.binary64.targetExponent (totalExponent m e) = e := by
  rw [targetExponent_eq, totalExponent]
  have hlog : m.log2 < 53 := (Nat.log2_lt h.pos.ne').mpr h.lt
  -- With leading zeros the exponent is the least; otherwise the leading one fixes it.
  by_cases hfull : m < 2 ^ 52
  · have hleast := h.full hfull
    have hlog' : m.log2 < 52 := (Nat.log2_lt h.pos.ne').mpr hfull
    omega
  · have hlog' : 52 ≤ m.log2 := (Nat.le_log2 h.pos.ne').mpr (by omega)
    have hleast := h.least
    omega

section Near

variable {m M : ℕ} {e E : ℤ} {q : ℚ}

theorem two_zpow_pos (e : ℤ) : (0 : ℚ) < 2 ^ e := by positivity

theorem Near.lt (h : Near m e q) (hd : Double m e) : q < 2 ^ (e + 53) := by
  have hm : (m : ℚ) + 1 / 2 < 2 ^ 53 := by
    have hlt : (m : ℚ) + 1 ≤ 2 ^ 53 := by exact_mod_cast hd.lt
    linarith
  calc q ≤ ((m : ℚ) + 1 / 2) * 2 ^ e := h.high
    _ < 2 ^ 53 * 2 ^ e := mul_lt_mul_of_pos_right hm (two_zpow_pos e)
    _ = 2 ^ (e + 53) := by rw [zpow_add₀ two_ne_zero, mul_comm]; norm_num

/-- The leading place of a quantity, from its significand. -/
theorem lt_of_stands {em : ExtendedMantissa} (h : Stands em (q / 2 ^ E)) :
    q < 2 ^ (totalExponent em.mantissa E) := by
  have hlog : (em.mantissa : ℚ) + 1 ≤ 2 ^ (em.mantissa.log2 + 1) := by
    exact_mod_cast Nat.lt_log2_self
  have hlt : q / 2 ^ E < 2 ^ (em.mantissa.log2 + 1) := by linarith [h.floor.2]
  rw [div_lt_iff₀ (two_zpow_pos E)] at hlt
  rw [totalExponent, zpow_add₀ two_ne_zero]
  exact_mod_cast hlt

theorem le_of_stands {em : ExtendedMantissa} (h : Stands em (q / 2 ^ E)) (hpos : em.mantissa ≠ 0) :
    2 ^ (totalExponent em.mantissa E - 1) ≤ q := by
  have hlog : (2 : ℚ) ^ em.mantissa.log2 ≤ em.mantissa := by
    exact_mod_cast Nat.log2_self_le hpos
  have hle : 2 ^ em.mantissa.log2 ≤ q / 2 ^ E := by linarith [h.floor.1]
  rw [le_div_iff₀ (two_zpow_pos E)] at hle
  have hexponent : totalExponent em.mantissa E - 1 = em.mantissa.log2 + E := by
    rw [totalExponent]
    ring
  rw [hexponent, zpow_add₀ two_ne_zero]
  exact_mod_cast hle

theorem zpow_add_natCast (e : ℤ) (n : ℕ) : (2 : ℚ) ^ (e + n) = 2 ^ n * 2 ^ e := by
  rw [zpow_add₀ two_ne_zero, zpow_natCast, mul_comm]

/-- A power of two has the doubles below it twice as close. -/
theorem quartersBelow_full (he : -1074 < e) : quartersBelow (2 ^ 52) e = 1 :=
  if_pos ⟨rfl, he⟩

/-- Below a power of two by less than a place, the nearest double is that power. -/
theorem Near.eq_full (h : Near m e q) (hd : Double m e) (he : -1074 < e) (hq : q < 2 ^ (e + 52)) :
    m = 2 ^ 52 := by
  have hfull : 2 ^ 52 ≤ m := by
    by_contra hlt
    have hleast := hd.full (by omega)
    omega
  have hquarters : (quartersBelow m e : ℚ) ≤ 2 := by exact_mod_cast quartersBelow_le m e
  -- At most half a place lies between the significand and the lower end.
  have hlt : ((m : ℚ) - quartersBelow m e / 4) * 2 ^ e < 2 ^ 52 * 2 ^ e :=
    lt_of_le_of_lt h.low (by rwa [← zpow_add_natCast])
  have hm : (m : ℚ) < 2 ^ 52 + 1 := by
    have hcancel := lt_of_mul_lt_mul_right hlt (two_zpow_pos e).le
    linarith
  have hle : m < 2 ^ 52 + 1 := by exact_mod_cast hm
  omega

/-- Where a quantity is cut off that rounds to a double: where the double is, or
    one place further down just below a power of two. -/
theorem targetExponent_of_near {em : ExtendedMantissa} (hd : Double m e) (hq : Near m e q)
    (h : Stands em (q / 2 ^ E))
    (hbits : E ≤ Format.binary64.targetExponent (totalExponent em.mantissa E)) :
    Format.binary64.targetExponent (totalExponent em.mantissa E) = e ∨
      Format.binary64.targetExponent (totalExponent em.mantissa E) = e - 1 ∧ m = 2 ^ 52 ∧
        -1074 < e ∧ q < 2 ^ (e + 52) := by
  rw [targetExponent_eq] at hbits ⊢
  have hlt := lt_of_stands h
  have hleast := hd.least
  -- A quantity is not cut off further up than the double is.
  have hupper : totalExponent em.mantissa E - 53 ≤ e ∨ em.mantissa = 0 := by
    by_cases hzero : em.mantissa = 0
    · exact .inr hzero
    · left
      have hpow := lt_of_le_of_lt (le_of_stands h hzero) (hq.lt hd)
      rw [zpow_lt_zpow_iff_right₀ one_lt_two] at hpow
      omega
  have htop : totalExponent em.mantissa E - 53 ≤ e := by
    rcases hupper with hupper | hzero
    · exact hupper
    · rw [hzero, totalExponent, Nat.log2_zero] at hbits ⊢
      omega
  by_cases hsame : max (totalExponent em.mantissa E - 53) (-1074) = e
  · exact .inl hsame
  · right
    have he : -1074 < e := by omega
    have hbelow : q < 2 ^ (e + 52) := by
      refine lt_of_lt_of_le hlt ((zpow_le_zpow_iff_right₀ one_lt_two).mpr ?_)
      omega
    have hm := hq.eq_full hd he hbelow
    -- It is not far below the power of two, so only one place further down is left.
    have hplace : (2 : ℚ) ^ (e + 51) < 2 ^ totalExponent em.mantissa E := by
      refine lt_of_lt_of_le ?_ (le_of_lt (lt_of_le_of_lt hq.low hlt))
      have hpow : (2 : ℚ) ^ (e + 51) = 2 ^ 51 * 2 ^ e := zpow_add_natCast e 51
      rw [hm, quartersBelow_full he, hpow]
      refine mul_lt_mul_of_pos_right ?_ (two_zpow_pos e)
      norm_num
    rw [zpow_lt_zpow_iff_right₀ one_lt_two] at hplace
    refine ⟨by omega, hm, he, hbelow⟩

theorem mantissa_ofMantissaAndAccuracy (M : ℕ) (accuracy : Accuracy) :
    (ExtendedMantissa.ofMantissaAndAccuracy M accuracy).mantissa = M := by
  cases accuracy with
  | exact => rfl
  | inexact ordering => cases ordering <;> rfl

/-- A significand cut off further up stands for the same quantity. -/
theorem stands_shiftToExponent {accuracy : Accuracy} {T : ℤ}
    (h : Stands (.ofMantissaAndAccuracy M accuracy) (q / 2 ^ E)) (hle : E ≤ T) :
    Stands (shiftToExponent M E accuracy T).1 (q / 2 ^ T) ∧
      (shiftToExponent M E accuracy T).2 = T := by
  -- Moving the exponent up by `n` shifts out `n` places, one at a time.
  obtain ⟨n, hn⟩ : ∃ n : ℕ, T = E + n := ⟨(T - E).toNat, by omega⟩
  have hshift : (T - E).toNat = n := by omega
  simp only [shiftToExponent, hshift]
  refine ⟨?_, by omega⟩
  have hquotient : q / 2 ^ T = q / 2 ^ E / 2 ^ n := by
    rw [hn, zpow_add_natCast, mul_comm, div_mul_eq_div_div]
  rw [hquotient]
  exact h.shiftRight n

/-- Where the double is, a quantity that rounds to it is rounded to its
    significand. -/
theorem roundedMantissa_of_near {em : ExtendedMantissa} (hq : Near m e q)
    (h : Stands em (q / 2 ^ e)) : em.roundedMantissa = m := by
  have hquarters : (quartersBelow m e : ℚ) ≤ 2 := by exact_mod_cast quartersBelow_le m e
  have hlow := hq.low
  have hhigh := hq.high
  rw [← le_div_iff₀ (two_zpow_pos e)] at hlow
  rw [← div_le_iff₀ (two_zpow_pos e)] at hhigh
  refine h.roundedMantissa (by linarith) hhigh fun hodd => ?_
  have hends := hq.ends hodd
  rw [← lt_div_iff₀ (two_zpow_pos e), ← div_lt_iff₀ (two_zpow_pos e)] at hends
  exact ⟨by linarith [hends.1], hends.2⟩

/-- One place further down than a power of two, a quantity that rounds to it is
    rounded up to a significand with a carry. -/
theorem roundedMantissa_below {em : ExtendedMantissa} (he : -1074 < e) (hq : Near (2 ^ 52) e q)
    (hbelow : q < 2 ^ (e + 52)) (h : Stands em (q / 2 ^ (e - 1))) :
    em.roundedMantissa = 2 ^ 53 := by
  have hpow : (2 : ℚ) ^ e = 2 * 2 ^ (e - 1) := by
    have hadd := zpow_add_natCast (e - 1) 1
    simpa using hadd
  have hpow' : (2 : ℚ) ^ (e + 52) = 2 ^ 53 * 2 ^ (e - 1) := by
    have hadd : (2 : ℚ) ^ (e + 52) = 2 ^ 52 * 2 ^ e := zpow_add_natCast e 52
    rw [hadd, hpow]
    ring
  have hlow := hq.low
  rw [quartersBelow_full he, hpow, ← mul_assoc, ← le_div_iff₀ (two_zpow_pos _)] at hlow
  rw [hpow', ← div_lt_iff₀ (two_zpow_pos _)] at hbelow
  push_cast at hlow
  refine h.roundedMantissa ?_ ?_ fun hodd => by omega
  · push_cast
    linarith
  · push_cast
    linarith

/-- Rounding in its three steps: cut off, round, and cut off again if there was a
    carry. -/
theorem roundWithAccuracy_eq {accuracy : Accuracy} {n : ℕ} {T : ℤ} (sign : Sign) (hm : 0 < m)
    (hfirst : (shiftToTargetExponent .binary64 M E accuracy).1.roundedMantissa = n)
    (hexponent : (shiftToTargetExponent .binary64 M E accuracy).2 = T)
    (hsecond : (shiftToTargetExponent .binary64 n T .exact).1.mantissa = m)
    (hfinal : (shiftToTargetExponent .binary64 n T .exact).2 = e) :
    roundWithAccuracy .binary64 sign M E accuracy = .finite sign m e hm := by
  subst hfirst hexponent hsecond hfinal
  rw [roundWithAccuracy]
  exact dif_neg hm.ne'

/-- Rounding a quantity gives the double that it rounds to. -/
theorem roundWithAccuracy_of_near {accuracy : Accuracy} (sign : Sign) (hd : Double m e)
    (hq : Near m e q) (h : Stands (.ofMantissaAndAccuracy M accuracy) (q / 2 ^ E))
    (hbits : E ≤ Format.binary64.targetExponent (totalExponent M E)) :
    roundWithAccuracy .binary64 sign M E accuracy = .finite sign m e hd.pos := by
  have htarget := targetExponent_of_near hd hq h (by rwa [mantissa_ofMantissaAndAccuracy])
  rw [mantissa_ofMantissaAndAccuracy] at htarget
  rcases stands_shiftToExponent h hbits with ⟨hstands, hexponent⟩
  rcases htarget with htarget | ⟨htarget, rfl, he, hbelow⟩
  · rw [htarget] at hstands hexponent
    refine roundWithAccuracy_eq sign hd.pos (n := m) (T := e) ?_ ?_ ?_ ?_
    · rw [shiftToTargetExponent, htarget]
      exact roundedMantissa_of_near hq hstands
    · rw [shiftToTargetExponent, htarget]
      exact hexponent
    -- The rounded significand is where it belongs.
    · rw [shiftToTargetExponent, hd.targetExponent, shiftToExponent, Int.sub_self]
      rfl
    · rw [shiftToTargetExponent, hd.targetExponent, shiftToExponent, Int.sub_self]
      exact Int.add_zero e
  · rw [htarget] at hstands hexponent
    have hcarry : Format.binary64.targetExponent (totalExponent (2 ^ 53) (e - 1)) = e := by
      rw [targetExponent_eq, totalExponent, Nat.log2_two_pow]
      omega
    have hplace : (e - (e - 1)).toNat = 1 := by omega
    refine roundWithAccuracy_eq sign hd.pos (n := 2 ^ 53) (T := e - 1) ?_ ?_ ?_ ?_
    · rw [shiftToTargetExponent, htarget]
      exact roundedMantissa_below he hq hbelow hstands
    · rw [shiftToTargetExponent, htarget]
      exact hexponent
    -- The carry goes one place further up.
    · rw [shiftToTargetExponent, hcarry, shiftToExponent, hplace]
      rfl
    · rw [shiftToTargetExponent, hcarry, shiftToExponent, hplace]
      exact Int.sub_add_cancel e 1

/-! ### Products and quotients -/

theorem mul_of_near {m₁ m₂ : ℕ} {e₁ e₂ : ℤ} (h₁ : 0 < m₁) (h₂ : 0 < m₂) (hd : Double m e)
    (hfull : 2 ^ 52 ≤ m₁ * m₂) (hq : Near m e ((m₁ * m₂ : ℕ) * 2 ^ (e₁ + e₂))) :
    mul .binary64 (.finite .positive m₁ e₁ h₁) (.finite .positive m₂ e₂ h₂) =
      .finite .positive m e hd.pos := by
  have hstands : Stands (.ofMantissaAndAccuracy (m₁ * m₂) .exact)
      ((m₁ * m₂ : ℕ) * 2 ^ (e₁ + e₂) / 2 ^ (e₁ + e₂)) := by
    rw [mul_div_assoc, div_self (two_zpow_pos _).ne', mul_one]
    exact sub_self _
  -- The product is not rounded twice: it has at least as many places as are kept.
  refine roundWithAccuracy_of_near .positive hd hq hstands ?_
  have hlog : 52 ≤ (m₁ * m₂).log2 := (Nat.le_log2 (Nat.mul_pos h₁ h₂).ne').mpr hfull
  rw [targetExponent_eq, totalExponent]
  omega

/-- A quotient of natural numbers with the bits that sum up its remainder. -/
theorem stands_quotient (a : ℕ) {b : ℕ} (hb : 0 < b) :
    Stands (.ofMantissaAndAccuracy (a / b) (accuracyOfFraction (a % b) b)) ((a : ℚ) / b) := by
  have hpos : (0 : ℚ) < b := by exact_mod_cast hb
  have hpart : (a : ℚ) / b - (a / b : ℕ) = (a % b : ℕ) / b := by
    have hdivision : ((b * (a / b) + a % b : ℕ) : ℚ) = a := by exact_mod_cast Nat.div_add_mod a b
    push_cast at hdivision
    rw [eq_div_iff hpos.ne', sub_mul, div_mul_cancel₀ _ hpos.ne']
    linarith
  have hlt : ((a % b : ℕ) : ℚ) < b := by exact_mod_cast Nat.mod_lt a hb
  by_cases hzero : a % b = 0
  · rw [accuracyOfFraction, if_pos hzero]
    show (a : ℚ) / b - (a / b : ℕ) = 0
    rw [hpart, hzero, Nat.cast_zero, zero_div]
  · have hremainder : (0 : ℚ) < (a % b : ℕ) := by exact_mod_cast Nat.pos_of_ne_zero hzero
    rw [accuracyOfFraction, if_neg hzero]
    -- The remainder is compared with half of the divisor.
    rcases hcompare : compare (2 * (a % b)) b with _ | _ | _
    · have hless : ((2 * (a % b) : ℕ) : ℚ) < b := by
        exact_mod_cast Nat.compare_eq_lt.mp hcompare
      push_cast at hless
      show 0 < (a : ℚ) / b - (a / b : ℕ) ∧ (a : ℚ) / b - (a / b : ℕ) < 1 / 2
      rw [hpart, div_lt_iff₀ hpos]
      exact ⟨div_pos hremainder hpos, by linarith⟩
    · have hequal : ((2 * (a % b) : ℕ) : ℚ) = b := by
        exact_mod_cast Nat.compare_eq_eq.mp hcompare
      push_cast at hequal
      show (a : ℚ) / b - (a / b : ℕ) = 1 / 2
      rw [hpart, div_eq_iff hpos.ne']
      linarith
    · have hgreater : (b : ℚ) < ((2 * (a % b) : ℕ) : ℚ) := by
        exact_mod_cast Nat.compare_eq_gt.mp hcompare
      push_cast at hgreater
      show 1 / 2 < (a : ℚ) / b - (a / b : ℕ) ∧ (a : ℚ) / b - (a / b : ℕ) < 1
      rw [hpart, lt_div_iff₀ hpos, div_lt_one hpos]
      exact ⟨by linarith, hlt⟩

/-- The leading place of a quotient is not below the difference of those of its
    operands. -/
theorem totalExponent_of_quotient {m₁ m₂ : ℕ} {e₁ e₂ t : ℤ} (h₁ : 0 < m₁) (h₂ : 0 < m₂)
    (hlt : ((m₁ : ℚ) * 2 ^ e₁) / (m₂ * 2 ^ e₂) < 2 ^ t) :
    totalExponent m₁ e₁ - totalExponent m₂ e₂ ≤ t := by
  have hlow : (2 : ℚ) ^ (m₁.log2 + e₁) ≤ m₁ * 2 ^ e₁ := by
    rw [zpow_add₀ two_ne_zero, zpow_natCast]
    have hself : (2 : ℚ) ^ m₁.log2 ≤ m₁ := by exact_mod_cast Nat.log2_self_le h₁.ne'
    exact mul_le_mul_of_nonneg_right hself (two_zpow_pos e₁).le
  have hhigh : (m₂ : ℚ) * 2 ^ e₂ < 2 ^ (totalExponent m₂ e₂) := by
    have hself : (m₂ : ℚ) < 2 ^ (m₂.log2 + 1) := by exact_mod_cast Nat.lt_log2_self
    have hpow := mul_lt_mul_of_pos_right hself (two_zpow_pos e₂)
    rw [totalExponent, zpow_add₀ two_ne_zero]
    exact_mod_cast hpow
  have hpos : (0 : ℚ) < m₂ * 2 ^ e₂ := mul_pos (by exact_mod_cast h₂) (two_zpow_pos e₂)
  rw [div_lt_iff₀ hpos] at hlt
  have hpow : (2 : ℚ) ^ (m₁.log2 + e₁) < 2 ^ (t + totalExponent m₂ e₂) := by
    rw [zpow_add₀ two_ne_zero (t : ℤ)]
    exact lt_of_le_of_lt hlow (lt_trans hlt (mul_lt_mul_of_pos_left hhigh (two_zpow_pos t)))
  rw [zpow_lt_zpow_iff_right₀ one_lt_two] at hpow
  rw [totalExponent]
  omega

theorem div_of_near {m₁ m₂ : ℕ} {e₁ e₂ : ℤ} (h₁ : 0 < m₁) (h₂ : 0 < m₂) (hd : Double m e)
    (hq : Near m e (((m₁ : ℚ) * 2 ^ e₁) / (m₂ * 2 ^ e₂))) :
    div .binary64 (.finite .positive m₁ e₁ h₁) (.finite .positive m₂ e₂ h₂) =
      .finite .positive m e hd.pos := by
  generalize ht : min (e₁ - e₂) (Format.binary64.targetExponent
    (totalExponent m₁ e₁ - totalExponent m₂ e₂)) = t
  obtain ⟨n, hn⟩ : ∃ n : ℕ, e₁ - e₂ = t + n := ⟨(e₁ - e₂ - t).toNat, by omega⟩
  have hshift : (e₁ - e₂ - t).toNat = n := by omega
  have hpos : (0 : ℚ) < m₂ := by exact_mod_cast h₂
  have hstands : Stands (.ofMantissaAndAccuracy (m₁ * 2 ^ n / m₂)
      (accuracyOfFraction (m₁ * 2 ^ n % m₂) m₂)) ((m₁ : ℚ) * 2 ^ e₁ / (m₂ * 2 ^ e₂) / 2 ^ t) := by
    have hvalue : (m₁ : ℚ) * 2 ^ e₁ / (m₂ * 2 ^ e₂) / 2 ^ t = ((m₁ * 2 ^ n : ℕ) : ℚ) / m₂ := by
      have hpow : (2 : ℚ) ^ e₁ = 2 ^ n * 2 ^ t * 2 ^ e₂ := by
        rw [← zpow_add_natCast, ← zpow_add₀ two_ne_zero]
        congr 1
        omega
      rw [hpow]
      push_cast
      field_simp
    rw [hvalue]
    exact stands_quotient _ h₂
  -- Division computes the whole part of the shifted quotient and sums up the remainder.
  have hcore : divCore .binary64 m₁ e₁ m₂ e₂ = (m₁ * 2 ^ n / m₂, t,
      accuracyOfFraction (m₁ * 2 ^ n % m₂) m₂) := by
    simp only [divCore, ht, hshift, Nat.shiftLeft_eq]
  have hbits : t ≤ Format.binary64.targetExponent (totalExponent (m₁ * 2 ^ n / m₂) t) := by
    have hplace := totalExponent_of_quotient h₁ h₂ (lt_of_stands hstands)
    rw [mantissa_ofMantissaAndAccuracy] at hplace
    rw [targetExponent_eq] at ht ⊢
    omega
  delta UnpackedFloat.div
  dsimp only
  rw [hcore]
  exact roundWithAccuracy_of_near _ hd hq hstands hbits

end Near

end Number

end Scriptlet
