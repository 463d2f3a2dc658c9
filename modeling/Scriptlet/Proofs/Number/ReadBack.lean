import Scriptlet.Proofs.Number.Packing
import Scriptlet.Proofs.Number.Shortest

/-!
# Reading Numbers Back

The text of a number is a numeral for a decimal that rounds to it, so what is
left is that reading a numeral rounds correctly. Reading takes two ways. A short
row of digits and a small power of ten are both exactly numbers, and one product
or quotient of them is all the rounding there is. Anything else is computed with
the whole row of digits as a significand. Both ways end in a product or quotient
of exact quantities, which is rounded as a whole.

## Main definitions

* `isExactly`: A number is exactly a given natural number.

## Theorems

* `ofNat_eq_finite`: Natural numbers that fit are not rounded.
* `isExactly_ofNat`, `isExactly_power`: Short rows of digits and small powers of
  ten are exactly numbers.
* `ofScientific_whole`, `ofScientific_fraction`: A decimal is read as the number
  that it rounds to.
* `ofText_toText`: The text of a finite number without a minus sign stands for
  that number.
-/

namespace Scriptlet

namespace Number

open Float.Model Float.Model.UnpackedFloat
open Decimal (quartersBelow pow_toNat near_shortest)

/-! ### Exact quantities -/

/-- Whether a number is exactly `n`, and fills all places of its significand. -/
def isExactly (n : ℕ) : UnpackedFloat → Bool
  | .finite .positive m e _ => 2 ^ 52 ≤ m ∧ m * 2 ^ e.toNat = n * 2 ^ (-e).toNat
  | _ => false

theorem isExactly_finite {n m : ℕ} {e : ℤ} {hm : 0 < m} :
    isExactly n (.finite .positive m e hm) = true ↔ 2 ^ 52 ≤ m ∧ (m : ℚ) * 2 ^ e = n := by
  have hpow := pow_toNat (two_ne_zero : (2 : ℚ) ≠ 0) e
  have hne : (2 : ℚ) ^ (-e).toNat ≠ 0 := by positivity
  -- One of the two powers is one, and the other is moved across.
  have hvalue : m * 2 ^ e.toNat = n * 2 ^ (-e).toNat ↔ (m : ℚ) * 2 ^ e = n := by
    rw [← Nat.cast_inj (R := ℚ)]
    push_cast
    rw [hpow, ← mul_assoc, mul_left_inj' hne]
  change decide (2 ^ 52 ≤ m ∧ m * 2 ^ e.toNat = n * 2 ^ (-e).toNat) = true ↔ _
  rw [decide_eq_true_eq, hvalue]

theorem exists_of_isExactly {n : ℕ} {f : UnpackedFloat} (h : isExactly n f = true) :
    ∃ m e hm, f = .finite .positive m e hm ∧ 2 ^ 52 ≤ m ∧ (m : ℚ) * 2 ^ e = n := by
  rcases f with _ | _ | _ | ⟨_ | _, m, e, hm⟩
  · cases h
  · cases h
  · cases h
  · cases h
  · exact ⟨m, e, hm, rfl, isExactly_finite.mp h⟩

section Exact

variable {m : ℕ} {e : ℤ} {q : ℚ}

theorem near_self (m : ℕ) (e : ℤ) : Near m e ((m : ℚ) * 2 ^ e) := by
  have hpos := two_zpow_pos e
  have hquarters : (0 : ℚ) < quartersBelow m e := by
    rw [Decimal.quartersBelow]
    split <;> norm_num
  have hlow : ((m : ℚ) - quartersBelow m e / 4) * 2 ^ e < m * 2 ^ e :=
    mul_lt_mul_of_pos_right (by linarith) hpos
  have hhigh : (m : ℚ) * 2 ^ e < (m + 1 / 2) * 2 ^ e :=
    mul_lt_mul_of_pos_right (by linarith) hpos
  exact ⟨hlow.le, hhigh.le, fun _ => ⟨hlow, hhigh⟩⟩

theorem ofNat_eq_round {n : ℕ} (hpos : 0 < n) :
    UnpackedFloat.ofNat .binary64 n = round .binary64 .positive n 0 := by
  have hcompare : compare (n : ℤ) 0 = .gt := Int.compare_eq_gt.mpr (by omega)
  simp only [UnpackedFloat.ofNat, UnpackedFloat.ofInt, UnpackedFloat.normalize, hcompare,
    Int.toNat_natCast]

/-- A natural number with its leading one moved up to the first place. -/
theorem double_of_log2 {n s : ℕ} (hpos : 0 < n) (hs : n.log2 + s = 52) :
    2 ^ 52 ≤ n * 2 ^ s ∧ Double (n * 2 ^ s) (-s) := by
  have hbounds := (Nat.log2_eq_iff hpos.ne').mp rfl
  have hfull : 2 ^ 52 ≤ n * 2 ^ s := by
    rw [← hs, Nat.pow_add]
    exact Nat.mul_le_mul_right _ hbounds.1
  have hfits : n * 2 ^ s < 2 ^ 53 := by
    have hplaces : n.log2 + 1 + s = 53 := by omega
    rw [← hplaces, Nat.pow_add]
    exact Nat.mul_lt_mul_of_pos_right hbounds.2 (Nat.two_pow_pos s)
  exact ⟨hfull, by omega, hfits, by omega, by omega, fun hlt => by omega⟩

theorem shifted_eq (n s : ℕ) : ((n * 2 ^ s : ℕ) : ℚ) * 2 ^ (-s : ℤ) = n := by
  push_cast
  rw [zpow_neg, zpow_natCast, mul_assoc, mul_inv_cancel₀ (by positivity), mul_one]

/-- A natural number that fits into the significand is moved up to fill it, and
    nothing is rounded. -/
theorem ofNat_eq_finite {n s : ℕ} (hpos : 0 < n) (hs : n.log2 + s = 52)
    (hd : Double (n * 2 ^ s) (-s)) :
    UnpackedFloat.ofNat .binary64 n = .finite .positive (n * 2 ^ s) (-s) hd.pos := by
  have htarget : Format.binary64.targetExponent (totalExponent n 0) = -s := by
    rw [targetExponent_eq, totalExponent]
    omega
  have hnear : Near (n * 2 ^ s) (-s) n := shifted_eq n s ▸ near_self (n * 2 ^ s) (-s)
  have hstands : Stands (.ofMantissaAndAccuracy (n * 2 ^ s) .exact) ((n : ℚ) / 2 ^ (-s : ℤ)) := by
    rw [← shifted_eq n s, mul_div_assoc, div_self (two_zpow_pos _).ne', mul_one]
    exact sub_self _
  have hshift : decreaseExponent n 0 (-s) = (n * 2 ^ s, -(s : ℤ)) := by
    have hamount : (0 - -(s : ℤ)).toNat = s := by omega
    rw [decreaseExponent, hamount, Nat.shiftLeft_eq, Int.zero_sub]
  rw [ofNat_eq_round hpos, UnpackedFloat.round, htarget, hshift]
  refine roundWithAccuracy_of_near .positive hd hnear hstands ?_
  rw [hd.targetExponent]

theorem isExactly_ofNat {n : ℕ} (hpos : 0 < n) (hlt : n < 2 ^ 53) :
    isExactly n n.toUInt64.toFloat.toModel.unpack = true := by
  have hlog : n.log2 < 53 := (Nat.log2_lt hpos.ne').mpr hlt
  obtain ⟨s, hs⟩ : ∃ s : ℕ, n.log2 + s = 52 := ⟨52 - n.log2, by omega⟩
  rcases double_of_log2 hpos hs with ⟨hfull, hd⟩
  -- The number fits into a machine word, so nothing is lost on the way.
  have hword : n.toUInt64.toNat = n := by
    rw [UInt64.toNat_ofNat', Nat.mod_eq_of_lt (by omega)]
  have hunpack : n.toUInt64.toFloat.toModel.unpack =
      (Float.Model.pack (UnpackedFloat.ofNat .binary64 n.toUInt64.toNat)).unpack := rfl
  rw [hunpack, hword, ofNat_eq_finite hpos hs hd, unpack_pack hd, isExactly_finite]
  exact ⟨hfull, shifted_eq n s⟩

theorem isExactly_power : ∀ k : Fin Float.exactlyRepresentablePowersOfTen.size,
    isExactly (10 ^ k.val) (Float.exactlyRepresentablePowersOfTen[k]).toModel.unpack = true := by
  decide +kernel

/-- The product of two exact quantities is the number that it rounds to. -/
theorem mul_eq_of_near {x y : Float} {a b : ℕ} (hx : isExactly a x.toModel.unpack = true)
    (hy : isExactly b y.toModel.unpack = true) (hd : Double m e) (hq : Near m e (a * b)) :
    x * y = Float.ofModel (Float.Model.pack (.finite .positive m e hd.pos)) := by
  rcases exists_of_isExactly hx with ⟨m₁, e₁, h₁, hx, hfull, ha⟩
  rcases exists_of_isExactly hy with ⟨m₂, e₂, h₂, hy, -, hb⟩
  have hproduct : x * y = Float.ofModel (Float.Model.pack
      (UnpackedFloat.mul .binary64 x.toModel.unpack y.toModel.unpack)) := rfl
  have hvalue : (a : ℚ) * b = ((m₁ * m₂ : ℕ) : ℚ) * 2 ^ (e₁ + e₂) := by
    rw [← ha, ← hb, zpow_add₀ two_ne_zero]
    push_cast
    ring
  rw [hproduct, hx, hy, mul_of_near h₁ h₂ hd (le_trans hfull (Nat.le_mul_of_pos_right _ h₂))
    (hvalue ▸ hq)]

/-- The quotient of two exact quantities is the number that it rounds to. -/
theorem div_eq_of_near {x y : Float} {a b : ℕ} (hx : isExactly a x.toModel.unpack = true)
    (hy : isExactly b y.toModel.unpack = true) (hd : Double m e) (hq : Near m e (a / b)) :
    x / y = Float.ofModel (Float.Model.pack (.finite .positive m e hd.pos)) := by
  rcases exists_of_isExactly hx with ⟨m₁, e₁, h₁, hx, -, ha⟩
  rcases exists_of_isExactly hy with ⟨m₂, e₂, h₂, hy, -, hb⟩
  have hquotient : x / y = Float.ofModel (Float.Model.pack
      (UnpackedFloat.div .binary64 x.toModel.unpack y.toModel.unpack)) := rfl
  rw [← ha, ← hb] at hq
  rw [hquotient, hx, hy, div_of_near h₁ h₂ hd hq]

end Exact

/-! ### Decimals -/

section Decimal

variable {m : ℕ} {e : ℤ} {q : ℚ}

/-- What rounds to a double is at least half of the least one. -/
theorem Near.half_least_le (hq : Near m e q) (hd : Double m e) :
    1 / 2 * (2 : ℚ) ^ (-1074 : ℤ) ≤ q := by
  have hquarters : (quartersBelow m e : ℚ) ≤ 2 := by exact_mod_cast quartersBelow_le m e
  have hm : (1 : ℚ) ≤ m := by exact_mod_cast hd.pos
  calc 1 / 2 * (2 : ℚ) ^ (-1074 : ℤ) ≤ 1 / 2 * 2 ^ e :=
        mul_le_mul_of_nonneg_left (zpow_le_zpow_right₀ one_le_two hd.least) (by norm_num)
    _ ≤ ((m : ℚ) - quartersBelow m e / 4) * 2 ^ e :=
        mul_le_mul_of_nonneg_right (by linarith) (two_zpow_pos e).le
    _ ≤ q := hq.low

theorem Near.pos (hq : Near m e q) (hd : Double m e) : 0 < q :=
  lt_of_lt_of_le (mul_pos (by norm_num) (two_zpow_pos _)) (hq.half_least_le hd)

/-- A row of digits is read as the number that it rounds to. -/
theorem ofScientific_whole {n : ℕ} (hd : Double m e) (hq : Near m e n) :
    Float.ofScientific n false 0 =
      Float.ofModel (Float.Model.pack (.finite .positive m e hd.pos)) := by
  have hn : 0 < n := by exact_mod_cast hq.pos hd
  unfold Float.ofScientific
  by_cases hshort : n < 2 ^ 53 ∧ 0 ≤ 22
  · rw [dif_pos hshort, if_neg Bool.false_ne_true]
    refine mul_eq_of_near (isExactly_ofNat hn hshort.1) (isExactly_power ⟨0, by decide⟩) hd ?_
    rwa [pow_zero, Nat.cast_one, mul_one]
  -- The long way, where the digits are moved up so that the product has places to cut off.
  · have hdigits : 0 < n <<< 53 := by
      rw [Nat.shiftLeft_eq]
      omega
    have hvalue : ((n <<< 53 * 10 ^ 0 : ℕ) : ℚ) * 2 ^ (-53 + 0 : ℤ) = n := by
      rw [Nat.shiftLeft_eq, pow_zero, mul_one]
      push_cast
      rw [mul_assoc]
      norm_num
    have hfull : 2 ^ 52 ≤ n <<< 53 * 10 ^ 0 := by
      rw [Nat.shiftLeft_eq]
      omega
    have hproduct := mul_of_near hdigits (Nat.pow_pos (by decide)) hd hfull (hvalue.symm ▸ hq)
    have hscaled : UnpackedFloat.ofScientific .binary64 n 0 = .finite .positive m e hd.pos := by
      rw [UnpackedFloat.ofScientific, dif_neg hn.ne', if_neg (by decide),
        if_neg (by simp only; omega), if_pos (Int.le_refl 0)]
      exact hproduct
    rw [dif_neg hshort, if_neg Bool.false_ne_true]
    exact congrArg (fun f => Float.ofModel (Float.Model.pack f)) hscaled

/-- A decimal that rounds to a double does not have more places than reading
    looks at. -/
theorem places_le {n k : ℕ} (hd : Double m e) (hq : Near m e (n / 10 ^ k)) :
    (k : ℤ) ≤ 2048 + n.log2 := by
  have hdigits : (n : ℚ) < 2 ^ (n.log2 + 1) := by exact_mod_cast Nat.lt_log2_self
  have hleast := hq.half_least_le hd
  rw [le_div_iff₀ (by positivity)] at hleast
  -- A crude bound on the power of ten is enough.
  have hpow : (2 : ℚ) ^ (3 * k : ℤ) ≤ 10 ^ k := by
    rw [zpow_mul, zpow_natCast]
    exact pow_le_pow_left₀ (by norm_num) (by norm_num) k
  have hplaces : (2 : ℚ) ^ (-1074 + 3 * k : ℤ) < 2 ^ (n.log2 + 1 + 1 : ℤ) := by
    calc (2 : ℚ) ^ (-1074 + 3 * k : ℤ) = 2 ^ (-1074 : ℤ) * 2 ^ (3 * k : ℤ) :=
          zpow_add₀ two_ne_zero _ _
      _ ≤ 2 ^ (-1074 : ℤ) * 10 ^ k := mul_le_mul_of_nonneg_left hpow (two_zpow_pos _).le
      _ ≤ 2 * n := by linarith
      _ < 2 * 2 ^ (n.log2 + 1) := by linarith
      _ = 2 ^ (n.log2 + 1 + 1 : ℤ) := by
          rw [zpow_add₀ two_ne_zero, zpow_one, mul_comm]
          norm_cast
  rw [zpow_lt_zpow_iff_right₀ one_lt_two] at hplaces
  omega

/-- A row of digits with a point in or before it is read as the number that it
    rounds to. -/
theorem ofScientific_fraction {n k : ℕ} (hk : 0 < k) (hd : Double m e)
    (hq : Near m e (n / 10 ^ k)) :
    Float.ofScientific n true k =
      Float.ofModel (Float.Model.pack (.finite .positive m e hd.pos)) := by
  have hn : 0 < n := by
    rcases Nat.eq_zero_or_pos n with rfl | hn
    · have hpos := hq.pos hd
      simp at hpos
    · exact hn
  unfold Float.ofScientific
  by_cases hshort : n < 2 ^ 53 ∧ k ≤ 22
  · have hsize : k < Float.exactlyRepresentablePowersOfTen.size := by
      simp [Float.exactlyRepresentablePowersOfTen]
      omega
    rw [dif_pos hshort, if_pos rfl]
    refine div_eq_of_near (isExactly_ofNat hn hshort.1) (isExactly_power ⟨k, hsize⟩) hd ?_
    rwa [Nat.cast_pow]
  -- The long way, a quotient of natural numbers. Neither guard against huge powers applies.
  · have hplaces := places_le hd hq
    have hvalue : ((n : ℚ) * 2 ^ (0 : ℤ)) / ((10 ^ (- -(k : ℤ)).toNat : ℕ) * 2 ^ (0 : ℤ)) =
        n / 10 ^ k := by
      rw [Int.neg_neg, Int.toNat_natCast]
      push_cast
      rw [mul_one, mul_one]
    have hscaled : UnpackedFloat.ofScientific .binary64 n (-k) =
        .finite .positive m e hd.pos := by
      rw [UnpackedFloat.ofScientific, dif_neg hn.ne', if_neg (by simp only; omega),
        if_neg (by simp only; omega), if_neg (by omega)]
      exact div_of_near hn _ hd (hvalue ▸ hq)
    rw [dif_neg hshort, if_pos rfl, Int.negOfNat_eq]
    exact congrArg (fun f => Float.ofModel (Float.Model.pack f)) hscaled

theorem numeralValue_of_near {whole fraction : List Char} (hd : Double m e)
    (hq : Near m e (Decimal.ofDigits (whole ++ fraction) / 10 ^ fraction.length)) :
    Scanner.numeralValue whole fraction =
      Float.ofModel (Float.Model.pack (.finite .positive m e hd.pos)) := by
  rw [Scanner.numeralValue, Decimal.toNumber, signed, if_neg Bool.false_ne_true]
  -- Without places behind the point the digits are read as a whole number.
  generalize fraction.length = k at hq
  cases k with
  | zero =>
      rw [pow_zero, div_one] at hq
      exact ofScientific_whole hd hq
  | succ k => exact ofScientific_fraction k.succ_pos hd hq

/-- The digits of a numeral for a decimal, with the point taken into account, are
    the decimal. -/
theorem Writes.quotient {d : Decimal} {whole fraction : List Char} (h : Writes d whole fraction) :
    (Decimal.ofDigits (whole ++ fraction) : ℚ) / 10 ^ fraction.length =
      d.digits * 10 ^ d.exponent := by
  have hten : (10 : ℚ) ≠ 0 := by norm_num
  rw [h.value, h.places, div_eq_iff (pow_ne_zero _ hten)]
  push_cast
  rw [pow_toNat hten d.exponent, mul_assoc]

/-- The text of a finite number without a minus sign stands for that number. -/
theorem ofText_toText {x : Float} (hplus : isPlus x.toModel.unpack = true)
    (hfinite : x.isFinite = true) : ofText (toText x) = x := by
  have hunpacked : x.toModel.unpack.isFinite = true := hfinite
  rcases isPlus_cases hplus with hx | hx | hx | ⟨m, e, hm, hx⟩
  · rw [hx] at hunpacked
    cases hunpacked
  · rw [hx] at hunpacked
    cases hunpacked
  -- There is one zero to write, and it is written by one digit.
  · rw [eq_zero_of_unpack hx]
    decide +kernel
  · have hd : Double m e := double_of_unpack hx
    rcases toText_of_finite hx with ⟨whole, fraction, hwrites, htext⟩
    -- What is written rounds to the number, so what is read is the number.
    have hnear := near_shortest .up false hd
    rw [← hwrites.quotient] at hnear
    rw [← String.ofList_toList (s := toText x), htext, ofText_numeral hwrites.digits,
      numeralValue_of_near hd hnear]
    exact pack_unpack hx

end Decimal

end Number

end Scriptlet
