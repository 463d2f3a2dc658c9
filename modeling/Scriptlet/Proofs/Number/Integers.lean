import Scriptlet.Proofs.Number.Whole

/-!
# Arithmetic of Whole Numbers

Numbers that equal integers are added, compared and turned into machine words
as the integers are, as long as the outcome is small enough to be a number. A
sum that is too far below zero is rounded, but it keeps its minus sign, and
every number with a minus sign becomes the machine word zero.

## Main definitions

* `Number.whole`: The part of a number in front of the point.

## Theorems

* `le_iff_of_integer?`: Numbers that equal natural numbers are ordered as these are.
* `lt_zero_iff_of_integer?`: A number is negative where its integer is.
* `add_eq_ofNat`: A sum that is a natural number below `2 ^ 53` is exact.
* `toUInt64_add_of_neg`: A sum below zero becomes the machine word zero.
* `toUInt64_of_integer?`: A natural number becomes the machine word of it.
* `integer?_whole`: What stands in front of the point is an integer.
-/

namespace Scriptlet

namespace Number

open Float.Model Float.Model.UnpackedFloat

variable {x y : Float} {i j : ℤ} {m m₁ m₂ : ℕ} {e e₁ e₂ : ℤ}

/-- A number that equals an integer other than zero, as a quantity. -/
theorem unpack_of_integer? (h : integer? x = some i) (hne : i ≠ 0) :
    ∃ sign m e hm, x.toModel.unpack = .finite sign m e hm ∧ Double m e ∧
      ((sign.apply m : ℤ) : ℚ) * 2 ^ e = i := by
  rcases integer?_cases h with ⟨rfl, _⟩ | ⟨sign, m, e, hm, hx, hwhole, rfl⟩
  · exact absurd rfl hne
  · refine ⟨sign, m, e, hm, hx, double_of_unpack hx, ?_⟩
    have hvalue := magnitude_of_isWhole hwhole
    cases sign with
    | positive => simp [Sign.apply, isMinus, hvalue]
    | negative => simp [Sign.apply, isMinus, hvalue]

/-- A number that equals a natural number other than zero has no minus sign. -/
theorem unpack_of_integer?_natCast {n : ℕ} (h : integer? x = some (n : ℤ)) (hne : n ≠ 0) :
    ∃ m e hm, x.toModel.unpack = .finite .positive m e hm ∧ Double m e ∧ (m : ℚ) * 2 ^ e = n := by
  rcases unpack_of_integer? h (by omega) with ⟨sign, m, e, hm, hx, hd, hvalue⟩
  cases sign with
  | positive => exact ⟨m, e, hm, hx, hd, by simpa [Sign.apply] using hvalue⟩
  | negative =>
      have hneg : -((m : ℚ) * 2 ^ e) = n := by simpa [Sign.apply] using hvalue
      have hpos : (0 : ℚ) < m * 2 ^ e := mul_pos (Nat.cast_pos.mpr hm) (two_zpow_pos e)
      have hn : (0 : ℚ) ≤ n := Nat.cast_nonneg n
      linarith

/-! ### Order -/

theorem le_iff_unpack : x ≤ y ↔ x.toModel.unpack.le y.toModel.unpack = true := by
  have hle : (x ≤ y) = (decide (x.toModel ≤ y.toModel) = true) := rfl
  have hmodel : (x.toModel ≤ y.toModel) = (x.toModel.unpack.le y.toModel.unpack = true) := rfl
  rw [hle, decide_eq_true_iff, hmodel]

theorem lt_zero_iff_unpack : x < 0.0 ↔ x.toModel.unpack.lt (.zero .positive) = true := by
  simp only [LT.lt, Float.lt, Float.Model.lt, unpack_zero, decide_eq_true_eq]

/-- A double with a larger exponent is larger: its significand has no leading zeros. -/
theorem Double.lt_of_exponent_lt (h₁ : Double m₁ e₁) (h₂ : Double m₂ e₂) (h : e₁ < e₂) :
    (m₁ : ℚ) * 2 ^ e₁ < m₂ * 2 ^ e₂ := by
  have hfull : 2 ^ 52 ≤ m₂ := by
    by_contra hlt
    have hleast := h₂.full (by omega)
    have := h₁.least
    omega
  have hfirst : (m₁ : ℚ) < 2 ^ 53 := by exact_mod_cast h₁.lt
  have hsecond : (2 : ℚ) ^ 52 ≤ m₂ := by exact_mod_cast hfull
  calc (m₁ : ℚ) * 2 ^ e₁ < 2 ^ 53 * 2 ^ e₁ := mul_lt_mul_of_pos_right hfirst (two_zpow_pos e₁)
    _ = 2 ^ (e₁ + 53) := (zpow_add_natCast e₁ 53).symm
    _ ≤ 2 ^ (e₂ + 52) := (zpow_le_zpow_iff_right₀ one_lt_two).mpr (by omega)
    _ = 2 ^ 52 * 2 ^ e₂ := zpow_add_natCast e₂ 52
    _ ≤ m₂ * 2 ^ e₂ := mul_le_mul_of_nonneg_right hsecond (two_zpow_pos e₂).le

/-- Doubles are compared by their exponents first and by their significands then, and that is the
    order of the quantities. -/
theorem Double.isLE_compare_iff (h₁ : Double m₁ e₁) (h₂ : Double m₂ e₂) :
    ((compare e₁ e₂).then (compare m₁ m₂)).isLE = true ↔ (m₁ : ℚ) * 2 ^ e₁ ≤ m₂ * 2 ^ e₂ := by
  rcases lt_trichotomy e₁ e₂ with hlt | rfl | hgt
  · rw [Int.compare_eq_lt.mpr hlt]
    exact iff_of_true rfl (h₁.lt_of_exponent_lt h₂ hlt).le
  · rw [Int.compare_eq_eq.mpr rfl, Ordering.eq_then, Nat.isLE_compare,
      mul_le_mul_iff_left₀ (two_zpow_pos e₁), Nat.cast_le]
  · rw [Int.compare_eq_gt.mpr hgt]
    exact iff_of_false (by simp) (h₂.lt_of_exponent_lt h₁ hgt).not_ge

/-- Numbers that equal natural numbers are ordered as these are. -/
theorem le_iff_of_integer? {a b : ℕ} (hx : integer? x = some (a : ℤ))
    (hy : integer? y = some (b : ℤ)) : x ≤ y ↔ a ≤ b := by
  rw [le_iff_unpack]
  by_cases ha : a = 0
  · subst ha
    rcases unpack_of_integer?_zero hx with ⟨_, hx⟩
    refine iff_of_true ?_ (Nat.zero_le b)
    by_cases hb : b = 0
    · subst hb
      rcases unpack_of_integer?_zero hy with ⟨_, hy⟩
      rw [hx, hy]
      rfl
    · rcases unpack_of_integer?_natCast hy hb with ⟨_, _, _, hy, _, _⟩
      rw [hx, hy]
      rfl
  · rcases unpack_of_integer?_natCast hx ha with ⟨m₁, e₁, _, hx, hd₁, hvalue₁⟩
    by_cases hb : b = 0
    · subst hb
      rcases unpack_of_integer?_zero hy with ⟨_, hy⟩
      rw [hx, hy]
      exact iff_of_false Bool.false_ne_true (by omega)
    · rcases unpack_of_integer?_natCast hy hb with ⟨m₂, e₂, _, hy, hd₂, hvalue₂⟩
      rw [hx, hy]
      exact (hd₁.isLE_compare_iff hd₂).trans (by rw [hvalue₁, hvalue₂, Nat.cast_le])

/-- A number that equals an integer is negative where the integer is. -/
theorem lt_zero_iff_of_integer? (h : integer? x = some i) : x < 0.0 ↔ i < 0 := by
  rw [lt_zero_iff_unpack]
  rcases integer?_cases h with ⟨rfl, _, hx⟩ | ⟨sign, m, e, hm, hx, hwhole, rfl⟩
  · rw [hx]
    exact iff_of_false Bool.false_ne_true (by omega)
  · have hpos := magnitude_pos hm hwhole
    rw [hx]
    cases sign with
    | positive =>
        refine iff_of_false Bool.false_ne_true ?_
        simp [isMinus]
    | negative =>
        refine iff_of_true rfl ?_
        simpa [isMinus] using hpos

/-! ### Sums -/

/-- Moving the exponent down moves the significand up. -/
theorem raised_eq (m n : ℕ) (e : ℤ) : ((m * 2 ^ n : ℕ) : ℚ) * 2 ^ (e - n) = m * 2 ^ e := by
  have hpow := zpow_add_natCast (e - n) n
  rw [Int.sub_add_cancel] at hpow
  rw [hpow]
  push_cast
  ring

/-- A significand that is moved up loses nothing. -/
theorem stands_raised (m n : ℕ) (e : ℤ) :
    Stands (.ofMantissaAndAccuracy (m * 2 ^ n) .exact) ((m : ℚ) * 2 ^ e / 2 ^ (e - n)) := by
  rw [← raised_eq m n e, mul_div_assoc, div_self (two_zpow_pos _).ne', mul_one]
  exact sub_self _

theorem decreaseExponent_value (m : ℕ) {e t : ℤ} (h : t ≤ e) :
    ((decreaseExponent m e t).1 : ℚ) * 2 ^ t = m * 2 ^ e := by
  obtain ⟨n, hn⟩ : ∃ n : ℕ, (e - t).toNat = n := ⟨_, rfl⟩
  have ht : e - n = t := by omega
  rw [decreaseExponent, hn, ← raised_eq m n e, ht]
  simp only [Nat.shiftLeft_eq]

theorem apply_decreaseExponent_value (sign : Sign) (m : ℕ) {e t : ℤ} (h : t ≤ e) :
    ((sign.apply (decreaseExponent m e t).1 : ℤ) : ℚ) * 2 ^ t = (sign.apply m : ℤ) * 2 ^ e := by
  have hvalue := decreaseExponent_value m h
  cases sign with
  | positive => simpa [Sign.apply] using hvalue
  | negative => simpa [Sign.apply] using hvalue

theorem add_eq_pack (x y : Float) :
    x + y = Float.ofModel (Float.Model.pack
      (add .binary64 x.toModel.unpack y.toModel.unpack)) := rfl

/-- A sum of finite numbers is what the sum of the quantities is rounded to. -/
theorem add_finite (s₁ s₂ : Sign) (e₁ e₂ : ℤ) (h₁ : 0 < m₁) (h₂ : 0 < m₂) :
    ∃ M E, add .binary64 (.finite s₁ m₁ e₁ h₁) (.finite s₂ m₂ e₂ h₂) =
        normalize .binary64 M E .positive ∧
      (M : ℚ) * 2 ^ E = (s₁.apply m₁ : ℤ) * 2 ^ e₁ + (s₂.apply m₂ : ℤ) * 2 ^ e₂ := by
  refine ⟨s₁.apply (decreaseExponent m₁ e₁ (min e₁ e₂)).1 +
    s₂.apply (decreaseExponent m₂ e₂ (min e₁ e₂)).1, min e₁ e₂, rfl, ?_⟩
  rw [Int.cast_add, add_mul, apply_decreaseExponent_value s₁ m₁ (min_le_left e₁ e₂),
    apply_decreaseExponent_value s₂ m₂ (min_le_right e₁ e₂)]

/-- A quantity that is a double is not changed by rounding. -/
theorem round_of_eq (sign : Sign) {M : ℕ} {E : ℤ} (hM : 0 < M) (hd : Double m e)
    (hvalue : (M : ℚ) * 2 ^ E = m * 2 ^ e) :
    round .binary64 sign M E = .finite sign m e hd.pos := by
  rw [UnpackedFloat.round]
  generalize ht : Format.binary64.targetExponent (totalExponent M E) = t
  obtain ⟨n, hn⟩ : ∃ n : ℕ, (E - t).toNat = n := ⟨_, rfl⟩
  have hstands := stands_raised M n E
  rw [hvalue] at hstands
  -- Moving the significand up does not move its leading one.
  have hlog : (M * 2 ^ n).log2 = M.log2 + n := by
    rw [Nat.log2_eq_iff (Nat.mul_pos hM (Nat.two_pow_pos n)).ne']
    have hbounds := (Nat.log2_eq_iff hM.ne').mp rfl
    refine ⟨?_, ?_⟩
    · rw [Nat.pow_add]
      exact Nat.mul_le_mul_right _ hbounds.1
    · rw [Nat.add_right_comm, Nat.pow_add]
      exact Nat.mul_lt_mul_of_pos_right hbounds.2 (Nat.two_pow_pos n)
  have hbits : E - n ≤ Format.binary64.targetExponent (totalExponent (M * 2 ^ n) (E - n)) := by
    rw [targetExponent_eq, totalExponent] at ht ⊢
    rw [hlog]
    push_cast
    omega
  rw [decreaseExponent, hn, Nat.shiftLeft_eq]
  exact roundWithAccuracy_of_near sign hd (near_self m e) hstands hbits

/-- A sum that is a natural number below `2 ^ 53` is exact. -/
theorem add_eq_ofNat {n : ℕ} (hx : integer? x = some i) (hy : integer? y = some j) (hi : i ≠ 0)
    (hj : j ≠ 0) (hn : n < 2 ^ 53) (hsum : i + j = n) : x + y = ofNat n := by
  rcases unpack_of_integer? hx hi with ⟨s₁, m₁, e₁, h₁, hx, _, hvalue₁⟩
  rcases unpack_of_integer? hy hj with ⟨s₂, m₂, e₂, h₂, hy, _, hvalue₂⟩
  rcases add_finite s₁ s₂ e₁ e₂ h₁ h₂ with ⟨M, E, hadd, hvalue⟩
  have hquantity : (M : ℚ) * 2 ^ E = n := by
    rw [hvalue, hvalue₁, hvalue₂]
    exact_mod_cast hsum
  rw [add_eq_pack, hx, hy, hadd]
  by_cases hzero : n = 0
  · subst hzero
    have hM : M = 0 := by
      rcases mul_eq_zero.mp (hquantity.trans Nat.cast_zero) with h | h
      · exact_mod_cast h
      · exact absurd h (two_zpow_pos E).ne'
    have hnormal : normalize .binary64 M E .positive = .zero .positive := by
      rw [hM, UnpackedFloat.normalize, Int.compare_eq_eq.mpr rfl]
    rw [hnormal, ofNat_zero]
    rfl
  · have hM : 0 < M := by
      have hpos : (0 : ℚ) < M * 2 ^ E := by
        rw [hquantity]
        exact_mod_cast Nat.pos_of_ne_zero hzero
      exact_mod_cast pos_of_mul_pos_left hpos (two_zpow_pos E).le
    have hlog : n.log2 < 53 := (Nat.log2_lt hzero).mpr hn
    obtain ⟨s, hs⟩ : ∃ s : ℕ, n.log2 + s = 52 := ⟨52 - n.log2, by omega⟩
    rcases double_of_log2 (Nat.pos_of_ne_zero hzero) hs with ⟨_, hd⟩
    have hround : normalize .binary64 M E .positive =
        .finite .positive (n * 2 ^ s) (-s) hd.pos := by
      rw [UnpackedFloat.normalize, Int.compare_eq_gt.mpr hM]
      refine round_of_eq .positive (by omega) hd ?_
      have hcast : ((M.toNat : ℕ) : ℚ) = M := by exact_mod_cast Int.toNat_of_nonneg hM.le
      rw [hcast, hquantity, shifted_eq]
    have hnear : Near (n * 2 ^ s) (-s) n := shifted_eq n s ▸ near_self (n * 2 ^ s) (-s)
    rw [hround, ofNat, ofScientific_whole hd hnear]

/-! ### Machine words -/

/-- What is left of a number behind the point is cut off on the way to an integer. -/
theorem roundToInt_of_isWhole (sign : Sign) (h : isWhole m e = true) :
    roundToInt sign m e = sign.apply (magnitude m e) := by
  obtain ⟨n, hn⟩ : ∃ n : ℕ, (e - 0).toNat = n := ⟨_, rfl⟩
  have hstands := stands_raised m n e
  rw [← magnitude_of_isWhole h] at hstands
  have hfloor := (stands_shiftToExponent (T := 0) hstands (by omega)).1.floor
  rw [zpow_zero, div_one] at hfloor
  have hmantissa : (shiftToExponent (m * 2 ^ n) (e - n) .exact 0).1.mantissa = magnitude m e := by
    have hle : (shiftToExponent (m * 2 ^ n) (e - n) .exact 0).1.mantissa ≤ magnitude m e := by
      exact_mod_cast hfloor.1
    have hlt : magnitude m e < (shiftToExponent (m * 2 ^ n) (e - n) .exact 0).1.mantissa + 1 := by
      exact_mod_cast hfloor.2
    omega
  simp only [roundToInt, decreaseExponent, hn, Nat.shiftLeft_eq, hmantissa]

theorem toUInt64_eq (x : Float) :
    x.toUInt64 = .ofNatClamp (x.toModel.unpack.toInt 0 (UInt64.size - 1)).toNat := rfl

theorem toInt_finite (sign : Sign) (hm : 0 < m) (low high : ℤ) :
    (UnpackedFloat.finite sign m e hm).toInt low high = roundToInt sign m e := rfl

/-- A natural number becomes the machine word of it. -/
theorem toUInt64_of_integer? {n : ℕ} (h : integer? x = some (n : ℤ)) (hn : n < 2 ^ 64) :
    x.toUInt64.toNat = n := by
  have hint : x.toModel.unpack.toInt 0 (UInt64.size - 1) = n := by
    rcases integer?_cases h with ⟨hzero, _, hx⟩ | ⟨sign, m, e, hm, hx, hwhole, hvalue⟩
    · rw [hx, hzero]
      rfl
    · rw [hx, toInt_finite, roundToInt_of_isWhole sign hwhole, hvalue]
      cases sign <;> rfl
  have hsize : n < UInt64.size := hn
  rw [toUInt64_eq, hint, Int.toNat_natCast, UInt64.ofNatClamp, dif_pos hsize]
  exact UInt64.toNat_ofNatLT

/-- What is packed with the minus sign in the first bit becomes the machine word zero. -/
theorem toUInt64_pack_of_minus {f : UnpackedFloat}
    (h : unpackSign (UnpackedFloat.pack .binary64 f) = 1#1) :
    (Float.ofModel (Float.Model.pack f)).toUInt64.toNat = 0 := by
  have hunpack : (Float.ofModel (Float.Model.pack f)).toModel.unpack =
      UnpackedFloat.unpack .binary64 (UnpackedFloat.pack .binary64 f) := rfl
  have hsign : Sign.ofBitVec (unpackSign (UnpackedFloat.pack .binary64 f)) = .negative := by
    rw [h]
    rfl
  have hint : ((UnpackedFloat.unpack .binary64 (UnpackedFloat.pack .binary64 f)).toInt 0
      (UInt64.size - 1)).toNat = 0 := by
    rcases unpack_signed hsign with hb | hb | hb | ⟨m, e, hm, hb⟩
    · rw [hb]
      rfl
    · rw [hb]
      rfl
    · rw [hb]
      rfl
    · rw [hb, toInt_finite]
      simp [roundToInt, Sign.apply]
  rw [toUInt64_eq, hunpack, hint]
  rfl

/-- Rounding a quantity below zero keeps the minus sign, even where zero is left of it. -/
theorem unpackSign_round (M : ℕ) (E : ℤ) :
    unpackSign (UnpackedFloat.pack .binary64 (round .binary64 .negative M E)) = 1#1 := by
  delta UnpackedFloat.round
  dsimp only
  rcases roundWithAccuracy_cases .negative _ _ .exact with h | ⟨_, _, _, h⟩ <;> rw [h]
  · exact unpackSign_packComponents
  · exact unpackSign_pack_finite .negative _ _ _

/-- A sum below zero becomes the machine word zero, however it is rounded. -/
theorem toUInt64_add_of_neg (hx : integer? x = some i) (hy : integer? y = some j) (hj : j < 0)
    (hsum : i + j < 0) : (x + y).toUInt64.toNat = 0 := by
  rw [add_eq_pack]
  refine toUInt64_pack_of_minus ?_
  rcases unpack_of_integer? hy hj.ne with ⟨s₂, m₂, e₂, h₂, hy, _, hvalue₂⟩
  by_cases hi : i = 0
  · subst hi
    rcases unpack_of_integer?_zero hx with ⟨_, hx⟩
    have hsign : s₂ = .negative := by
      cases s₂ with
      | negative => rfl
      | positive =>
          have hpos : (0 : ℚ) < m₂ * 2 ^ e₂ := mul_pos (Nat.cast_pos.mpr h₂) (two_zpow_pos e₂)
          have hvalue : (m₂ : ℚ) * 2 ^ e₂ = j := by simpa [Sign.apply] using hvalue₂
          have hneg : (j : ℚ) < 0 := by exact_mod_cast hj
          linarith
    subst hsign
    rw [hx, hy]
    exact unpackSign_pack_finite .negative m₂ e₂ h₂
  · rcases unpack_of_integer? hx hi with ⟨s₁, m₁, e₁, h₁, hx, _, hvalue₁⟩
    rcases add_finite s₁ s₂ e₁ e₂ h₁ h₂ with ⟨M, E, hnormal, hvalue⟩
    have hM : M < 0 := by
      have hneg : (M : ℚ) * 2 ^ E < 0 := by
        rw [hvalue, hvalue₁, hvalue₂]
        exact_mod_cast hsum
      have hneg' := neg_of_mul_neg_left hneg (two_zpow_pos E).le
      exact_mod_cast hneg'
    rw [hx, hy, hnormal, UnpackedFloat.normalize, Int.compare_eq_lt.mpr hM]
    exact unpackSign_round _ _

/-- A number that equals an integer changes nothing about an infinite one. -/
theorem toUInt64_add_of_infinite (hx : integer? x = some i)
    (hy : y.toModel.unpack = .infinity .negative) : (x + y).toUInt64.toNat = 0 := by
  rw [add_eq_pack]
  refine toUInt64_pack_of_minus ?_
  rcases integer?_cases hx with ⟨_, _, hx⟩ | ⟨_, _, _, _, hx, _⟩
  · rw [hx, hy]
    exact unpackSign_packComponents
  · rw [hx, hy]
    exact unpackSign_packComponents

/-! ### The part in front of the point -/

/-- The part of a number in front of the point, with the sign of the number. -/
def whole (x : Float) : Float :=
  match parts x with
  | .finite negative significand exponent =>
    signed negative (ofNat (magnitude significand exponent))
  | _ => x

theorem integer?_neg (h : integer? x = some i) : integer? (-x) = some (-i) := by
  have hneg : (-x).toModel.unpack = (Float.Model.pack x.toModel.unpack.neg).unpack := rfl
  rcases integer?_cases h with ⟨rfl, sign, hx⟩ | ⟨sign, m, e, hm, hx, hwhole, rfl⟩
  · rw [hx] at hneg
    have hunpack : (-x).toModel.unpack = .zero (-sign) := by
      rw [hneg]
      cases sign <;> rfl
    rw [integer?, parts, hunpack]
    cases sign <;> rfl
  · have hunpack : (-x).toModel.unpack = .finite (-sign) m e hm := by
      rw [hneg, hx]
      exact unpack_pack_signed (-sign) (double_of_unpack hx)
    rw [integer?, parts_of_finite hunpack]
    cases sign <;> simp [hwhole, isMinus]

/-- The whole part of a double is a double. -/
theorem integer?_magnitude (hd : Double m e) :
    integer? (ofNat (magnitude m e)) = some (magnitude m e : ℤ) := by
  cases e with
  | ofNat k =>
      -- Nothing stands behind the point, so the number is what it was.
      have hunpack : (ofNat (magnitude m (.ofNat k))).toModel.unpack =
          .finite .positive m (.ofNat k) hd.pos := by
        rw [ofNat_magnitude hd rfl]
        exact unpack_pack hd
      rw [integer?, parts_of_finite hunpack]
      rfl
  | negSucc k =>
      refine integer?_ofNat (lt_of_le_of_lt ?_ hd.lt)
      exact Nat.div_le_self m (2 ^ (k + 1))

/-- What stands in front of the point is an integer. -/
theorem integer?_whole {negative : Bool} (h : parts x = .finite negative m e) :
    integer? (whole x) =
      some (if negative then -(magnitude m e : ℤ) else magnitude m e) := by
  have hmagnitude : integer? (ofNat (magnitude m e)) = some (magnitude m e : ℤ) := by
    cases hx : x.toModel.unpack with
    | notANumber =>
        rw [parts, hx] at h
        cases h
    | infinity sign =>
        rw [parts, hx] at h
        cases h
    | zero sign =>
        rw [parts, hx] at h
        cases h
        exact integer?_ofNat (Nat.two_pow_pos 53)
    | finite sign m' e' hm =>
        rw [parts_of_finite hx] at h
        cases h
        exact integer?_magnitude (double_of_unpack hx)
  rw [whole, h]
  cases negative with
  | false => exact hmagnitude
  | true => exact integer?_neg hmagnitude

end Number

end Scriptlet
