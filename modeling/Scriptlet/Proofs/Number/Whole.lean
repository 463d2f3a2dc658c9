import Scriptlet.Proofs.Number.ReadBack

/-!
# Whole Numbers

A number that equals an integer is written in documents as that integer, and the
number nearest to the integer is read again. It is the same number, except that
the integer zero has no sign.

## Theorems

* `ofInt_of_integer?`: A number that equals an integer other than zero is the
  number nearest to it.
* `integer?_ofInt`: The number nearest to an integer that some number equals,
  equals it.
* `beq_of_integer?`: Numbers that equal the same integer are equal.
* `integer?_ofNat`: Below `2 ^ 53` a natural number is a number itself.
* `ofNat_ne_minus_one`: The number nearest to a natural number is not negative.
-/

namespace Scriptlet

namespace Number

open Float.Model Float.Model.UnpackedFloat

variable {m : ℕ} {e : ℤ} {x y : Float} {i : ℤ}

/-- Where there is nothing behind the point, the whole part is everything. -/
theorem magnitude_of_isWhole (h : isWhole m e = true) : (magnitude m e : ℚ) = m * 2 ^ e := by
  cases e with
  | ofNat k => simp [magnitude]
  | negSucc k =>
      have hmod : m % 2 ^ (k + 1) = 0 := by simpa [isWhole] using h
      obtain ⟨n, rfl⟩ := Nat.dvd_of_mod_eq_zero hmod
      rw [magnitude, Nat.mul_div_cancel_left n (Nat.two_pow_pos _), zpow_negSucc]
      push_cast
      field_simp

theorem magnitude_pos (hm : 0 < m) (h : isWhole m e = true) : 0 < magnitude m e := by
  have hpos : (0 : ℚ) < magnitude m e := by
    rw [magnitude_of_isWhole h]
    exact mul_pos (Nat.cast_pos.mpr hm) (two_zpow_pos e)
  exact_mod_cast hpos

theorem ofNat_magnitude (hd : Double m e) (h : isWhole m e = true) :
    ofNat (magnitude m e) = Float.ofModel (Float.Model.pack (.finite .positive m e hd.pos)) :=
  ofScientific_whole hd (magnitude_of_isWhole h ▸ near_self m e)

theorem neg_pack (hd : Double m e) :
    -Float.ofModel (Float.Model.pack (.finite .positive m e hd.pos)) =
      Float.ofModel (Float.Model.pack (.finite .negative m e hd.pos)) := by
  have hneg : -Float.ofModel (Float.Model.pack (.finite .positive m e hd.pos)) =
      Float.ofModel (Float.Model.pack
        (Float.Model.pack (.finite .positive m e hd.pos)).unpack.neg) := rfl
  rw [hneg, unpack_pack hd]
  rfl

/-- What a number that equals an integer is made of. -/
theorem integer?_cases (h : integer? x = some i) :
    i = 0 ∧ (∃ sign, x.toModel.unpack = .zero sign) ∨
      ∃ sign m e hm, x.toModel.unpack = .finite sign m e hm ∧ isWhole m e = true ∧
        i = if isMinus sign then -(magnitude m e : ℤ) else magnitude m e := by
  cases hx : x.toModel.unpack with
  | notANumber =>
      rw [integer?, parts, hx] at h
      cases h
  | infinity sign =>
      rw [integer?, parts, hx] at h
      cases h
  | zero sign =>
      rw [integer?, parts, hx] at h
      refine .inl ⟨?_, sign, rfl⟩
      cases sign <;> simpa [isWhole, magnitude, isMinus] using h.symm
  | finite sign m e hm =>
      rw [integer?, parts_of_finite hx] at h
      by_cases hwhole : isWhole m e = true
      · have hi := Option.some.inj ((if_pos hwhole).symm.trans h)
        exact .inr ⟨sign, m, e, hm, rfl, hwhole, hi.symm⟩
      · cases (if_neg hwhole).symm.trans h

/-- A number that equals an integer other than zero is the number nearest to it. -/
theorem ofInt_of_integer? (h : integer? x = some i) (hne : i ≠ 0) : ofInt i = x := by
  rcases integer?_cases h with ⟨rfl, _⟩ | ⟨sign, m, e, hm, hx, hwhole, rfl⟩
  · exact absurd rfl hne
  · have hd : Double m e := double_of_unpack hx
    have hpos := magnitude_pos hm hwhole
    cases sign with
    | positive =>
        have hsign : ¬ (magnitude m e : ℤ) < 0 := by omega
        simp only [isMinus, Bool.false_eq_true, if_false, ofInt, hsign, decide_false, signed,
          Int.natAbs_natCast]
        rw [ofNat_magnitude hd hwhole]
        exact pack_unpack hx
    | negative =>
        have hsign : -(magnitude m e : ℤ) < 0 := by omega
        simp only [isMinus, if_true, ofInt, hsign, decide_true, signed, Int.natAbs_neg,
          Int.natAbs_natCast]
        rw [ofNat_magnitude hd hwhole, neg_pack hd]
        exact pack_unpack hx

theorem unpack_of_integer?_zero (h : integer? x = some 0) :
    ∃ sign, x.toModel.unpack = .zero sign := by
  rcases integer?_cases h with ⟨_, hx⟩ | ⟨sign, m, e, hm, _, hwhole, hi⟩
  · exact hx
  · have hpos := magnitude_pos hm hwhole
    split at hi <;> omega

/-- The number nearest to an integer that some number equals, equals it. -/
theorem integer?_ofInt (h : integer? x = some i) : integer? (ofInt i) = some i := by
  by_cases hzero : i = 0
  · subst hzero
    decide +kernel
  · rw [ofInt_of_integer? h hzero, h]

theorem beq_self_of_isFinite (h : x.isFinite = true) : (x == x) = true := by
  have hfinite : x.toModel.unpack.isFinite = true := h
  have hbeq : (x == x) = x.toModel.unpack.beq x.toModel.unpack := rfl
  rw [hbeq]
  generalize x.toModel.unpack = f at hfinite ⊢
  rcases f with _ | _ | _ | ⟨_ | _, m, e, hm⟩
  · cases hfinite
  · cases hfinite
  · rfl
  · change (some ((compare e e).then (compare m m)).swap == some .eq) = true
    simp
  · change (some ((compare e e).then (compare m m)) == some .eq) = true
    simp

theorem isFinite_of_integer? (h : integer? x = some i) : x.isFinite = true := by
  have hfinite : x.isFinite = x.toModel.unpack.isFinite := rfl
  rcases integer?_cases h with ⟨_, _, hx⟩ | ⟨_, _, _, _, hx, _⟩
  · rw [hfinite, hx]
    rfl
  · rw [hfinite, hx]
    rfl

/-- Numbers that equal the same integer are equal, whatever sign a zero has. -/
theorem beq_of_integer? (hx : integer? x = some i) (hy : integer? y = some i) :
    (x == y) = true := by
  by_cases hzero : i = 0
  · subst hzero
    rcases unpack_of_integer?_zero hx with ⟨_, hx⟩
    rcases unpack_of_integer?_zero hy with ⟨_, hy⟩
    have hbeq : (x == y) = x.toModel.unpack.beq y.toModel.unpack := rfl
    rw [hbeq, hx, hy]
    rfl
  · rw [← ofInt_of_integer? hx hzero, ofInt_of_integer? hy hzero]
    exact beq_self_of_isFinite (isFinite_of_integer? hy)

/-! ### Natural numbers -/

theorem integer?_zero : integer? 0.0 = some 0 := rfl

theorem ofNat_zero : ofNat 0 = 0.0 := rfl

/-- Below `2 ^ 53` the number nearest to a natural number equals it. -/
theorem integer?_ofNat {n : ℕ} (h : n < 2 ^ 53) : integer? (ofNat n) = some (n : ℤ) := by
  by_cases hzero : n = 0
  · subst hzero
    rw [ofNat_zero]
    exact integer?_zero
  · have hpos : 0 < n := by omega
    have hlog : n.log2 < 53 := (Nat.log2_lt hzero).mpr h
    obtain ⟨s, hs⟩ : ∃ s : ℕ, n.log2 + s = 52 := ⟨52 - n.log2, by omega⟩
    rcases double_of_log2 hpos hs with ⟨_, hd⟩
    have hnear : Near (n * 2 ^ s) (-s) n := shifted_eq n s ▸ near_self (n * 2 ^ s) (-s)
    have hunpack : (ofNat n).toModel.unpack = .finite .positive (n * 2 ^ s) (-s) hd.pos := by
      rw [ofNat, ofScientific_whole hd hnear]
      exact unpack_pack hd
    -- The number is moved up to fill the significand, and the exponent moves it back.
    have hmoved : isWhole (n * 2 ^ s) (-s) = true ∧ magnitude (n * 2 ^ s) (-s) = n := by
      cases s with
      | zero => simp [isWhole, magnitude]
      | succ s =>
          have hneg : -((s + 1 : ℕ) : ℤ) = .negSucc s := rfl
          rw [hneg, isWhole, magnitude]
          simp
    rw [integer?, parts_of_finite hunpack]
    simp [hmoved.1, hmoved.2, isMinus]

/-- The number nearest to a natural number is not negative. -/
theorem ofNat_ne_minus_one (n : ℕ) : ofNat n ≠ -1.0 := by
  intro h
  have hplus := isPlus_ofScientific n false 0
  rw [← ofNat, h] at hplus
  exact Bool.false_ne_true hplus

end Number

end Scriptlet
