import Scriptlet.Proofs.Number.Numeral
import Scriptlet.Proofs.Number.Rounding

/-!
# Packing Doubles

A double in memory is a sign, a biased exponent and a significand without its
leading one. Packing and unpacking are inverse to each other, so a number can be
recovered from its sign, its significand and its exponent, and arithmetic that
goes through memory loses nothing.

## Theorems

* `packComponents_unpack`: A pattern of bits is put together from its parts.
* `double_of_unpack`: What is unpacked from memory is a double.
* `pack_unpack`: A number is recovered from its sign, significand and exponent.
* `eq_zero_of_unpack`: There is only one zero without a minus sign.
* `unpack_packed_least`, `unpack_packed_leading`: The two ways in which it is kept there.
* `unpack_pack_signed`: A sign, a significand and an exponent are recovered from memory.
-/

namespace Scriptlet

namespace Number

open Float.Model Float.Model.UnpackedFloat

/-- A pattern of bits is put together from its parts. -/
theorem packComponents_unpack {spec : Float.Model.Format} {b : BitVec spec.numBits} {sign : Sign}
    (hsign : unpackSign b = sign.toBitVec) :
    packComponents spec sign (unpackExponent b) (unpackMantissa b) = b := by
  rw [packComponents, ← hsign]
  ext i hi
  -- Bit by bit, each is taken from the part that it was put into.
  have hbit : ∀ {j : ℕ}, j = i → b.getLsbD j = b[i] := by
    rintro j rfl
    exact BitVec.getLsbD_eq_getElem hi
  delta unpackSign
  simp only [unpackExponent, unpackMantissa, BitVec.getElem_append, BitVec.getElem_cast]
  split
  · simpa using hbit rfl
  · split
    · simpa using hbit (by omega)
    · simpa using hbit (by omega)

/-- The significand with its leading one. -/
theorem toNat_leading (v : BitVec 52) : (1#1 ++ v).toNat = 2 ^ 52 + v.toNat := by
  rw [BitVec.toNat_append, ← Nat.shiftLeft_add_eq_or_of_lt v.isLt]
  rfl

theorem toBitVec_of_ofBitVec {v : BitVec 1} {sign : Sign} (h : Sign.ofBitVec v = sign) :
    v = sign.toBitVec := by
  subst h
  revert v
  decide

section Bits

variable {b : BitVec Format.binary64.numBits} {sign : Sign} {m : ℕ} {e : ℤ} {hm : 0 < m}

theorem finite_congr {sign' : Sign} {m' : ℕ} {e' : ℤ} {hm' : 0 < m'} (hsign : sign = sign')
    (hmantissa : m = m') (hexponent : e = e') :
    UnpackedFloat.finite sign m e hm = .finite sign' m' e' hm' := by
  subst hsign hmantissa hexponent
  rfl

/-- All ones in the exponent are infinity or no number. -/
theorem unpack_of_ones (h : unpackExponent b = -1#11) :
    UnpackedFloat.unpack .binary64 b = .infinity (.ofBitVec (unpackSign b)) ∨
      UnpackedFloat.unpack .binary64 b = .notANumber := by
  by_cases hmantissa : unpackMantissa b = 0#52
  · exact .inl ((if_pos h).trans (if_pos hmantissa))
  · exact .inr ((if_pos h).trans (if_neg hmantissa))

theorem unpack_of_zero (h : unpackExponent b = 0#11) (hmantissa : unpackMantissa b = 0#52) :
    UnpackedFloat.unpack .binary64 b = .zero (.ofBitVec (unpackSign b)) := by
  have hones : ¬ unpackExponent b = -1#11 := by
    rw [h]
    decide
  exact (if_neg hones).trans ((if_pos h).trans (dif_pos hmantissa))

/-- An exponent of zero in memory is the least one, without a leading one. -/
theorem unpack_of_least (h : unpackExponent b = 0#11) (hmantissa : ¬ unpackMantissa b = 0#52) :
    ∃ hm, UnpackedFloat.unpack .binary64 b =
      .finite (.ofBitVec (unpackSign b)) (unpackMantissa b).toNat (-1074) hm := by
  have hones : ¬ unpackExponent b = -1#11 := by
    rw [h]
    decide
  have hpos : 0 < (unpackMantissa b).toNat :=
    Nat.pos_of_ne_zero fun hzero => hmantissa (BitVec.eq_of_toNat_eq hzero)
  refine ⟨hpos, (if_neg hones).trans ((if_pos h).trans ((dif_neg hmantissa).trans ?_))⟩
  refine finite_congr rfl rfl ?_
  rw [h]
  rfl

theorem unpack_of_leading (hzero : ¬ unpackExponent b = 0#11) (hones : ¬ unpackExponent b = -1#11) :
    ∃ hm, UnpackedFloat.unpack .binary64 b =
      .finite (.ofBitVec (unpackSign b)) (2 ^ 52 + (unpackMantissa b).toNat)
        ((unpackExponent b).toNat - 1075) hm :=
  ⟨by omega, (if_neg hones).trans ((if_neg hzero).trans (finite_congr rfl (toNat_leading _) rfl))⟩

/-- The two ways in which a double is kept in memory: with the least exponent, or
    with a leading one that is left out. -/
theorem unpack_cases (h : UnpackedFloat.unpack .binary64 b = .finite sign m e hm) :
    unpackSign b = sign.toBitVec ∧
      (unpackExponent b = 0#11 ∧ m = (unpackMantissa b).toNat ∧ e = -1074 ∨
        unpackExponent b ≠ 0#11 ∧ unpackExponent b ≠ -1#11 ∧
          m = 2 ^ 52 + (unpackMantissa b).toNat ∧ e = (unpackExponent b).toNat - 1075) := by
  by_cases hones : unpackExponent b = -1#11
  · rcases unpack_of_ones hones with hb | hb <;> cases hb.symm.trans h
  by_cases hzero : unpackExponent b = 0#11
  · by_cases hmantissa : unpackMantissa b = 0#52
    · cases (unpack_of_zero hzero hmantissa).symm.trans h
    · rcases unpack_of_least hzero hmantissa with ⟨_, hb⟩
      injection hb.symm.trans h with hsign hm he
      exact ⟨toBitVec_of_ofBitVec hsign, .inl ⟨hzero, hm.symm, he.symm⟩⟩
  · rcases unpack_of_leading hzero hones with ⟨_, hb⟩
    injection hb.symm.trans h with hsign hm he
    exact ⟨toBitVec_of_ofBitVec hsign, .inr ⟨hzero, hones, hm.symm, he.symm⟩⟩

end Bits

/-- What is unpacked from memory is a double. -/
theorem double_of_unpack {b : BitVec Format.binary64.numBits} {sign : Sign} {m : ℕ} {e : ℤ}
    {hm : 0 < m} (h : UnpackedFloat.unpack .binary64 b = .finite sign m e hm) : Double m e := by
  have hmantissa : (unpackMantissa b).toNat < 2 ^ 52 := (unpackMantissa b).isLt
  rcases (unpack_cases h).2 with ⟨_, rfl, rfl⟩ | ⟨hzero, hones, rfl, rfl⟩
  · exact ⟨hm, by omega, by omega, by omega, fun _ => rfl⟩
  · have hpos : (unpackExponent b).toNat ≠ 0 := fun heq => hzero (BitVec.eq_of_toNat_eq heq)
    have hmost : (unpackExponent b).toNat ≠ 2047 := fun heq => hones (BitVec.eq_of_toNat_eq heq)
    have hlt : (unpackExponent b).toNat < 2 ^ 11 := (unpackExponent b).isLt
    exact ⟨hm, by omega, by omega, by omega, fun hfull => by omega⟩

/-- How a double is kept in memory. -/
theorem pack_double (sign : Sign) {m : ℕ} {e : ℤ} (hd : Double m e) :
    UnpackedFloat.pack .binary64 (.finite sign m e hd.pos) =
      packComponents .binary64 sign
        (if m < 2 ^ 52 then 0#11 else BitVec.ofNat 11 (e + 1075).toNat) (BitVec.ofNat 52 m) := by
  have hleast := hd.least
  have hmost := hd.most
  have hlt := hd.lt
  have hbias : e + Format.binary64.exponentBias + Format.binary64.mantissaBitsWithoutImplicit =
      e + 1075 := by
    have hbias : Format.binary64.exponentBias = 1023 := rfl
    rw [hbias, Int.add_assoc]
    rfl
  -- The exponent is small enough not to be taken for infinity.
  have hroom : ¬ 2 ^ Format.binary64.exponentBits ≤ (e + 1075).toNat + 1 := by
    simp only
    omega
  delta UnpackedFloat.pack
  dsimp only
  rw [hbias, if_neg hroom]
  by_cases hfull : m < 2 ^ 52
  · have hlog : ¬ m.log2 + 1 = Format.binary64.mantissaBits := by
      have hlt : m.log2 < 52 := (Nat.log2_lt hd.pos.ne').mpr hfull
      have hbits : Format.binary64.mantissaBits = 53 := rfl
      omega
    rw [if_neg hlog, if_pos hfull]
  · have hlog : m.log2 + 1 = Format.binary64.mantissaBits := by
      have hlt : m.log2 < 53 := (Nat.log2_lt hd.pos.ne').mpr hd.lt
      have hle : 52 ≤ m.log2 := (Nat.le_log2 hd.pos.ne').mpr (by omega)
      have hbits : Format.binary64.mantissaBits = 53 := rfl
      omega
    rw [if_pos hlog, if_neg hfull]

/-- Bits are recovered from the sign, the significand and the exponent in them. -/
theorem pack_unpack_bits {b : BitVec Format.binary64.numBits} {sign : Sign} {m : ℕ} {e : ℤ}
    {hm : 0 < m} (h : UnpackedFloat.unpack .binary64 b = .finite sign m e hm) :
    UnpackedFloat.pack .binary64 (.finite sign m e hm) = b := by
  rw [pack_double sign (double_of_unpack h)]
  rcases unpack_cases h with ⟨hsign, hparts⟩
  have hlt : (unpackMantissa b).toNat < 2 ^ 52 := (unpackMantissa b).isLt
  refine Eq.trans ?_ (packComponents_unpack hsign)
  -- With the least exponent the significand is kept as it is; otherwise its leading one drops out.
  rcases hparts with ⟨hzero, rfl, _⟩ | ⟨_, _, rfl, rfl⟩
  · rw [if_pos hlt, hzero, BitVec.ofNat_toNat, BitVec.setWidth_eq]
  · have hexponent : (((unpackExponent b).toNat : ℤ) - 1075 + 1075).toNat =
        (unpackExponent b).toNat := by omega
    have hmantissa : BitVec.ofNat 52 (2 ^ 52 + (unpackMantissa b).toNat) = unpackMantissa b := by
      refine BitVec.eq_of_toNat_eq ?_
      rw [BitVec.toNat_ofNat, Nat.add_mod_left, Nat.mod_eq_of_lt hlt]
    rw [if_neg (by omega), hexponent, hmantissa, BitVec.ofNat_toNat, BitVec.setWidth_eq]

/-- A number is recovered from its sign, significand and exponent. -/
theorem pack_unpack {x : Float} {sign : Sign} {m : ℕ} {e : ℤ} {hm : 0 < m}
    (h : x.toModel.unpack = .finite sign m e hm) :
    Float.ofModel (Float.Model.pack (.finite sign m e hm)) = x := by
  rcases x with ⟨⟨bits, valid⟩⟩
  have hbits : UnpackedFloat.pack .binary64 (.finite sign m e hm) = bits.toBitVec :=
    pack_unpack_bits h
  refine congrArg Float.ofModel ((Float.Model.mk.injEq ..).mpr ?_)
  rw [hbits, UInt64.ofBitVec_toBitVec]

theorem zero_bits {b : BitVec Format.binary64.numBits}
    (h : UnpackedFloat.unpack .binary64 b = .zero .positive) : b = 0#64 := by
  by_cases hones : unpackExponent b = -1#11
  · rcases unpack_of_ones hones with hb | hb <;> cases hb.symm.trans h
  by_cases hzero : unpackExponent b = 0#11
  · by_cases hmantissa : unpackMantissa b = 0#52
    · injection (unpack_of_zero hzero hmantissa).symm.trans h with hsign
      -- All three parts are zero, and so is what is put together from them.
      have hpack := packComponents_unpack (toBitVec_of_ofBitVec hsign)
      rw [hzero, hmantissa] at hpack
      exact hpack.symm
    · rcases unpack_of_least hzero hmantissa with ⟨_, hb⟩
      cases hb.symm.trans h
  · rcases unpack_of_leading hzero hones with ⟨_, hb⟩
    cases hb.symm.trans h

/-- There is only one zero without a minus sign. -/
theorem eq_zero_of_unpack {x : Float} (h : x.toModel.unpack = .zero .positive) : x = 0.0 := by
  rcases x with ⟨⟨bits, valid⟩⟩
  have hbits : bits = 0 := UInt64.eq_of_toBitVec_eq (zero_bits h)
  subst hbits
  rfl

section Recovered

variable (sign : Sign) {m : ℕ} {e : ℤ}

theorem ofBitVec_unpackSign {exponent : BitVec 11} {mantissa : BitVec 52} :
    Sign.ofBitVec (unpackSign (packComponents .binary64 sign exponent mantissa)) = sign := by
  rw [unpackSign_packComponents]
  cases sign <;> rfl

theorem unpack_packed_least (hpos : 0 < m) (hfull : m < 2 ^ 52) :
    UnpackedFloat.unpack .binary64 (packComponents .binary64 sign 0#11 (.ofNat 52 m)) =
      .finite sign m (-1074) hpos := by
  have hmantissa : (BitVec.ofNat 52 m).toNat = m := by
    rw [BitVec.toNat_ofNat, Nat.mod_eq_of_lt hfull]
  have hne : ¬ BitVec.ofNat 52 m = 0#52 := by
    intro heq
    rw [heq] at hmantissa
    simp at hmantissa
    omega
  rcases unpack_of_least (b := packComponents .binary64 sign 0#11 (.ofNat 52 m))
    unpackExponent_packComponents (by rwa [unpackMantissa_packComponents]) with ⟨_, hb⟩
  rw [hb]
  refine finite_congr (ofBitVec_unpackSign sign) ?_ rfl
  rw [unpackMantissa_packComponents, hmantissa]

theorem unpack_packed_leading (hd : Double m e) (hfull : ¬ m < 2 ^ 52) :
    UnpackedFloat.unpack .binary64
        (packComponents .binary64 sign (.ofNat 11 (e + 1075).toNat) (.ofNat 52 m)) =
      .finite sign m e hd.pos := by
  have hlt := hd.lt
  have hleast := hd.least
  have hmost := hd.most
  have hmantissa : (BitVec.ofNat 52 m).toNat = m % 2 ^ 52 := BitVec.toNat_ofNat _ _
  have hexponent : (BitVec.ofNat 11 (e + 1075).toNat).toNat = (e + 1075).toNat := by
    rw [BitVec.toNat_ofNat, Nat.mod_eq_of_lt (by omega)]
  have hones : ¬ BitVec.ofNat 11 (e + 1075).toNat = -1#11 := by
    intro heq
    rw [heq] at hexponent
    have htop : (-1#11 : BitVec 11).toNat = 2047 := by decide
    omega
  have hzero : ¬ BitVec.ofNat 11 (e + 1075).toNat = 0#11 := by
    intro heq
    rw [heq] at hexponent
    simp only [BitVec.toNat_ofNat, Nat.zero_mod] at hexponent
    omega
  rcases unpack_of_leading
    (b := packComponents .binary64 sign (.ofNat 11 (e + 1075).toNat) (.ofNat 52 m))
    (by rwa [unpackExponent_packComponents]) (by rwa [unpackExponent_packComponents]) with ⟨_, hb⟩
  rw [hb]
  refine finite_congr (ofBitVec_unpackSign sign) ?_ ?_
  · rw [unpackMantissa_packComponents, hmantissa]
    omega
  · rw [unpackExponent_packComponents, hexponent]
    omega

/-- A sign, a significand and an exponent are recovered from memory. -/
theorem unpack_pack_signed (hd : Double m e) :
    (Float.Model.pack (.finite sign m e hd.pos)).unpack = .finite sign m e hd.pos := by
  have hpack : (Float.Model.pack (.finite sign m e hd.pos)).unpack =
      UnpackedFloat.unpack .binary64
        (UnpackedFloat.pack .binary64 (.finite sign m e hd.pos)) := rfl
  rw [hpack, pack_double sign hd]
  by_cases hfull : m < 2 ^ 52
  · rw [if_pos hfull, unpack_packed_least sign hd.pos hfull]
    exact finite_congr rfl rfl (hd.full hfull).symm
  · rw [if_neg hfull, unpack_packed_leading sign hd hfull]

end Recovered

theorem unpack_pack {m : ℕ} {e : ℤ} (hd : Double m e) :
    (Float.Model.pack (.finite .positive m e hd.pos)).unpack = .finite .positive m e hd.pos :=
  unpack_pack_signed .positive hd

end Number

end Scriptlet
