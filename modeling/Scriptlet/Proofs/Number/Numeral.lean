import Mathlib.Algebra.Ring.Nat
import Scriptlet.Token.Scan

/-!
# Numerals

What the numbers of a script look like. A numeral has digits and at most one
point, and no sign: a minus in front of a number is an operator of its own. So
the number that a numeral means never has a minus sign, not even the one of the
negative zero. That is a fact about rounding a decimal, and it takes a walk
through the arithmetic that does it, with the sign as the only thing to watch.

Conversely, a finite number without a minus sign is written as a numeral, with
digits before its point and, if there is a point, behind it.

## Main definitions

* `Number.isPlus`: Numbers without a minus sign.
* `Number.numeral`: The text of a numeral with the given digits.
* `Number.Writes`: The digits of a numeral for a decimal.

## Theorems

* `isPlus_numeralValue`: What a numeral means has no minus sign.
* `not_lt_zero_of_isPlus`: Such a number is not less than zero.
* `positional_eq_numeral`: Positional notation is a numeral for the decimal.
* `toText_of_isPlus`: A finite number without a minus sign is written as a numeral.
* `ofText_numeral`: The number that the text of a numeral stands for.
-/

namespace Scriptlet

namespace Text

/-- Letters and digits are not blank. -/
theorem isBlank_of_isAlphanum {c : Char} (hc : c.isAlphanum = true) : isBlank c = false := by
  delta Char.isAlphanum Char.isAlpha Char.isUpper Char.isLower Char.isDigit at hc
  simp only [Bool.or_eq_true, Bool.and_eq_true, decide_eq_true_eq, ge_iff_le,
    UInt32.le_iff_toNat_le] at hc
  have hn : c.toNat = c.val.toNat := rfl
  simp only [isBlank, hn]
  simp at hc ⊢
  omega

/-- The characters of a class up to one that is not in it. -/
theorem takeWhile_word {p : Char → Bool} {word cs : List Char} (hword : word.all p = true)
    (hends : cs.head?.any p = false) : (word ++ cs).takeWhile p = word := by
  rw [List.takeWhile_append_of_pos (List.all_eq_true.mp hword)]
  rcases cs with _ | ⟨c, cs⟩
  · simp
  · simp only [List.head?_cons, Option.any_some] at hends
    simp [hends]

/-- What follows the characters of a class. -/
theorem dropWhile_word {p : Char → Bool} {word cs : List Char} (hword : word.all p = true)
    (hends : cs.head?.any p = false) : (word ++ cs).dropWhile p = cs := by
  rw [List.dropWhile_append_of_pos (List.all_eq_true.mp hword)]
  rcases cs with _ | ⟨c, cs⟩
  · rfl
  · simp only [List.head?_cons, Option.any_some] at hends
    simp [hends]

theorem trim_of_all {cs : List Char} (h : cs.all (fun c => !isBlank c) = true) : trim cs = cs := by
  have hdrop : ∀ {ds : List Char}, ds.all (fun c => !isBlank c) = true →
      ds.dropWhile isBlank = ds := by
    intro ds hds
    cases ds with
    | nil => rfl
    | cons d ds =>
        simp only [List.all_cons, Bool.and_eq_true, Bool.not_eq_true'] at hds
        simp [hds.1]
  rw [trim, hdrop h, hdrop (by rwa [List.all_reverse]), List.reverse_reverse]

end Text

namespace Number

open Float.Model (UnpackedFloat Format)
open Float.Model.UnpackedFloat (Sign)

/-! ### Signs -/

/-- Whether a number taken apart has no minus sign. -/
def isPlus : UnpackedFloat → Bool
  | .infinity s | .zero s | .finite s _ _ _ => !isMinus s
  | .notANumber => true

theorem isPlus_cases {f : UnpackedFloat} (h : isPlus f = true) :
    f = .notANumber ∨ f = .infinity .positive ∨ f = .zero .positive ∨
      ∃ m e hm, f = .finite .positive m e hm := by
  have hplus : ∀ {s : Sign}, (!isMinus s) = true → s = .positive := by
    intro s hs
    cases s with
    | positive => rfl
    | negative => simp [isMinus] at hs
  cases f with
  | notANumber => exact .inl rfl
  | infinity s => exact .inr (.inl (congrArg _ (hplus h)))
  | zero s => exact .inr (.inr (.inl (congrArg _ (hplus h))))
  | finite s m e hm =>
      have hs := hplus h
      subst hs
      exact .inr (.inr (.inr ⟨m, e, hm, rfl⟩))

theorem unpackSign_packComponents {spec : Float.Model.Format} {sign : Sign}
    {exponent : BitVec spec.exponentBits} {mantissa : BitVec spec.mantissaBitsWithoutImplicit} :
    UnpackedFloat.unpackSign (UnpackedFloat.packComponents spec sign exponent mantissa) =
      sign.toBitVec := by
  ext i hi
  obtain rfl : i = 0 := by omega
  delta UnpackedFloat.unpackSign UnpackedFloat.packComponents
  simp [BitVec.getLsbD_append, BitVec.getElem_append]

/-- Packing keeps the sign, which is the first bit. -/
theorem unpackSign_pack_finite {spec : Float.Model.Format} (sign : Sign) (m : Nat) (e : Int)
    (hm : 0 < m) :
    UnpackedFloat.unpackSign (UnpackedFloat.pack spec (.finite sign m e hm)) = sign.toBitVec := by
  -- However the exponent turns out, the sign goes into its own bit.
  delta UnpackedFloat.pack
  dsimp only
  split
  · exact unpackSign_packComponents
  · split
    · exact unpackSign_packComponents
    · exact unpackSign_packComponents

theorem unpackSign_pack {spec : Float.Model.Format} {f : UnpackedFloat} (h : isPlus f = true) :
    UnpackedFloat.unpackSign (UnpackedFloat.pack spec f) = 0#1 := by
  rcases isPlus_cases h with rfl | rfl | rfl | ⟨m, e, hm, rfl⟩
  · exact unpackSign_packComponents
  · exact unpackSign_packComponents
  · exact unpackSign_packComponents
  · exact unpackSign_pack_finite .positive m e hm

/-- A pattern of bits is no number, or a number with the sign that is in its first bit. -/
theorem unpack_signed {spec : Float.Model.Format} {b : BitVec spec.numBits} {sign : Sign}
    (h : Sign.ofBitVec (UnpackedFloat.unpackSign b) = sign) :
    UnpackedFloat.unpack spec b = .notANumber ∨ UnpackedFloat.unpack spec b = .infinity sign ∨
      UnpackedFloat.unpack spec b = .zero sign ∨
        ∃ m e hm, UnpackedFloat.unpack spec b = .finite sign m e hm := by
  subst h
  delta UnpackedFloat.unpack
  dsimp only
  by_cases hones : UnpackedFloat.unpackExponent b = -.ofNat _ 1
  · rw [if_pos hones]
    by_cases hmantissa : UnpackedFloat.unpackMantissa b = .ofNat _ 0
    · rw [if_pos hmantissa]
      exact .inr (.inl rfl)
    · rw [if_neg hmantissa]
      exact .inl rfl
  · rw [if_neg hones]
    by_cases hzero : UnpackedFloat.unpackExponent b = .ofNat _ 0
    · rw [if_pos hzero]
      by_cases hmantissa : UnpackedFloat.unpackMantissa b = .ofNat _ 0
      · rw [dif_pos hmantissa]
        exact .inr (.inr (.inl rfl))
      · rw [dif_neg hmantissa]
        exact .inr (.inr (.inr ⟨_, _, _, rfl⟩))
    · rw [if_neg hzero]
      exact .inr (.inr (.inr ⟨_, _, _, rfl⟩))

theorem isPlus_ite {p : Prop} [Decidable p] {f g : UnpackedFloat} (hf : isPlus f = true)
    (hg : isPlus g = true) : isPlus (if p then f else g) = true := by
  by_cases hp : p
  · rwa [if_pos hp]
  · rwa [if_neg hp]

theorem isPlus_unpack {spec : Float.Model.Format} {b : BitVec spec.numBits}
    (h : UnpackedFloat.unpackSign b = 0#1) : isPlus (UnpackedFloat.unpack spec b) = true := by
  have hsign : Sign.ofBitVec (UnpackedFloat.unpackSign b) = .positive := by
    rw [h]
    rfl
  rcases unpack_signed hsign with hb | hb | hb | ⟨m, e, hm, hb⟩ <;> rw [hb] <;> rfl

theorem isPlus_pack {f : UnpackedFloat} (h : isPlus f = true) :
    isPlus (Float.Model.pack f).unpack = true :=
  isPlus_unpack (unpackSign_pack h)

/-- Rounding keeps the sign, even where zero is left of a number. -/
theorem roundWithAccuracy_cases (sign : Sign) (m : Nat) (e : Int)
    (accuracy : UnpackedFloat.Accuracy) :
    UnpackedFloat.roundWithAccuracy .binary64 sign m e accuracy = .zero sign ∨
      ∃ m' e' hm, UnpackedFloat.roundWithAccuracy .binary64 sign m e accuracy =
        .finite sign m' e' hm := by
  let first := UnpackedFloat.shiftToTargetExponent .binary64 m e accuracy
  by_cases hzero : (UnpackedFloat.shiftToTargetExponent .binary64 first.1.roundedMantissa first.2
      .exact).1.mantissa = 0
  · exact .inl (dif_pos hzero)
  · exact .inr ⟨_, _, _, dif_neg hzero⟩

theorem isPlus_round (m : Nat) (e : Int) (accuracy : UnpackedFloat.Accuracy) :
    isPlus (UnpackedFloat.roundWithAccuracy .binary64 .positive m e accuracy) = true := by
  rcases roundWithAccuracy_cases .positive m e accuracy with h | ⟨_, _, _, h⟩ <;> rw [h] <;> rfl

theorem isPlus_mul {f g : UnpackedFloat} (hf : isPlus f = true) (hg : isPlus g = true) :
    isPlus (UnpackedFloat.mul .binary64 f g) = true := by
  -- Only the product of two finite numbers is not one of the listed cases.
  rcases isPlus_cases hf with rfl | rfl | rfl | ⟨m, e, hm, rfl⟩ <;>
    rcases isPlus_cases hg with rfl | rfl | rfl | ⟨n, k, hn, rfl⟩ <;> try rfl
  exact isPlus_round _ _ _

theorem isPlus_div {f g : UnpackedFloat} (hf : isPlus f = true) (hg : isPlus g = true) :
    isPlus (UnpackedFloat.div .binary64 f g) = true := by
  rcases isPlus_cases hf with rfl | rfl | rfl | ⟨m, e, hm, rfl⟩ <;>
    rcases isPlus_cases hg with rfl | rfl | rfl | ⟨n, k, hn, rfl⟩ <;> try rfl
  exact isPlus_round _ _ _

theorem isPlus_ofNat (n : Nat) : isPlus (UnpackedFloat.ofNat .binary64 n) = true := by
  simp only [UnpackedFloat.ofNat, UnpackedFloat.ofInt, UnpackedFloat.normalize]
  split
  -- Only here the minus sign would come in, and a natural number is not below zero.
  · next hnegative =>
    rw [Int.compare_eq_lt] at hnegative
    omega
  · rfl
  · exact isPlus_round _ _ _

/-- The powers of ten that are kept as a table. -/
theorem isPlus_power {e : Nat} (h : e < Float.exactlyRepresentablePowersOfTen.size) :
    isPlus (Float.exactlyRepresentablePowersOfTen[e]).toModel.unpack = true := by
  have hall : ∀ x ∈ Float.exactlyRepresentablePowersOfTen, isPlus x.toModel.unpack = true := by
    decide +kernel
  exact hall _ (Array.getElem_mem h)

theorem isPlus_ofScaled (m : Nat) (e : Int) :
    isPlus (UnpackedFloat.ofScientific .binary64 m e) = true := by
  by_cases hm : m = 0
  · subst hm
    rfl
  · delta UnpackedFloat.ofScientific
    rw [dif_neg hm]
    exact isPlus_ite rfl
      (isPlus_ite rfl (isPlus_ite (isPlus_round _ _ _) (isPlus_round _ _ _)))

theorem isPlus_ofScientific (m : Nat) (s : Bool) (e : Nat) :
    isPlus (Float.ofScientific m s e).toModel.unpack = true := by
  unfold Float.ofScientific
  split
  · next h =>
    -- The short way, one product or quotient of two numbers without a minus sign.
    have hm : isPlus (m.toUInt64.toFloat).toModel.unpack = true := isPlus_pack (isPlus_ofNat _)
    have he := isPlus_power (e := e) (by simp [Float.exactlyRepresentablePowersOfTen]; omega)
    cases s with
    | true => exact isPlus_pack (isPlus_div hm he)
    | false => exact isPlus_pack (isPlus_mul hm he)
  · exact isPlus_pack (isPlus_ofScaled m _)

/-- What a numeral means has no minus sign. -/
theorem isPlus_numeralValue (whole fraction : List Char) :
    isPlus (Scanner.numeralValue whole fraction).toModel.unpack = true := by
  simp only [Scanner.numeralValue, Decimal.toNumber, signed, Bool.false_eq_true, if_false]
  split <;> exact isPlus_ofScientific _ _ _

theorem unpack_zero : (0.0 : Float).toModel.unpack = .zero .positive := by
  rfl

theorem not_lt_zero_of_isPlus {x : Float} (h : isPlus x.toModel.unpack = true) : ¬ x < 0.0 := by
  have hlt : x.toModel.unpack.lt (.zero .positive) = false := by
    rcases isPlus_cases h with hx | hx | hx | ⟨m, e, hm, hx⟩ <;> rw [hx] <;> rfl
  simp only [LT.lt, Float.lt, Float.Model.lt, unpack_zero, hlt]
  simp

/-! ### Numerals as text -/

/-- The text of a numeral with the given digits before and behind its point. -/
def numeral (whole fraction : List Char) : List Char :=
  whole ++ (if fraction = [] then [] else '.' :: fraction)

/-- Digits that make a numeral: at least one before the point. -/
structure Digits (whole fraction : List Char) : Prop where
  ne_nil : whole ≠ []
  whole : whole.all Char.isDigit = true
  fraction : fraction.all Char.isDigit = true

theorem all_isDigit_digitsOf (n : Nat) : (Decimal.digitsOf n).all Char.isDigit = true :=
  List.all_eq_true.mpr fun _ hc => Nat.isDigit_of_mem_toDigits (by omega) (by omega) hc

theorem all_isDigit_zeros (n : Nat) : (Decimal.zeros n).all Char.isDigit = true :=
  List.all_eq_true.mpr fun c hc => by rw [List.eq_of_mem_replicate hc]; rfl

/-- The digits of a numeral for a decimal: it has as many places behind the point
    as the decimal, and its digits mean the same. -/
structure Writes (d : Decimal) (whole fraction : List Char) : Prop where
  digits : Digits whole fraction
  places : fraction.length = (-d.exponent).toNat
  value : Decimal.ofDigits (whole ++ fraction) = d.digits * 10 ^ d.exponent.toNat

theorem ofDigits_append (cs ds : List Char) :
    Decimal.ofDigits (cs ++ ds) = 10 ^ ds.length * Decimal.ofDigits cs + Decimal.ofDigits ds := by
  have happend : Nat.ofDigitChars 10 (cs ++ ds) 0 =
      10 ^ ds.length * Nat.ofDigitChars 10 cs 0 + Nat.ofDigitChars 10 ds 0 := by
    rw [Nat.ofDigitChars_append, Nat.ofDigitChars_eq_ofDigitChars_zero]
  exact happend

theorem ofDigits_digitsOf (n : Nat) : Decimal.ofDigits (Decimal.digitsOf n) = n :=
  Nat.ofDigitChars_toDigits (by omega) (by omega)

theorem ofDigits_zeros (n : Nat) : Decimal.ofDigits (Decimal.zeros n) = 0 :=
  Nat.ofDigitChars_replicate_zero

/-- The digits around a point are those without it, but for zeros in front. -/
theorem ofDigits_point (digits : List Char) (places : Nat) :
    Decimal.ofDigits (Decimal.beforePoint digits places ++ Decimal.behindPoint digits places) =
      Decimal.ofDigits digits := by
  unfold Decimal.beforePoint Decimal.behindPoint
  split
  · next hshort =>
    -- All digits are behind the point, and zeros fill the gap.
    have hdrop : digits.length - places = 0 := by omega
    have hzero : Decimal.ofDigits ['0'] = 0 := rfl
    rw [hdrop, List.drop_zero, ofDigits_append, ofDigits_append, hzero, ofDigits_zeros]
    omega
  · next hlong =>
    have hzeros : places - digits.length = 0 := by omega
    rw [hzeros, Decimal.zeros, List.replicate_zero, List.nil_append, List.take_append_drop]

theorem length_behindPoint (digits : List Char) (places : Nat) :
    (Decimal.behindPoint digits places).length = places := by
  simp only [Decimal.behindPoint, Decimal.zeros, List.length_append, List.length_replicate,
    List.length_drop]
  omega

/-- Digits are still digits with a point among them or in front of them. -/
theorem digits_point {digits : List Char} (hdigits : digits.all Char.isDigit = true)
    (places : Nat) :
    Digits (Decimal.beforePoint digits places) (Decimal.behindPoint digits places) := by
  have hall : ∀ {cs : List Char}, (∀ c ∈ cs, c ∈ digits) → cs.all Char.isDigit = true := fun hcs =>
    List.all_eq_true.mpr fun c hc => List.all_eq_true.mp hdigits c (hcs c hc)
  refine ⟨?_, ?_, ?_⟩
  · unfold Decimal.beforePoint
    split
    · simp
    · next hlong =>
      intro hnil
      have hlength := congrArg List.length hnil
      simp only [List.length_take, List.length_nil] at hlength
      omega
  · unfold Decimal.beforePoint
    split
    · rfl
    · exact hall fun c hc => List.mem_of_mem_take hc
  · rw [Decimal.behindPoint, List.all_append, all_isDigit_zeros, Bool.true_and]
    exact hall fun c hc => List.mem_of_mem_drop hc

/-- Positional notation is a numeral. -/
theorem positional_eq_numeral (d : Decimal) :
    ∃ whole fraction, Writes d whole fraction ∧
      (d.positional "").toList = numeral whole fraction := by
  have hdigits := all_isDigit_digitsOf d.digits
  have hne : Decimal.digitsOf d.digits ≠ [] := Nat.toDigits_ne_nil
  unfold Decimal.positional
  split
  · next k hexponent =>
    -- Zeros take the place of the power of ten, and there is no point.
    refine ⟨Decimal.digitsOf d.digits ++ Decimal.zeros k, [], ⟨⟨?_, ?_, rfl⟩, ?_, ?_⟩, ?_⟩
    · simp [hne]
    · rw [List.all_append, hdigits, all_isDigit_zeros, Bool.and_self]
    · rw [hexponent]
      simp
    · rw [List.append_nil, ofDigits_append, ofDigits_digitsOf, ofDigits_zeros, Decimal.zeros,
        List.length_replicate, hexponent]
      exact Nat.mul_comm _ _
    · simp [numeral]
  · next k hexponent =>
    have hlength := length_behindPoint (Decimal.digitsOf d.digits) (k + 1)
    -- There are places behind the point, so the numeral shows it.
    have hbehind : Decimal.behindPoint (Decimal.digitsOf d.digits) (k + 1) ≠ [] := by
      intro hnil
      rw [hnil] at hlength
      simp at hlength
    refine ⟨_, _, ⟨digits_point hdigits (k + 1), ?_, ?_⟩, ?_⟩
    · rw [hlength, hexponent]
      rfl
    · rw [ofDigits_point, ofDigits_digitsOf, hexponent]
      exact (Nat.mul_one _).symm
    · simp [numeral, hbehind]

theorem parts_of_finite {x : Float} {sign : Sign} {m : Nat} {e : Int} {hm : 0 < m}
    (h : x.toModel.unpack = .finite sign m e hm) : parts x = .finite (isMinus sign) m e := by
  rw [parts, h]

/-- A positive number is written as the numeral of its shortest decimal. -/
theorem toText_of_finite {x : Float} {m : Nat} {e : Int} {hm : 0 < m}
    (h : x.toModel.unpack = .finite .positive m e hm) :
    ∃ whole fraction, Writes (Decimal.shortest .up false m e) whole fraction ∧
      (toText x).toList = numeral whole fraction := by
  rcases positional_eq_numeral (Decimal.shortest .up false m e) with ⟨whole, fraction, hw, htext⟩
  refine ⟨whole, fraction, hw, ?_⟩
  rw [← htext]
  simp [toText, parts_of_finite h, isMinus, minus, Nat.ne_of_gt hm]

/-- A finite number without a minus sign is written as a numeral. -/
theorem toText_of_isPlus {x : Float} (hplus : isPlus x.toModel.unpack = true)
    (hfinite : x.isFinite = true) :
    ∃ whole fraction, Digits whole fraction ∧ (toText x).toList = numeral whole fraction := by
  have hunpacked : x.toModel.unpack.isFinite = true := hfinite
  rcases isPlus_cases hplus with hx | hx | hx | ⟨m, e, hm, hx⟩
  -- Neither what is not a number nor infinity is finite.
  · rw [hx] at hunpacked
    cases hunpacked
  · rw [hx] at hunpacked
    cases hunpacked
  · have hparts : parts x = .finite false 0 0 := by
      rw [parts, hx]
      rfl
    refine ⟨['0'], [], ⟨by simp, rfl, rfl⟩, ?_⟩
    simp [toText, hparts, numeral]
  · rcases toText_of_finite hx with ⟨whole, fraction, hw, htext⟩
    exact ⟨whole, fraction, hw.digits, htext⟩

section Reading

variable {whole fraction : List Char}

theorem Digits.cons_eq (h : Digits whole fraction) :
    ∃ d ds, d.isDigit = true ∧ whole = d :: ds := by
  rcases whole with _ | ⟨d, ds⟩
  · exact absurd rfl h.ne_nil
  · have hwhole := h.whole
    simp only [List.all_cons, Bool.and_eq_true] at hwhole
    exact ⟨d, ds, hwhole.1, rfl⟩

theorem all_not_isBlank_numeral (h : Digits whole fraction) :
    (numeral whole fraction).all (fun c => !Text.isBlank c) = true := by
  have hdigits : ∀ {ds : List Char}, ds.all Char.isDigit = true →
      ds.all (fun c => !Text.isBlank c) = true := by
    intro ds hds
    refine List.all_eq_true.mpr fun c hc => ?_
    have hdigit := List.all_eq_true.mp hds c hc
    rw [Text.isBlank_of_isAlphanum (by simp [Char.isAlphanum, hdigit])]
    rfl
  rw [numeral, List.all_append, hdigits h.whole, Bool.true_and]
  split
  · rfl
  · rw [List.all_cons, hdigits h.fraction]
    rfl

/-- The grammar of numbers in text reads a numeral as its digits. -/
theorem read?_numeral (h : Digits whole fraction) :
    Decimal.read? (numeral whole fraction) =
      some ⟨false, Decimal.ofDigits (whole ++ fraction), -(fraction.length : Int)⟩ := by
  rcases h.cons_eq with ⟨d, ds, hd, hwhole⟩
  -- A numeral begins with a digit, so there is no sign to take off.
  have hsign : Decimal.takeSign (numeral whole fraction) = (false, numeral whole fraction) := by
    rw [numeral, hwhole, List.cons_append]
    unfold Decimal.takeSign
    split
    · next heq =>
      simp only [List.cons.injEq] at heq
      rw [heq.1] at hd
      exact absurd hd (by decide)
    · next heq =>
      simp only [List.cons.injEq] at heq
      rw [heq.1] at hd
      exact absurd hd (by decide)
    · rfl
  unfold Decimal.read?
  rw [hsign]
  by_cases hnil : fraction = []
  · have hends : ([] : List Char).head?.any Char.isDigit = false := rfl
    simp only [hnil, numeral, if_true, Text.takeWhile_word h.whole hends,
      Text.dropWhile_word h.whole hends, Decimal.takeFraction, h.ne_nil, false_and, if_false,
      Decimal.readExponent?, Option.map_some, List.length_nil]
    rfl
  · have hends : ('.' :: fraction).head?.any Char.isDigit = false := rfl
    have hnone : ([] : List Char).head?.any Char.isDigit = false := rfl
    have hfraction := Text.takeWhile_word h.fraction hnone
    have hrest := Text.dropWhile_word h.fraction hnone
    rw [List.append_nil] at hfraction hrest
    simp only [numeral, hnil, if_false, Text.takeWhile_word h.whole hends,
      Text.dropWhile_word h.whole hends, Decimal.takeFraction, hfraction, hrest, h.ne_nil,
      false_and, Decimal.readExponent?, Option.map_some, Int.zero_sub]

/-- The number that the text of a numeral stands for. -/
theorem ofText_numeral (h : Digits whole fraction) :
    ofText (String.ofList (numeral whole fraction)) = Scanner.numeralValue whole fraction := by
  rcases h.cons_eq with ⟨d, ds, hd, hwhole⟩
  have hhead : ∀ {c : Char} {cs : List Char}, c.isDigit = false →
      numeral whole fraction ≠ c :: cs := by
    intro c cs hc heq
    rw [numeral, hwhole, List.cons_append] at heq
    simp only [List.cons.injEq] at heq
    rw [heq.1] at hd
    exact absurd hd (by simp [hc])
  have hne : numeral whole fraction ≠ [] := by
    rw [numeral, hwhole]
    simp
  simp only [ofText, String.toList_ofList, Text.trim_of_all (all_not_isBlank_numeral h), if_neg hne,
    read?_numeral h]
  -- The words for infinity do not begin with a digit.
  rw [if_neg, if_neg]
  · rfl
  · exact hhead (by decide)
  · rintro (heq | heq)
    · exact hhead (by decide) heq
    · exact hhead (by decide) heq

end Reading

end Number

end Scriptlet
