import Scriptlet.Proofs.Number.Rounding

/-!
# The Search for the Shortest Decimal

The search looks at grids of multiples of powers of ten and takes the first that
has a point which rounds to the number. All its comparisons are between natural
numbers, with fractions cleared, and `near_of_onGrid` says what they mean: a hit
is a decimal in the interval of the number.

That the search hits at all is a matter of room. On a grid no wider than the
quarter of a place that is always there below a number, the multiple just below
the number is in the interval. The place that the search starts from is
estimated with an approximation of the logarithm of two, and two powers of two
close to powers of ten are enough to see that twenty places down the grid is
fine enough, however large or small the number.

## Theorems

* `near_of_onGrid`: What a grid gives rounds to the number.
* `isSome_onGrid`: A fine enough grid gives something.
* `near_shortest`: The shortest decimal rounds to the number.
-/

namespace Scriptlet

namespace Decimal

open Number (Double Near quartersBelow_le)

/-! ### One grid -/

section Grid

variable (e p : ℤ)

/-- The quarter of the last binary place, as the search counts it. -/
def gridScale : ℕ :=
  2 ^ (e - 2).toNat * 10 ^ (-p).toNat

/-- The width of the grid, as the search counts it. -/
def gridWidth : ℕ :=
  2 ^ (2 - e).toNat * 10 ^ p.toNat

theorem gridWidth_pos : (0 : ℚ) < gridWidth e p := by
  exact_mod_cast Nat.mul_pos (Nat.two_pow_pos _) (Nat.pow_pos (by omega))

theorem pow_toNat {a : ℚ} (ha : a ≠ 0) (n : ℤ) : a ^ n.toNat = a ^ n * a ^ (-n).toNat := by
  -- Of a number and its opposite at most one is positive.
  rcases n.eq_nat_or_neg with ⟨k, rfl | rfl⟩
  · simp
  · simp [ha]

/-- Both are counted in the same unit. -/
theorem exists_gridUnit :
    ∃ unit : ℚ, 0 < unit ∧ 2 ^ (e - 2) = gridScale e p * unit ∧ 10 ^ p = gridWidth e p * unit := by
  have hwidth := gridWidth_pos e p
  refine ⟨10 ^ p / gridWidth e p, by positivity, ?_, ?_⟩
  · have htwo := pow_toNat (two_ne_zero : (2 : ℚ) ≠ 0) (e - 2)
    have hten := pow_toNat (by norm_num : (10 : ℚ) ≠ 0) p
    rw [Int.neg_sub] at htwo
    rw [← mul_div_assoc, eq_div_iff hwidth.ne']
    simp only [gridScale, gridWidth]
    push_cast
    rw [htwo, hten]
    ring
  · rw [mul_div_cancel₀ _ hwidth.ne']

end Grid

variable {m : ℕ} {e p : ℤ}

/-- A point of the grid is in the interval of the number. -/
def Inside (m : ℕ) (e p : ℤ) (n : ℕ) : Prop :=
  if m % 2 = 0 then
    4 * m * gridScale e p - quartersBelow m e * gridScale e p ≤ n * gridWidth e p ∧
      n * gridWidth e p ≤ 4 * m * gridScale e p + 2 * gridScale e p
  else
    4 * m * gridScale e p - quartersBelow m e * gridScale e p < n * gridWidth e p ∧
      n * gridWidth e p < 4 * m * gridScale e p + 2 * gridScale e p

theorem inside_iff (n : ℕ) :
    (if m % 2 = 0 then
      decide (4 * m * gridScale e p - quartersBelow m e * gridScale e p ≤ n * gridWidth e p ∧
        n * gridWidth e p ≤ 4 * m * gridScale e p + 2 * gridScale e p)
    else
      decide (4 * m * gridScale e p - quartersBelow m e * gridScale e p < n * gridWidth e p ∧
        n * gridWidth e p < 4 * m * gridScale e p + 2 * gridScale e p)) = true ↔
      Inside m e p n := by
  unfold Inside
  split
  · exact decide_eq_true_iff
  · exact decide_eq_true_iff

theorem nearer_cases (tie : Tie) (c excess width : ℕ) :
    nearer tie c excess width = c ∨ nearer tie c excess width = c + 1 := by
  unfold nearer
  split
  · exact .inl rfl
  · split
    · exact .inr rfl
    · cases tie with
      | up => exact .inr rfl
      | even =>
          simp only
          split
          · exact .inl rfl
          · exact .inr rfl

/-- What a grid gives is in the interval, and it gives something if the multiple
    just below the number is. -/
theorem onGrid_cases (tie : Tie) (m : ℕ) (e p : ℤ) :
    (∃ c, onGrid tie m e p = some c ∧ Inside m e p c) ∨
      onGrid tie m e p = none ∧ ¬ Inside m e p (4 * m * gridScale e p / gridWidth e p) := by
  simp only [onGrid]
  split
  -- Both neighbours are in the interval, and either may be the nearer one.
  · next hlower hupper =>
    have hlow : Inside m e p (4 * m * gridScale e p / gridWidth e p) := (inside_iff _).mp hlower
    have hhigh : Inside m e p (4 * m * gridScale e p / gridWidth e p + 1) :=
      (inside_iff _).mp hupper
    refine .inl ⟨_, rfl, ?_⟩
    rcases nearer_cases tie (4 * m * gridScale e p / gridWidth e p)
      (4 * m * gridScale e p - 4 * m * gridScale e p / gridWidth e p * gridWidth e p)
      (gridWidth e p) with hc | hc
    · exact hc.symm ▸ hlow
    · exact hc.symm ▸ hhigh
  · next hlower _ => exact .inl ⟨_, rfl, (inside_iff _).mp hlower⟩
  · next _ hupper => exact .inl ⟨_, rfl, (inside_iff _).mp hupper⟩
  · next hlower _ =>
    refine .inr ⟨rfl, fun hinside => ?_⟩
    exact absurd ((inside_iff _).mpr hinside) (Bool.eq_false_iff.mp hlower)

/-- A point in the interval, counted as the search counts, rounds to the number. -/
theorem near_of_inside {n : ℕ} (hm : 0 < m) (h : Inside m e p n) :
    Near m e ((n : ℚ) * 10 ^ p) := by
  obtain ⟨unit, hunit, htwo, hten⟩ := exists_gridUnit e p
  have hplace : (2 : ℚ) ^ e = 4 * (gridScale e p * unit) := by
    rw [← htwo, zpow_sub₀ two_ne_zero]
    norm_num
    ring
  -- The lower end is above zero, so the subtraction of natural numbers is one of fractions.
  have hbelow : quartersBelow m e * gridScale e p ≤ 4 * m * gridScale e p := by
    have hquarters := quartersBelow_le m e
    exact Nat.mul_le_mul_right _ (by omega)
  have hlow : ((m : ℚ) - quartersBelow m e / 4) * 2 ^ e =
      ((4 * m * gridScale e p - quartersBelow m e * gridScale e p : ℕ) : ℚ) * unit := by
    rw [hplace, Nat.cast_sub hbelow]
    push_cast
    ring
  have hhigh : ((m : ℚ) + 1 / 2) * 2 ^ e =
      ((4 * m * gridScale e p + 2 * gridScale e p : ℕ) : ℚ) * unit := by
    rw [hplace]
    push_cast
    ring
  have hpoint : (n : ℚ) * 10 ^ p = ((n * gridWidth e p : ℕ) : ℚ) * unit := by
    rw [hten]
    push_cast
    ring
  have hle {a b : ℕ} (hab : a ≤ b) : (a : ℚ) * unit ≤ b * unit :=
    mul_le_mul_of_nonneg_right (by exact_mod_cast hab) hunit.le
  have hlt {a b : ℕ} (hab : a < b) : (a : ℚ) * unit < b * unit :=
    mul_lt_mul_of_pos_right (by exact_mod_cast hab) hunit
  unfold Inside at h
  rw [hpoint]
  split at h
  · next heven =>
    exact ⟨hlow ▸ hle h.1, hhigh ▸ hle h.2, fun hodd => by omega⟩
  · exact ⟨hlow ▸ hle h.1.le, hhigh ▸ hle h.2.le, fun _ => ⟨hlow ▸ hlt h.1, hhigh ▸ hlt h.2⟩⟩

theorem near_of_onGrid {tie : Tie} {c : ℕ} (hm : 0 < m) (h : onGrid tie m e p = some c) :
    Near m e ((c : ℚ) * 10 ^ p) := by
  rcases onGrid_cases tie m e p with ⟨c', hc', hinside⟩ | ⟨hnone, -⟩
  · rw [hc', Option.some.injEq] at h
    exact near_of_inside hm (h ▸ hinside)
  · rw [hnone] at h
    cases h

/-- On a grid no wider than a quarter of the last place, the multiple just below
    the number is in the interval. -/
theorem isSome_onGrid (tie : Tie) (hm : 0 < m) (hfine : (10 : ℚ) ^ p ≤ 2 ^ (e - 2)) :
    (onGrid tie m e p).isSome = true := by
  rcases onGrid_cases tie m e p with ⟨c, hc, -⟩ | ⟨-, hout⟩
  · rw [hc]
    rfl
  · obtain ⟨unit, hunit, htwo, hten⟩ := exists_gridUnit e p
    have hwidth : gridWidth e p ≤ gridScale e p := by
      rw [htwo, hten] at hfine
      exact_mod_cast le_of_mul_le_mul_right hfine hunit
    have hpos : 0 < gridWidth e p := by exact_mod_cast gridWidth_pos e p
    have hquarters : gridScale e p ≤ quartersBelow m e * gridScale e p := by
      refine Nat.le_mul_of_pos_left _ ?_
      unfold quartersBelow
      split <;> omega
    -- The multiple just below the number is less than a width below it, which is a quarter at most.
    have hbelow := Nat.div_mul_le_self (4 * m * gridScale e p) (gridWidth e p)
    have habove := Nat.lt_div_mul_add (a := 4 * m * gridScale e p) hpos
    have hvalue : gridScale e p ≤ 4 * m * gridScale e p :=
      Nat.le_mul_of_pos_left _ (by omega)
    refine absurd ?_ hout
    unfold Inside
    split
    · omega
    · omega

/-! ### Powers of two and of ten -/

/-- Powers of ten are compared with powers of two by `10 ^ 3 ≤ 2 ^ 10` going up
    and by `2 ^ 93 ≤ 10 ^ 28` going down. -/
theorem ten_zpow_le_two_zpow {k : ℤ} (hup : 0 ≤ p → 10 * p ≤ k * 3)
    (hdown : p < 0 → 93 * p ≤ k * 28) : (10 : ℚ) ^ p ≤ 2 ^ k := by
  rcases le_or_gt 0 p with hp | hp
  · refine le_of_pow_le_pow_left₀ three_ne_zero (by positivity) ?_
    calc ((10 : ℚ) ^ p) ^ 3 = (10 ^ 3) ^ p := zpow_comm 10 p 3
      _ ≤ (2 ^ 10) ^ p := zpow_le_zpow_left₀ hp (by norm_num) (by norm_num)
      _ = 2 ^ (10 * p) := (zpow_mul 2 10 p).symm
      _ ≤ 2 ^ (k * 3) := zpow_le_zpow_right₀ one_le_two (hup hp)
      _ = (2 ^ k) ^ 3 := zpow_mul 2 k 3
  · have hinverse : ((10 : ℚ) ^ 28) ^ p ≤ (2 ^ 93) ^ p := by
      rw [← inv_le_inv₀ (by positivity) (by positivity), ← zpow_neg, ← zpow_neg]
      exact zpow_le_zpow_left₀ (by omega) (by norm_num) (by norm_num)
    refine le_of_pow_le_pow_left₀ (n := 28) (by omega) (by positivity) ?_
    calc ((10 : ℚ) ^ p) ^ 28 = (10 ^ 28) ^ p := zpow_comm 10 p 28
      _ ≤ (2 ^ 93) ^ p := hinverse
      _ = 2 ^ (93 * p) := (zpow_mul 2 93 p).symm
      _ ≤ 2 ^ (k * 28) := zpow_le_zpow_right₀ one_le_two (hdown hp)
      _ = (2 ^ k) ^ 28 := zpow_mul 2 k 28

/-- Nineteen places below the top the grid is fine enough. -/
theorem ten_zpow_topPlace_le (hd : Double m e) :
    (10 : ℚ) ^ (topPlace m e - 19) ≤ 2 ^ (e - 2) := by
  have hlog : m.log2 < 53 := (Nat.log2_lt hd.pos.ne').mpr hd.lt
  have hleast := hd.least
  have hmost := hd.most
  apply ten_zpow_le_two_zpow
  · unfold topPlace
    omega
  · unfold topPlace
    omega

/-! ### The search -/

/-- The shortest decimal rounds to the number. -/
theorem near_shortest (tie : Tie) (negative : Bool) (hd : Double m e) :
    Near m e (((shortest tie negative m e).digits : ℚ) *
      10 ^ (shortest tie negative m e).exponent) := by
  unfold shortest
  simp only
  split
  · next digits place hhit =>
    obtain ⟨i, -, hi⟩ := List.exists_of_findSome?_eq_some hhit
    obtain ⟨c, hc, hplace⟩ := Option.map_eq_some_iff.mp hi
    rw [Prod.mk.injEq] at hplace
    rw [← hplace.1, ← hplace.2]
    exact near_of_onGrid hd.pos hc
  · next hhit =>
    -- the last grid of the search would have given something
    have hlast := List.findSome?_eq_none_iff.mp hhit 19 (by decide)
    have hsome := isSome_onGrid tie hd.pos (ten_zpow_topPlace_le hd)
    rw [Option.map_eq_none_iff, Nat.cast_ofNat] at hlast
    rw [hlast] at hsome
    cases hsome

end Decimal

end Scriptlet
