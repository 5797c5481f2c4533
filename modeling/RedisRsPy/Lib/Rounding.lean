/-
Rounding a positive rational to a binary floating-point format: to the nearest number with a significand of `p` bits and an
exponent not below `emin`, and of two equally near to the one with an even significand.

Results:
- `roundTies_shift`: the integer nearest to a shifted natural number;
- `le_nearest`, `nearest_le`: rounding does not pass an integer that the format holds;
- `nearest_dyadic`: the number nearest to `P * 2 ^ e`, by shifting `P`.
-/
import Mathlib.Data.Rat.Floor
import Mathlib.Data.Int.Log
import Mathlib.Tactic.Linarith
import Mathlib.Tactic.NormNum
import Mathlib.Tactic.Positivity
import Mathlib.Tactic.Ring

namespace Lib.Rounding

/-! ## To an integer -/

/-- the nearest integer, and of two equally near the even one -/
def roundTies (q : ℚ) : ℤ :=
  if Int.fract q < 1 / 2 then ⌊q⌋
  else if 1 / 2 < Int.fract q then ⌊q⌋ + 1
  else ⌊q⌋ + ⌊q⌋ % 2

theorem roundTies_cases (q : ℚ) : roundTies q = ⌊q⌋ ∨ roundTies q = ⌊q⌋ + 1 ∧ Int.fract q ≠ 0 := by
  unfold roundTies
  split_ifs with hlow hhigh
  · exact .inl rfl
  · exact .inr ⟨rfl, by linarith⟩
  · have hhalf : Int.fract q ≠ 0 := by
      intro hzero
      rw [hzero] at hlow
      norm_num at hlow
    rcases Int.emod_two_eq_zero_or_one ⌊q⌋ with hparity | hparity
    · exact .inl (by rw [hparity, add_zero])
    · exact .inr ⟨by rw [hparity], hhalf⟩

/-- rounding does not pass an integer -/
theorem le_roundTies {n : ℤ} {q : ℚ} (h : (n : ℚ) ≤ q) : n ≤ roundTies q := by
  have hfloor : n ≤ ⌊q⌋ := Int.le_floor.2 h
  rcases roundTies_cases q with hround | ⟨hround, -⟩ <;> omega

theorem roundTies_le {n : ℤ} {q : ℚ} (h : q ≤ (n : ℚ)) : roundTies q ≤ n := by
  rcases roundTies_cases q with hround | ⟨hround, hfract⟩
  · rw [hround]
    exact Int.cast_le.1 ((Int.floor_le q).trans h)
  · have hlt : ⌊q⌋ < n := by
      have hpos : 0 < Int.fract q := lt_of_le_of_ne (Int.fract_nonneg q) (Ne.symm hfract)
      have hsum := Int.floor_add_fract q
      exact Int.cast_lt.1 (by linarith : (⌊q⌋ : ℚ) < n)
    omega

/-- by the part of the natural number `P` below the position `n`, which is compared with half of that position -/
theorem roundTies_shift (P n : ℕ) :
    roundTies ((P : ℚ) / 2 ^ n) =
      if 2 * (P % 2 ^ n) < 2 ^ n then ((P / 2 ^ n : ℕ) : ℤ)
      else if 2 ^ n < 2 * (P % 2 ^ n) then ((P / 2 ^ n : ℕ) : ℤ) + 1
      else ((P / 2 ^ n : ℕ) : ℤ) + ((P / 2 ^ n : ℕ) : ℤ) % 2 := by
  have hpow : (0 : ℚ) < 2 ^ n := by positivity
  have hfloor : ⌊(P : ℚ) / 2 ^ n⌋ = ((P / 2 ^ n : ℕ) : ℤ) := by
    have h := Rat.floor_natCast_div_natCast P (2 ^ n)
    push_cast at h ⊢
    exact h
  have hfract : Int.fract ((P : ℚ) / 2 ^ n) = (P % 2 ^ n : ℕ) / 2 ^ n := by
    have hdiv : (P : ℚ) = 2 ^ n * (P / 2 ^ n : ℕ) + (P % 2 ^ n : ℕ) := by exact_mod_cast (Nat.div_add_mod P (2 ^ n)).symm
    rw [← Int.self_sub_floor, hfloor, eq_div_iff hpow.ne', sub_mul, div_mul_cancel₀ _ hpow.ne', Int.cast_natCast]
    linarith
  have hlow : Int.fract ((P : ℚ) / 2 ^ n) < 1 / 2 ↔ 2 * (P % 2 ^ n) < 2 ^ n := by
    rw [hfract, div_lt_div_iff₀ hpow two_pos, one_mul, mul_comm]
    exact_mod_cast Iff.rfl
  have hhigh : 1 / 2 < Int.fract ((P : ℚ) / 2 ^ n) ↔ 2 ^ n < 2 * (P % 2 ^ n) := by
    rw [hfract, div_lt_div_iff₀ two_pos hpow, one_mul, mul_comm]
    exact_mod_cast Iff.rfl
  unfold roundTies
  simp only [hlow, hhigh, hfloor]

/-! ## To a format -/

/-- the exponent of the last bit of the numbers around `x` -/
def grain (p : ℕ) (emin : ℤ) (x : ℚ) : ℤ := max (Int.log 2 x + 1 - p) emin

/-- the nearest number of the format, which has no largest one -/
def nearest (p : ℕ) (emin : ℤ) (x : ℚ) : ℚ := roundTies (x / 2 ^ grain p emin x) * 2 ^ grain p emin x

/-- the numbers of the format up to `2 ^ p` are spaced by one at most -/
theorem grain_nonpos {p : ℕ} {emin : ℤ} (hemin : emin ≤ 0) {x : ℚ} (hpos : 0 < x) (hx : x < 2 ^ p) :
    grain p emin x ≤ 0 := by
  have hlog : Int.log 2 x < p := (Int.lt_zpow_iff_log_lt one_lt_two hpos).1 (by exact_mod_cast hx)
  exact max_le (by omega) hemin

/-- an integer, in the unit of the last bit -/
theorem intCast_div_zpow {g : ℤ} (hg : g ≤ 0) (n : ℤ) : ((n * 2 ^ (-g).toNat : ℤ) : ℚ) = n / 2 ^ g := by
  have hexp : ((-g).toNat : ℤ) = -g := Int.toNat_of_nonneg (by omega)
  rw [Int.cast_mul, Int.cast_pow, div_eq_mul_inv, ← zpow_neg, ← hexp, zpow_natCast, Int.cast_two, Int.toNat_natCast]

theorem le_nearest {p : ℕ} {emin : ℤ} (hemin : emin ≤ 0) {x : ℚ} (hpos : 0 < x) (hx : x < 2 ^ p) {n : ℤ}
    (h : (n : ℚ) ≤ x) : (n : ℚ) ≤ nearest p emin x := by
  have hg := grain_nonpos hemin hpos hx
  have hpow : (0 : ℚ) < 2 ^ grain p emin x := zpow_pos two_pos _
  have hround : n * 2 ^ (-grain p emin x).toNat ≤ roundTies (x / 2 ^ grain p emin x) := by
    apply le_roundTies
    rw [intCast_div_zpow hg, div_le_div_iff_of_pos_right hpow]
    exact h
  have hcast : (n : ℚ) / 2 ^ grain p emin x ≤ roundTies (x / 2 ^ grain p emin x) := by
    rw [← intCast_div_zpow hg]
    exact_mod_cast hround
  exact (div_le_iff₀ hpow).1 hcast

theorem nearest_le {p : ℕ} {emin : ℤ} (hemin : emin ≤ 0) {x : ℚ} (hpos : 0 < x) (hx : x < 2 ^ p) {n : ℤ}
    (h : x ≤ (n : ℚ)) : nearest p emin x ≤ (n : ℚ) := by
  have hg := grain_nonpos hemin hpos hx
  have hpow : (0 : ℚ) < 2 ^ grain p emin x := zpow_pos two_pos _
  have hround : roundTies (x / 2 ^ grain p emin x) ≤ n * 2 ^ (-grain p emin x).toNat := by
    apply roundTies_le
    rw [intCast_div_zpow hg, div_le_div_iff_of_pos_right hpow]
    exact h
  have hcast : (roundTies (x / 2 ^ grain p emin x) : ℚ) ≤ n / 2 ^ grain p emin x := by
    rw [← intCast_div_zpow hg]
    exact_mod_cast hround
  exact (le_div_iff₀ hpow).1 hcast

/-- where the spacing is more than one, what is rounded keeps its leading bit -/
theorem zpow_log_le_nearest {p : ℕ} {emin : ℤ} {x : ℚ} (hpos : 0 < x) (hp : 0 < p) (hemin : emin ≤ Int.log 2 x) :
    (2 : ℚ) ^ Int.log 2 x ≤ nearest p emin x := by
  have hg : grain p emin x ≤ Int.log 2 x := max_le (by omega) hemin
  have hpow : (0 : ℚ) < 2 ^ grain p emin x := zpow_pos two_pos _
  have hexp : ((Int.log 2 x - grain p emin x).toNat : ℤ) = Int.log 2 x - grain p emin x := Int.toNat_of_nonneg (by omega)
  have hunit : ((2 ^ (Int.log 2 x - grain p emin x).toNat : ℤ) : ℚ) = 2 ^ Int.log 2 x / 2 ^ grain p emin x := by
    rw [← zpow_sub₀ two_ne_zero, ← hexp, zpow_natCast, Int.cast_pow, Int.cast_two, Int.toNat_natCast]
  have hround : (2 ^ (Int.log 2 x - grain p emin x).toNat : ℤ) ≤ roundTies (x / 2 ^ grain p emin x) := by
    apply le_roundTies
    rw [hunit, div_le_div_iff_of_pos_right hpow]
    exact_mod_cast Int.zpow_log_le_self one_lt_two hpos
  have hcast : (2 : ℚ) ^ Int.log 2 x / 2 ^ grain p emin x ≤ roundTies (x / 2 ^ grain p emin x) := by
    rw [← hunit]
    exact_mod_cast hround
  exact (div_le_iff₀ hpow).1 hcast

/-- the position of the leading bit -/
theorem log_dyadic {P : ℕ} (hP : P ≠ 0) (e : ℤ) : Int.log 2 ((P : ℚ) * 2 ^ e) = Nat.log2 P + e := by
  have hpos : (0 : ℚ) < P * 2 ^ e := by
    have hcast : (0 : ℚ) < P := by exact_mod_cast Nat.pos_of_ne_zero hP
    exact mul_pos hcast (zpow_pos two_pos e)
  have hlow : (2 : ℚ) ^ ((Nat.log2 P : ℤ) + e) ≤ P * 2 ^ e := by
    rw [zpow_add₀ two_ne_zero, zpow_natCast]
    refine mul_le_mul_of_nonneg_right ?_ (zpow_pos two_pos e).le
    exact_mod_cast Nat.log2_self_le hP
  have hhigh : (P : ℚ) * 2 ^ e < 2 ^ ((Nat.log2 P : ℤ) + e + 1) := by
    rw [show (Nat.log2 P : ℤ) + e + 1 = ((Nat.log2 P + 1 : ℕ) : ℤ) + e by push_cast; ring, zpow_add₀ two_ne_zero,
      zpow_natCast]
    refine mul_lt_mul_of_pos_right ?_ (zpow_pos two_pos e)
    exact_mod_cast Nat.lt_log2_self
  have hle := (Int.zpow_le_iff_le_log one_lt_two hpos).1 (by exact_mod_cast hlow)
  have hlt := (Int.lt_zpow_iff_log_lt one_lt_two hpos).1 (by exact_mod_cast hhigh)
  omega

/-- the number nearest to `P * 2 ^ e`, where `P` has to be shifted by `n` -/
theorem nearest_dyadic {p : ℕ} {emin : ℤ} {P : ℕ} (hP : P ≠ 0) {e : ℤ} {n : ℕ}
    (hn : max ((Nat.log2 P : ℤ) + e + 1 - p) emin = e + n) :
    nearest p emin (P * 2 ^ e) = roundTies ((P : ℚ) / 2 ^ n) * 2 ^ (e + n) := by
  have hgrain : grain p emin (P * 2 ^ e) = e + n := by rw [grain, log_dyadic hP, hn]
  have hshift : (P : ℚ) * 2 ^ e / 2 ^ (e + n) = P / 2 ^ n := by
    rw [zpow_add₀ two_ne_zero, zpow_natCast]
    field_simp
  rw [nearest, hgrain, hshift]

end Lib.Rounding
