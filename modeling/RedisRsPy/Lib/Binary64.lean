/-
`Float`, as the binary64 numbers: the value of a number, and what a product and a cast to `i64` are in terms of values.

`Float.Model` shifts the exact product of two significands to the format and keeps two more bits to round with; here these
steps are read as rational arithmetic.

Results:
- `roundedMantissa_shift`: the rounding of a shifted significand is the rounding to the nearest integer;
- `toInt64_mul`: a product of two positive numbers, cast to `i64`, is the exact product, rounded to the format, cut off to
  an integer, and kept in range.
-/
import Mathlib
import RedisRsPy.Lib.Rounding

namespace Lib.Binary64

open Float.Model Float.Model.UnpackedFloat Lib.Rounding

/-! ## Values -/

/-- the value of a number that is finite -/
def value : UnpackedFloat → Option ℚ
  | .finite s m e _ => some (s.apply m * 2 ^ e)
  | .zero _ => some 0
  | .infinity _ => none
  | .notANumber => none

theorem positive_of_value {u : UnpackedFloat} {q : ℚ} (h : value u = some q) (hq : 0 < q) :
    ∃ m e, ∃ hm : 0 < m, u = .finite .positive m e hm ∧ q = m * 2 ^ e := by
  cases u with
  | infinity s => cases h
  | notANumber => cases h
  | zero s =>
    obtain rfl := Option.some.inj h
    exact absurd hq (lt_irrefl 0)
  | finite s m e hm =>
    obtain rfl := Option.some.inj h
    cases s with
    | positive => exact ⟨m, e, hm, rfl, by simp [Sign.apply]⟩
    | negative =>
      have hneg : ((Sign.negative.apply m : ℤ) : ℚ) * 2 ^ e ≤ 0 :=
        mul_nonpos_of_nonpos_of_nonneg (by simp [Sign.apply]) (zpow_pos two_pos e).le
      exact absurd hq (not_lt.2 hneg)

/-! ## Shifting -/

/-- a significand after a shift by `n`: the bits that are left, the one before them, and whether another one was set -/
theorem shiftRight_eq (P n : ℕ) :
    ((⟨P, false, false⟩ : ExtendedMantissa) >>> n) =
      ⟨P / 2 ^ n, decide (2 ^ n ≤ 2 * (P % 2 ^ n)), decide (2 * (P % 2 ^ n) % 2 ^ n ≠ 0)⟩ := by
  induction n with
  | zero => simp [HShiftRight.hShiftRight, Nat.repeat, Nat.mod_one]
  | succ n ih =>
    have hstep : ((⟨P, false, false⟩ : ExtendedMantissa) >>> (n + 1)) =
        ((⟨P, false, false⟩ : ExtendedMantissa) >>> n).shiftRightOne := rfl
    have hmod : P % 2 ^ (n + 1) = P % 2 ^ n + 2 ^ n * (P / 2 ^ n % 2) := by rw [pow_succ, Nat.mod_mul]
    have hlt : P % 2 ^ n < 2 ^ n := Nat.mod_lt _ (by positivity)
    have hdouble : 2 * (P % 2 ^ (n + 1)) % 2 ^ (n + 1) = 2 * (P % 2 ^ n) := by
      rw [pow_succ', Nat.mul_mod_mul_left, ← pow_succ', hmod, Nat.add_mul_mod_self_left, Nat.mod_mod]
    rw [hstep, ih, hdouble]
    have hround : (P / 2 ^ n % 2 != 0) = decide (2 ^ (n + 1) ≤ 2 * (P % 2 ^ (n + 1))) := by
      rw [hmod, pow_succ']
      rcases Nat.mod_two_eq_zero_or_one (P / 2 ^ n) with hbit | hbit
      · simp [hbit, hlt]
      · simp [hbit]
    have hsticky : (decide (2 ^ n ≤ 2 * (P % 2 ^ n)) || decide (2 * (P % 2 ^ n) % 2 ^ n ≠ 0)) =
        decide (2 * (P % 2 ^ n) ≠ 0) := by
      by_cases hzero : P % 2 ^ n = 0
      · simp [hzero]
      · by_cases hhalf : 2 ^ n ≤ 2 * (P % 2 ^ n)
        · simp [hhalf, hzero]
        · simp [hhalf, hzero, Nat.mod_eq_of_lt (not_le.1 hhalf)]
    simp only [ExtendedMantissa.shiftRightOne, hround, hsticky, Nat.div_div_eq_div_mul, ← pow_succ]

theorem roundedMantissa_shift (P n : ℕ) :
    ((((⟨P, false, false⟩ : ExtendedMantissa) >>> n).roundedMantissa : ℕ) : ℤ) = roundTies ((P : ℚ) / 2 ^ n) := by
  have hlt : P % 2 ^ n < 2 ^ n := Nat.mod_lt _ (by positivity)
  rw [shiftRight_eq, roundTies_shift]
  by_cases hlow : 2 * (P % 2 ^ n) < 2 ^ n
  · have hkeep : ∀ sticky, (⟨P / 2 ^ n, false, sticky⟩ : ExtendedMantissa).roundedMantissa = P / 2 ^ n := by
      rintro (_ | _) <;> rfl
    rw [decide_eq_false (not_le.2 hlow), hkeep, if_pos hlow]
  · rw [decide_eq_true (not_lt.1 hlow), if_neg hlow]
    have hrest : 2 * (P % 2 ^ n) % 2 ^ n = 2 * (P % 2 ^ n) - 2 ^ n := by
      rw [Nat.mod_eq_sub_mod (not_lt.1 hlow), Nat.mod_eq_of_lt (by omega)]
    rw [hrest]
    by_cases hhigh : 2 ^ n < 2 * (P % 2 ^ n)
    · have hsticky : 2 * (P % 2 ^ n) - 2 ^ n ≠ 0 := by omega
      rw [decide_eq_true hsticky, if_pos hhigh]
      rfl
    · have hsticky : ¬ 2 * (P % 2 ^ n) - 2 ^ n ≠ 0 := by omega
      rw [decide_eq_false hsticky, if_neg hhigh]
      rfl

/-- the shift that brings `P * 2 ^ e` to the format -/
def Shift (P : ℕ) (e : ℤ) (n : ℕ) : Prop := max ((Nat.log2 P : ℤ) + e + 1 - 53) (-1074) = e + n

theorem shiftToTargetExponent_eq {P : ℕ} {e : ℤ} {n : ℕ} (hn : Shift P e n) :
    shiftToTargetExponent Format.binary64 P e .exact = ((⟨P, false, false⟩ : ExtendedMantissa) >>> n, e + n) := by
  have htarget : Format.binary64.targetExponent (totalExponent P e) = e + n := by
    rw [← hn]
    simp only [Format.targetExponent, totalExponent, Format.mantissaBits, Format.minExponent]
    norm_num
    ring_nf
  have hshift : (e + n - e).toNat = n := by omega
  simp only [shiftToTargetExponent, shiftToExponent, htarget, hshift, ExtendedMantissa.ofMantissaAndAccuracy]

/-- a number that is of the format -/
structure Canonical (M : ℕ) (X : ℤ) : Prop where
  bits : M < 2 ^ 53
  low : -1074 ≤ X
  leading : 2 ^ 52 ≤ M ∨ X = -1074

/-- a significand of the format is not shifted -/
theorem Canonical.shift {M : ℕ} {X : ℤ} (h : Canonical M X) (hM : M ≠ 0) : Shift M X 0 := by
  have hlow := h.low
  have hlog : Nat.log2 M < 53 := (Nat.log2_lt hM).2 h.bits
  unfold Shift
  rcases h.leading with hleading | hleading
  · have hge : 52 ≤ Nat.log2 M := (Nat.le_log2 hM).2 hleading
    omega
  · omega

/-! ## Rounding -/

/-- what is rounded has 53 bits, or is the power of two after them -/
theorem rounded_bounds {P : ℕ} (hP : P ≠ 0) {e : ℤ} {n : ℕ} (hn : Shift P e n) {R : ℕ}
    (hR : (R : ℤ) = roundTies ((P : ℚ) / 2 ^ n)) : R ≤ 2 ^ 53 ∧ (2 ^ 52 ≤ R ∨ e + n = -1074) := by
  unfold Shift at hn
  have hpow : (0 : ℚ) < 2 ^ n := by positivity
  have hlog : Nat.log2 P < 53 + n := by omega
  have hbits : P < 2 ^ 53 * 2 ^ n := pow_add 2 53 n ▸ (Nat.log2_lt hP).1 hlog
  have hle : roundTies ((P : ℚ) / 2 ^ n) ≤ 2 ^ 53 := by
    apply roundTies_le
    rw [div_le_iff₀ hpow]
    exact_mod_cast hbits.le
  refine ⟨by omega, ?_⟩
  by_cases hmin : e + n = -1074
  · exact .inr hmin
  · have hge : 52 + n ≤ Nat.log2 P := by omega
    have hleading : 2 ^ 52 * 2 ^ n ≤ P := pow_add 2 52 n ▸ (Nat.le_log2 hP).1 hge
    have hround : (2 ^ 52 : ℤ) ≤ roundTies ((P : ℚ) / 2 ^ n) := by
      apply le_roundTies
      rw [le_div_iff₀ hpow]
      exact_mod_cast hleading
    exact .inl (by omega)

/-- the result of rounding `P * 2 ^ e`: nothing, or a number of the format whose value is the nearest one -/
theorem roundWithAccuracy_spec (s : Sign) {P : ℕ} (hP : P ≠ 0) {e : ℤ} {n : ℕ} (hn : Shift P e n) :
    (nearest 53 (-1074) (P * 2 ^ e) = 0 ∧ roundWithAccuracy Format.binary64 s P e .exact = .zero s) ∨
      ∃ M X, ∃ hM : 0 < M, Canonical M X ∧ nearest 53 (-1074) (P * 2 ^ e) = M * 2 ^ X ∧
        roundWithAccuracy Format.binary64 s P e .exact = .finite s M X hM := by
  have hnearest := nearest_dyadic (p := 53) hP (by exact_mod_cast hn)
  obtain ⟨R, hRdef⟩ : ∃ R, ((⟨P, false, false⟩ : ExtendedMantissa) >>> n).roundedMantissa = R := ⟨_, rfl⟩
  have hR : (R : ℤ) = roundTies ((P : ℚ) / 2 ^ n) := by rw [← hRdef, roundedMantissa_shift]
  have hcast : (roundTies ((P : ℚ) / 2 ^ n) : ℚ) = R := by rw [← hR, Int.cast_natCast]
  obtain ⟨hbits, hleading⟩ := rounded_bounds hP hn hR
  have hlow : -1074 ≤ e + n := by
    unfold Shift at hn
    omega
  have hround : ∀ {em : ExtendedMantissa} {X : ℤ},
      shiftToTargetExponent Format.binary64 R (e + n) .exact = (em, X) →
        roundWithAccuracy Format.binary64 s P e .exact =
          if h : em.mantissa = 0 then .zero s else .finite s em.mantissa X (Nat.pos_of_ne_zero h) := by
    intro em X hsecond
    simp only [roundWithAccuracy, shiftToTargetExponent_eq hn, hRdef, hsecond]
  rw [hnearest, hcast]
  by_cases hzero : R = 0
  · refine .inl ⟨by rw [hzero, Nat.cast_zero, zero_mul], ?_⟩
    have hshift : Shift R (e + n) 0 := by
      unfold Shift
      rw [hzero]
      have hlog : Nat.log2 0 = 0 := by decide
      omega
    rw [hround (shiftToTargetExponent_eq hshift)]
    exact dif_pos hzero
  · by_cases hcarry : R = 2 ^ 53
    · -- the carry of the rounding is shifted out once more
      have hshift : Shift R (e + n) 1 := by
        have hlog : Nat.log2 R = 53 := by rw [hcarry, Nat.log2_two_pow]
        unfold Shift
        omega
      have hvalue : (R : ℚ) * 2 ^ (e + n) = ((2 ^ 52 : ℕ) : ℚ) * 2 ^ (e + n + 1) := by
        rw [hcarry, zpow_add₀ two_ne_zero (e + n) 1]
        push_cast
        ring
      refine .inr ⟨2 ^ 52, e + n + 1, by positivity, ⟨by norm_num, by omega, .inl le_rfl⟩, hvalue, ?_⟩
      rw [hround (shiftToTargetExponent_eq hshift), hcarry]
      rfl
    · have hcanonical : Canonical R (e + n) := ⟨lt_of_le_of_ne hbits hcarry, hlow, hleading⟩
      refine .inr ⟨R, e + n, Nat.pos_of_ne_zero hzero, hcanonical, rfl, ?_⟩
      rw [hround (shiftToTargetExponent_eq (hcanonical.shift hzero))]
      exact (dif_neg hzero).trans (by simp; rfl)

/-! ## Bits -/

theorem unpackSign_packComponents {spec : Format} {sign : Sign} {exponent : BitVec spec.exponentBits}
    {mantissa : BitVec spec.mantissaBitsWithoutImplicit} :
    unpackSign (packComponents spec sign exponent mantissa) = sign.toBitVec := by
  ext i hi
  obtain rfl : i = 0 := by omega
  have hoff : spec.mantissaBitsWithoutImplicit + spec.exponentBits - spec.mantissaBitsWithoutImplicit =
      spec.exponentBits := by omega
  simp [unpackSign, packComponents, BitVec.getLsbD_append, BitVec.getElem_append, hoff]

theorem ofBitVec_toBitVec (s : Sign) : Sign.ofBitVec s.toBitVec = s := by
  cases s <;> rfl

theorem finite_congr {s : Sign} {M M' : ℕ} {X X' : ℤ} {hM : 0 < M} {hM' : 0 < M'} (h : M = M') (hX : X = X') :
    UnpackedFloat.finite s M X hM = .finite s M' X' hM' := by
  subst h hX
  rfl

/-- the bits of a number of the format hold it, up to the largest one -/
theorem unpack_pack {M : ℕ} {X : ℤ} (hM : 0 < M) (h : Canonical M X) :
    UnpackedFloat.unpack Format.binary64 (UnpackedFloat.pack Format.binary64 (.finite .positive M X hM)) =
      if 971 < X then .infinity .positive else .finite .positive M X hM := by
  have hlow := h.low
  have hbits := h.bits
  have hbias : Format.binary64.exponentBias = 1023 := rfl
  have hmantissa : Format.binary64.mantissaBits = 53 := rfl
  unfold UnpackedFloat.pack
  rw [hbias, hmantissa]
  by_cases hlarge : 971 < X
  · have hover : 2 ^ 11 ≤ (X + (1023 : ℕ) + (52 : ℕ)).toNat + 1 := by omega
    simp only [hover, if_true, hlarge, packedInfinity, UnpackedFloat.unpack, unpackMantissa_packComponents,
      unpackExponent_packComponents, unpackSign_packComponents, ofBitVec_toBitVec]
    rfl
  · obtain ⟨b, hb⟩ : ∃ b : ℕ, (X + (1023 : ℕ) + (52 : ℕ)).toNat = b := ⟨_, rfl⟩
    have hfits : ¬ 2 ^ 11 ≤ b + 1 := by omega
    have hexponent : (BitVec.ofNat 11 b).toNat = b := by
      rw [BitVec.toNat_ofNat, Nat.mod_eq_of_lt (by omega)]
    have htop : BitVec.ofNat 11 b ≠ -1#11 := fun hbad => by
      have := congrArg BitVec.toNat hbad
      rw [hexponent] at this
      have hone : (-1#11).toNat = 2047 := by decide
      omega
    simp only [hb, hfits, if_false, hlarge]
    by_cases hnormal : 2 ^ 52 ≤ M
    · have hlog : M.log2 + 1 = 53 := by
        have hlt := (Nat.log2_lt hM.ne').2 hbits
        have hge := (Nat.le_log2 hM.ne').2 hnormal
        omega
      have hzero : BitVec.ofNat 11 b ≠ 0#11 := fun hbad => by
        have := congrArg BitVec.toNat hbad
        rw [hexponent] at this
        have hnone : (0#11).toNat = 0 := by decide
        omega
      have hsignificand : (1#1 ++ BitVec.ofNat 52 M).toNat = M := by
        have hrest : M % 2 ^ 52 < 2 ^ 52 := Nat.mod_lt _ (by positivity)
        have hone : (1#1).toNat <<< 52 = 2 ^ 52 * 1 := by decide
        rw [BitVec.toNat_append, hone, BitVec.toNat_ofNat, ← Nat.two_pow_add_eq_or_of_lt hrest]
        omega
      simp only [hlog, if_true, UnpackedFloat.unpack, unpackMantissa_packComponents,
        unpackExponent_packComponents, unpackSign_packComponents, ofBitVec_toBitVec, htop, hzero, if_false]
      exact finite_congr hsignificand (by rw [hexponent, hbias]; omega)
    · have hsub : X = -1074 := h.leading.resolve_left hnormal
      have hlog : ¬ M.log2 + 1 = 53 := fun hbad => hnormal ((Nat.le_log2 hM.ne').1 (by omega))
      have hsignificand : (BitVec.ofNat 52 M).toNat = M := by
        rw [BitVec.toNat_ofNat, Nat.mod_eq_of_lt (by omega)]
      have hnonzero : BitVec.ofNat 52 M ≠ 0#52 := fun hbad => by
        have := congrArg BitVec.toNat hbad
        rw [hsignificand] at this
        have hnone : (0#52).toNat = 0 := by decide
        omega
      have hzero : (0#11 : BitVec 11) ≠ -1#11 := by decide
      simp only [hlog, if_false, UnpackedFloat.unpack, unpackMantissa_packComponents, unpackExponent_packComponents,
        unpackSign_packComponents, ofBitVec_toBitVec, hzero, if_true, hnonzero, dite_false]
      exact finite_congr hsignificand (by rw [hbias, hsub]; rfl)
/-! ## Casting to `i64` -/

theorem roundToInt_eq (M : ℕ) (X : ℤ) : roundToInt .positive M X = ⌊(M : ℚ) * 2 ^ X⌋ := by
  have hshift : ∀ (P n : ℕ), (((⟨P, false, false⟩ : ExtendedMantissa) >>> n).mantissa : ℕ) = P / 2 ^ n := fun P n => by
    rw [shiftRight_eq]
  simp only [roundToInt, decreaseExponent, shiftToExponent, ExtendedMantissa.ofMantissaAndAccuracy, hshift, Sign.apply,
    sub_zero]
  rcases le_or_gt 0 X with hX | hX
  · obtain ⟨k, rfl⟩ := Int.eq_ofNat_of_zero_le hX
    have hint : (M : ℚ) * 2 ^ (k : ℤ) = ((M * 2 ^ k : ℕ) : ℚ) := by
      rw [zpow_natCast]
      push_cast
      rfl
    rw [hint, Int.floor_natCast]
    simp [Nat.shiftLeft_eq]
  · obtain ⟨n, hn⟩ : ∃ n : ℕ, X = -(n : ℤ) := ⟨(-X).toNat, by omega⟩
    have hdiv : (M : ℚ) * 2 ^ X = (M : ℚ) / ((2 ^ n : ℕ) : ℚ) := by
      rw [hn, zpow_neg, zpow_natCast, div_eq_mul_inv]
      push_cast
      rfl
    have hnone : X.toNat = 0 := by omega
    have hall : (0 - (X - ((X.toNat : ℕ) : ℤ))).toNat = n := by omega
    rw [hall, hnone, hdiv, Rat.floor_natCast_div_natCast, Nat.shiftLeft_zero, Int.natCast_ediv]

/-- the cast keeps to the range of `i64` -/
theorem toInt_ofIntClamp {z : ℤ} (hz : 0 ≤ z) : (Int64.ofIntClamp z).toInt = min z (2 ^ 63 - 1) := by
  have hmin : Int64.minValue.toInt = -2 ^ 63 := by decide
  have hmax : Int64.maxValue.toInt = 2 ^ 63 - 1 := by decide
  rcases le_or_gt z (2 ^ 63 - 1) with hle | hgt
  · rw [Int64.toInt_ofIntClamp (by omega) (by omega), min_eq_left hle]
  · unfold Int64.ofIntClamp
    rw [dif_pos (by omega), dif_neg (by omega), hmax, min_eq_right hgt.le]

/-- a product of two positive numbers, the second with all its bits, cast to `i64` -/
theorem toInt64_mul {f g : Float} {m₁ m₂ : ℕ} {e₁ e₂ : ℤ} {hm₁ : 0 < m₁} {hm₂ : 0 < m₂}
    (hf : f.toModel.unpack = .finite .positive m₁ e₁ hm₁) (hg : g.toModel.unpack = .finite .positive m₂ e₂ hm₂)
    (hbits : 2 ^ 52 ≤ m₂) :
    (f * g).toModel.toInt64.toInt =
      min ⌊nearest 53 (-1074) ((m₁ : ℚ) * 2 ^ e₁ * ((m₂ : ℚ) * 2 ^ e₂))⌋ (2 ^ 63 - 1) := by
  have hproduct : (m₁ : ℚ) * 2 ^ e₁ * ((m₂ : ℚ) * 2 ^ e₂) = ((m₁ * m₂ : ℕ) : ℚ) * 2 ^ (e₁ + e₂) := by
    rw [zpow_add₀ two_ne_zero]
    push_cast
    ring
  have hP : m₁ * m₂ ≠ 0 := (Nat.mul_pos hm₁ hm₂).ne'
  obtain ⟨n, hn⟩ : ∃ n, Shift (m₁ * m₂) (e₁ + e₂) n := by
    have hlog : 52 ≤ Nat.log2 (m₁ * m₂) := (Nat.le_log2 hP).2 (hbits.trans (Nat.le_mul_of_pos_left m₂ hm₁))
    unfold Shift
    exact ⟨(max ((Nat.log2 (m₁ * m₂) : ℤ) + (e₁ + e₂) + 1 - 53) (-1074) - (e₁ + e₂)).toNat, by omega⟩
  have hmul : (f * g).toModel.toInt64 = (Float.Model.pack (roundWithAccuracy Format.binary64 .positive (m₁ * m₂) (e₁ + e₂)
      .exact)).unpack.toInt64 := by
    show (Float.Model.pack (UnpackedFloat.mul Format.binary64 f.toModel.unpack g.toModel.unpack)).unpack.toInt64 = _
    rw [hf, hg]
    rfl
  have hpacked : ∀ u, (Float.Model.pack u).unpack =
      UnpackedFloat.unpack Format.binary64 (UnpackedFloat.pack Format.binary64 u) := fun _ => rfl
  rw [hmul, hproduct, hpacked]
  rcases roundWithAccuracy_spec .positive hP hn with ⟨hzero, hround⟩ | ⟨M, X, hM, hcanonical, hvalue, hround⟩
  · rw [hround, hzero]
    have hnone : (UnpackedFloat.unpack Format.binary64 (UnpackedFloat.pack Format.binary64 (.zero .positive))).toInt64.toInt =
        0 := by decide
    rw [hnone]
    norm_num
  · rw [hround, hvalue, unpack_pack hM hcanonical]
    by_cases hlarge : 971 < X
    · rw [if_pos hlarge]
      have htop : (UnpackedFloat.infinity .positive).toInt64.toInt = 2 ^ 63 - 1 := by decide
      have hbeyond : (2 ^ 63 - 1 : ℤ) ≤ ⌊(M : ℚ) * 2 ^ X⌋ := by
        have hpow : (2 : ℚ) ^ (63 : ℤ) ≤ 2 ^ X := zpow_le_zpow_right₀ one_le_two (by omega)
        have hone : (1 : ℚ) ≤ M := by exact_mod_cast hM
        have hmul := mul_le_mul hone hpow (by norm_num) (by linarith)
        apply Int.le_floor.2
        norm_num at hmul ⊢
        linarith
      rw [htop, min_eq_right hbeyond]
    · rw [if_neg hlarge]
      show (Int64.ofIntClamp (roundToInt .positive M X)).toInt = _
      have hnonneg : 0 ≤ (M : ℚ) * 2 ^ X := mul_nonneg (Nat.cast_nonneg M) (zpow_pos two_pos X).le
      rw [roundToInt_eq, toInt_ofIntClamp (Int.floor_nonneg.2 hnonneg)]

end Lib.Binary64
