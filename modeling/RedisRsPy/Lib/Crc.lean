/-
Cyclic redundancy checks without reflection: the shift register and the polynomial remainder.

A word of `w` bits is read as a polynomial over the field of two elements, bit `i` being the coefficient of `X ^ i`. The
register shifts left, and subtracts the generator when a one falls out; bytes enter at its high end.

- `poly_shiftStep`: one shift is multiplication by `X`, modulo the generator;
- `poly_foldl`: a message takes a register to the remainder of the two, the register moved up by the message;
- `poly_crc`: the register after a message is the remainder of `X ^ w` times the message. It is the definition of the
  check, so any implementation that computes the register computes the check;
- `message_eq`: the message is the polynomial of its bits, the most significant of each byte first;
- `byteStep_eq_tableStep`: eight shifts are one look-up in a table of the checks of single bytes.
-/
import Mathlib.Algebra.Polynomial.Div
import Mathlib.Algebra.CharP.Two
import Mathlib.Algebra.Field.ZMod

namespace Lib.Crc

open Polynomial

variable {w : ℕ}

/-! ## Words as polynomials -/

noncomputable def poly (v : BitVec w) : (ZMod 2)[X] :=
  ∑ i ∈ Finset.range w, if v.getLsbD i then X ^ i else 0

theorem coeff_poly (v : BitVec w) (n : ℕ) : (poly v).coeff n = if v.getLsbD n then 1 else 0 := by
  have hterm : ∀ i, (if v.getLsbD i then X ^ i else (0 : (ZMod 2)[X])).coeff n =
      if n = i then (if v.getLsbD n then 1 else 0) else 0 := by
    intro i
    by_cases hni : n = i
    · subst hni
      split_ifs <;> simp_all
    · split_ifs <;> simp [coeff_X_pow, hni]
  rw [poly, finsetSum_coeff, Finset.sum_congr rfl fun i _ => hterm i, Finset.sum_ite_eq]
  by_cases hn : n < w
  · simp [hn]
  · simp [hn, BitVec.getLsbD_of_ge v n (not_lt.1 hn)]

theorem degree_poly_lt (v : BitVec w) : (poly v).degree < w := by
  rw [degree_lt_iff_coeff_zero]
  intro m hm
  rw [coeff_poly, BitVec.getLsbD_of_ge v m hm]
  rfl

@[simp] theorem poly_zero : poly (0#w) = 0 := by
  ext n
  simp [coeff_poly]

@[simp] theorem poly_xor (a b : BitVec w) : poly (a ^^^ b) = poly a + poly b := by
  ext n
  rw [coeff_add, coeff_poly, coeff_poly, coeff_poly, BitVec.getLsbD_xor]
  cases a.getLsbD n <;> cases b.getLsbD n <;> decide

/-- a shift by one multiplies by `X`, up to the bit that falls out -/
theorem poly_shiftLeft_one (v : BitVec (w + 1)) :
    X * poly v = poly (v <<< 1) + if v.msb then X ^ (w + 1) else 0 := by
  ext n
  rw [coeff_add, coeff_poly, BitVec.getLsbD_shiftLeft, BitVec.msb_eq_getLsbD_last]
  cases n with
  | zero => split_ifs <;> simp_all
  | succ n =>
    rw [coeff_X_mul, coeff_poly]
    by_cases hn : n = w
    · subst hn
      have hlast : v.getLsbD (n + 1 - 1) = v.getLsbD n := rfl
      have hout : ¬ n + 1 < n + 1 := lt_irrefl _
      rw [hlast]
      cases v.getLsbD n with
      | false => simp only [hout, decide_false, Bool.false_and, Bool.false_eq_true, if_false, coeff_zero, add_zero]
      | true =>
        simp only [hout, decide_false, Bool.false_and, Bool.false_eq_true, if_true, if_false, coeff_X_pow_self, zero_add]
    · have hlt : (n + 1 < w + 1) = (n < w + 1) := by
        by_cases h : n < w + 1
        · simp only [h, eq_iff_iff, iff_true]; omega
        · simp only [h, eq_iff_iff, iff_false]; omega
      have hX : (if v.getLsbD (w + 1 - 1) then (X : (ZMod 2)[X]) ^ (w + 1) else 0).coeff (n + 1) = 0 := by
        split_ifs
        · rw [coeff_X_pow, if_neg (by omega)]
        · simp
      rw [hX, add_zero]
      by_cases h : n < w + 1
      · simp [hlt, h]
      · simp [BitVec.getLsbD_of_ge v n (not_lt.1 h)]

/-- a byte moved to the high end -/
theorem poly_setWidth_shiftLeft (b : BitVec 8) (n : ℕ) (hn : n + 8 = w) :
    poly (b.setWidth w <<< n) = X ^ n * poly b := by
  ext m
  rw [coeff_poly, BitVec.getLsbD_shiftLeft, BitVec.getLsbD_setWidth, coeff_X_pow_mul', coeff_poly]
  by_cases hm : n ≤ m
  · by_cases hb : m - n < 8
    · have h1 : m < w := by omega
      have h2 : m - n < w := by omega
      simp [hm, h1, h2]
    · simp [hm, BitVec.getLsbD_of_ge b (m - n) (not_lt.1 hb)]
  · simp [hm, not_le.1 hm]

/-! ## The register -/

/-- one shift, with the generator's low bits `p` -/
def shiftStep (p v : BitVec w) : BitVec w := if v.msb then (v <<< 1) ^^^ p else v <<< 1

/-- a byte enters at the high end, then eight shifts -/
def byteStep (p v : BitVec w) (b : BitVec 8) : BitVec w := (shiftStep p)^[8] (v ^^^ (b.setWidth w <<< (w - 8)))

/-- the register after a message, from zero -/
def crc (p : BitVec w) (data : List (BitVec 8)) : BitVec w := data.foldl (byteStep p) 0

/-! ## The remainder -/

/-- the generator: `X ^ w` and its low bits -/
noncomputable def generator (p : BitVec w) : (ZMod 2)[X] := X ^ w + poly p

/-- a message as a polynomial, first byte highest -/
noncomputable def message (data : List (BitVec 8)) : (ZMod 2)[X] :=
  data.foldl (fun m b => X ^ 8 * m + poly b) 0

theorem monic_generator (p : BitVec w) : (generator p).Monic :=
  monic_X_pow_add (degree_poly_lt p)

theorem degree_generator (p : BitVec w) : (generator p).degree = w := by
  rw [generator, degree_add_eq_left_of_degree_lt] <;> rw [degree_X_pow]
  exact degree_poly_lt p

/-- two polynomials leave the same remainder -/
def Congr (p : BitVec w) (a b : (ZMod 2)[X]) : Prop := generator p ∣ a - b

theorem Congr.refl (p : BitVec w) (a : (ZMod 2)[X]) : Congr p a a := by
  simp [Congr]

theorem Congr.trans {p : BitVec w} {a b c : (ZMod 2)[X]} (h : Congr p a b) (h' : Congr p b c) : Congr p a c := by
  have hsum := dvd_add h h'
  rwa [sub_add_sub_cancel] at hsum

theorem Congr.mul {p : BitVec w} {a b : (ZMod 2)[X]} (q : (ZMod 2)[X]) (h : Congr p a b) : Congr p (q * a) (q * b) := by
  rw [Congr, ← mul_sub]
  exact h.mul_left q

theorem Congr.add {p : BitVec w} {a b : (ZMod 2)[X]} (q : (ZMod 2)[X]) (h : Congr p a b) : Congr p (a + q) (b + q) := by
  rwa [Congr, add_sub_add_right_eq_sub]

/-- a word congruent to `a` is the remainder of `a` -/
theorem Congr.remainder {p : BitVec w} {v : BitVec w} {a : (ZMod 2)[X]} (h : Congr p (poly v) a) :
    poly v = a %ₘ generator p := by
  have hv : poly v %ₘ generator p = poly v :=
    (modByMonic_eq_self_iff (monic_generator p)).2 (by rw [degree_generator]; exact degree_poly_lt v)
  rw [← hv, ← sub_eq_zero, ← sub_modByMonic, (modByMonic_eq_zero_iff_dvd (monic_generator p)).2 h]

/-- **One shift multiplies by `X`** -/
theorem poly_shiftStep (p v : BitVec (w + 1)) : Congr p (poly (shiftStep p v)) (X * poly v) := by
  rw [poly_shiftLeft_one, shiftStep]
  split_ifs with h
  · refine ⟨1, ?_⟩
    rw [poly_xor, generator, mul_one, CharTwo.sub_eq_add]
    calc poly (v <<< 1) + poly p + (poly (v <<< 1) + X ^ (w + 1))
        = (poly (v <<< 1) + poly (v <<< 1)) + (X ^ (w + 1) + poly p) := by ring
      _ = X ^ (w + 1) + poly p := by rw [CharTwo.add_self_eq_zero, zero_add]
  · rw [add_zero]
    exact Congr.refl p _

theorem poly_shiftStep_iterate (p v : BitVec (w + 1)) (n : ℕ) :
    Congr p (poly ((shiftStep p)^[n] v)) (X ^ n * poly v) := by
  induction n with
  | zero => simpa using Congr.refl p (poly v)
  | succ n ih =>
    rw [Function.iterate_succ_apply', pow_succ', mul_assoc]
    exact (poly_shiftStep p _).trans (ih.mul X)

theorem poly_byteStep (p v : BitVec (w + 1)) (hw : 8 ≤ w + 1) (b : BitVec 8) :
    Congr p (poly (byteStep p v b)) (X ^ 8 * poly v + X ^ (w + 1) * poly b) := by
  have h := poly_shiftStep_iterate p (v ^^^ (b.setWidth (w + 1) <<< (w + 1 - 8))) 8
  rw [poly_xor, poly_setWidth_shiftLeft b (w + 1 - 8) (by omega), mul_add, ← mul_assoc, ← pow_add,
    Nat.add_sub_cancel' hw] at h
  exact h

theorem poly_foldl_congr (p v : BitVec (w + 1)) (hw : 8 ≤ w + 1) (data : List (BitVec 8)) :
    Congr p (poly (data.foldl (byteStep p) v)) (X ^ (8 * data.length) * poly v + X ^ (w + 1) * message data) := by
  induction data using List.reverseRecOn with
  | nil => simpa [message] using Congr.refl p (poly v)
  | append_singleton data b ih =>
    have hstep := poly_byteStep p (data.foldl (byteStep p) v) hw b
    have hmsg : X ^ (8 * (data ++ [b]).length) * poly v + X ^ (w + 1) * message (data ++ [b]) =
        X ^ 8 * (X ^ (8 * data.length) * poly v + X ^ (w + 1) * message data) + X ^ (w + 1) * poly b := by
      simp only [message, List.foldl_append, List.foldl_cons, List.foldl_nil, List.length_append, List.length_singleton]
      ring
    rw [List.foldl_append, List.foldl_cons, List.foldl_nil, hmsg]
    exact hstep.trans ((ih.mul (X ^ 8)).add _)

/-- **Going on from a register.** What a message makes of a register is the remainder of both, moved apart. -/
theorem poly_foldl (p v : BitVec (w + 1)) (hw : 8 ≤ w + 1) (data : List (BitVec 8)) :
    poly (data.foldl (byteStep p) v) =
      (X ^ (8 * data.length) * poly v + X ^ (w + 1) * message data) %ₘ generator p :=
  (poly_foldl_congr p v hw data).remainder

/-- **The register is the remainder.** -/
theorem poly_crc (p : BitVec (w + 1)) (hw : 8 ≤ w + 1) (data : List (BitVec 8)) :
    poly (crc p data) = (X ^ (w + 1) * message data) %ₘ generator p := by
  have hfold := poly_foldl p 0#(w + 1) hw data
  rw [poly_zero, mul_zero, zero_add] at hfold
  exact hfold

/-! ## Bits -/

/-- the bits of a message, the most significant of each byte first -/
def bits (data : List (BitVec 8)) : List Bool := data.flatMap fun b => List.ofFn fun i : Fin 8 => b.getMsbD i

/-- bits as a polynomial, the highest power first -/
noncomputable def ofBits : List Bool → (ZMod 2)[X]
  | [] => 0
  | b :: l => (if b then X ^ l.length else 0) + ofBits l

theorem ofBits_append (l m : List Bool) : ofBits (l ++ m) = X ^ m.length * ofBits l + ofBits m := by
  induction l with
  | nil => simp [ofBits]
  | cons b l ih =>
    rw [List.cons_append, ofBits, ofBits, ih, List.length_append, pow_add]
    split_ifs
    · ring
    · ring

theorem ofBits_byte (b : BitVec 8) : ofBits (List.ofFn fun i : Fin 8 => b.getMsbD i) = poly b := by
  have hmsb : ∀ i < 8, b.getMsbD i = b.getLsbD (7 - i) := by
    intro i hi
    rw [BitVec.getMsbD_eq_getLsbD, decide_eq_true hi, Bool.true_and]
  simp [List.ofFn_succ, ofBits, poly, Finset.sum_range_succ, hmsb]
  ring

/-- **A message is the polynomial of its bits** -/
theorem message_eq (data : List (BitVec 8)) : message data = ofBits (bits data) := by
  induction data using List.reverseRecOn with
  | nil => rfl
  | append_singleton data b ih =>
    have hbits : bits (data ++ [b]) = bits data ++ List.ofFn fun i : Fin 8 => b.getMsbD i := by
      simp [bits]
    rw [hbits, ofBits_append, List.length_ofFn, ofBits_byte, ← ih, message, List.foldl_append]
    rfl

/-! ## Tables -/

/-- a shift is additive -/
theorem shiftStep_xor (p a b : BitVec w) : shiftStep p (a ^^^ b) = shiftStep p a ^^^ shiftStep p b := by
  have hcancel : ∀ x y : BitVec w, x ^^^ p ^^^ (y ^^^ p) = x ^^^ y := by
    intro x y
    rw [BitVec.xor_comm y p, BitVec.xor_assoc x p, ← BitVec.xor_assoc p p, BitVec.xor_self, BitVec.zero_xor]
  unfold shiftStep
  rw [BitVec.msb_xor, BitVec.shiftLeft_xor_distrib]
  cases a.msb <;> cases b.msb
  · rfl
  · exact BitVec.xor_assoc _ _ _
  · calc a <<< 1 ^^^ b <<< 1 ^^^ p
        = a <<< 1 ^^^ (p ^^^ b <<< 1) := by rw [BitVec.xor_assoc, BitVec.xor_comm p]
      _ = a <<< 1 ^^^ p ^^^ b <<< 1 := (BitVec.xor_assoc _ _ _).symm
  · exact (hcancel _ _).symm

theorem shiftStep_iterate_xor (p a b : BitVec w) (n : ℕ) :
    (shiftStep p)^[n] (a ^^^ b) = (shiftStep p)^[n] a ^^^ (shiftStep p)^[n] b := by
  induction n with
  | zero => rfl
  | succ n ih =>
    simp only [Function.iterate_succ_apply']
    rw [ih, shiftStep_xor]

/-- while only zeros fall out, a word just moves -/
theorem shiftStep_iterate_low (p : BitVec w) {v : BitVec w} {n : ℕ} (hn : n ≤ w)
    (hlow : ∀ i, w - n ≤ i → v.getLsbD i = false) : (shiftStep p)^[n] v = v <<< n := by
  induction n with
  | zero => exact (BitVec.shiftLeft_zero v).symm
  | succ n ih =>
    have hmsb : (v <<< n).msb = false := by
      rw [BitVec.msb_eq_getLsbD_last, BitVec.getLsbD_shiftLeft, hlow (w - 1 - n) (by omega), Bool.and_false]
    rw [Function.iterate_succ_apply', ih (by omega) fun i hi => hlow i (by omega), shiftStep, hmsb, BitVec.shiftLeft_add]
    rfl

/-- what the next byte looks up: itself and the high byte of the register -/
def index (v : BitVec w) (b : BitVec 8) : BitVec 8 := (v >>> (w - 8)).setWidth 8 ^^^ b

/-- one look-up for a byte, in a table of words -/
def tableStep (table : BitVec 8 → BitVec w) (v : BitVec w) (b : BitVec 8) : BitVec w := (v <<< 8) ^^^ table (index v b)

/-- the register and the byte that enters it, split below the high byte -/
theorem split_index (hw : 8 ≤ w) (v : BitVec w) (b : BitVec 8) :
    v ^^^ (b.setWidth w <<< (w - 8)) = (0#w ^^^ (index v b).setWidth w <<< (w - 8)) ^^^ (v.setWidth (w - 8)).setWidth w := by
  apply BitVec.eq_of_getLsbD_eq
  intro i hi
  simp only [index, BitVec.getLsbD_xor, BitVec.getLsbD_shiftLeft, BitVec.getLsbD_setWidth, BitVec.getLsbD_ushiftRight,
    BitVec.getLsbD_zero, Bool.false_xor, hi, decide_true, Bool.true_and]
  by_cases hlow : i < w - 8
  · simp [hlow]
  · have hbyte : i - (w - 8) < 8 := by omega
    have hback : w - 8 + (i - (w - 8)) = i := by omega
    have hbound : i - (w - 8) < w := by omega
    simp [hlow, hbyte, hback, hbound]

/-- **A byte at a time from a table** that holds the check of every single byte -/
theorem byteStep_eq_tableStep (hw : 8 ≤ w) {p : BitVec w} {table : BitVec 8 → BitVec w}
    (htable : ∀ i, table i = byteStep p 0 i) (v : BitVec w) (b : BitVec 8) :
    byteStep p v b = tableStep table v b := by
  have hlow : ∀ i, w - 8 ≤ i → ((v.setWidth (w - 8)).setWidth w).getLsbD i = false := by
    intro i hi
    simp [BitVec.getLsbD_setWidth, hi]
  have hmove : (v.setWidth (w - 8)).setWidth w <<< 8 = v <<< 8 := by
    apply BitVec.eq_of_getLsbD_eq
    intro i hi
    simp only [BitVec.getLsbD_shiftLeft, BitVec.getLsbD_setWidth]
    by_cases hsmall : i < 8
    · simp [hsmall]
    · have h1 : i - 8 < w := by omega
      have h2 : i - 8 < w - 8 := by omega
      simp [h1, h2]
  rw [byteStep, split_index hw, shiftStep_iterate_xor, shiftStep_iterate_low p hw hlow, hmove, BitVec.xor_comm, tableStep,
    htable]
  rfl

end Lib.Crc
