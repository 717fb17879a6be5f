import Mathlib.Algebra.Order.Floor.Ring
import SparseCamera.Lib.Binary32

/-!
# Rounding to a number of significant bits

`roundBits p` rounds a positive rational to the nearest number with `p` significant bits, ties to
even, without a bound on the exponent. In the range of the normal numbers this is what a conversion
or an operation of a binary floating-point format with that precision gives.

The numbers with `p` significant bits are `m * 2 ^ e` with `2 ^ (p - 1) ≤ m < 2 ^ p`. What rounds to
at most such a number is what does not exceed it by more than half of the last bit, the midpoint
being included when `m` is even; and what rounds beyond it rounds to the next one at least.
-/

namespace Binary32

/-- Round to `p` significant bits. -/
def roundBits (p : ℕ) (q : ℚ) : ℚ :=
  let e := ilog2 q - (p - 1)
  roundEven (q / 2 ^ e) * 2 ^ e

/-! ## The nearest integer -/

theorem roundEven_le_iff {q : ℚ} (hq : 0 ≤ q) {n : ℕ} (hn : n % 2 = 0) :
    roundEven q ≤ n ↔ q ≤ n + 1 / 2 := by
  have hden : 0 < q.den := q.den_pos
  have hden' : (0 : ℚ) < q.den := by exact_mod_cast hden
  have hdiv := Nat.div_add_mod q.num.toNat q.den
  have hmod := Nat.mod_lt q.num.toNat hden
  -- the right-hand side, with the denominators cleared
  have hiff : q ≤ n + 1 / 2 ↔ 2 * q.num.toNat ≤ (2 * n + 1) * q.den := by
    have hnum : (q.num.toNat : ℚ) = q * q.den := (div_eq_iff hden'.ne').mp (num_toNat_div_den hq)
    have hcast : (2 * q.num.toNat ≤ (2 * n + 1) * q.den) ↔
        (2 * q.num.toNat : ℚ) ≤ (2 * n + 1) * q.den := by exact_mod_cast Iff.rfl
    have hscale : (2 * (q * q.den) ≤ (2 * n + 1) * q.den) ↔ 2 * q ≤ 2 * n + 1 := by
      rw [← mul_assoc, mul_le_mul_iff_left₀ hden']
    rw [hcast, hnum, hscale]
    constructor
    · intro h
      linarith
    · intro h
      linarith
  rw [hiff]
  set k := q.num.toNat / q.den with hk
  set r := q.num.toNat % q.den with hr
  rw [← hdiv, roundEven, ← hk, ← hr]
  rcases Nat.lt_trichotomy k n with hlt | heq | hgt
  · apply iff_of_true (by split_ifs <;> omega)
    have hle : q.den * (k + 1) ≤ q.den * n := Nat.mul_le_mul_left _ hlt
    nlinarith
  · subst heq
    split_ifs with h1 h2
    · exact iff_of_true le_rfl (by nlinarith)
    · exact iff_of_false (by omega) (by nlinarith)
    · exact iff_of_true (by omega) (by nlinarith)
  · have hle : q.den * (n + 1) ≤ q.den * k := Nat.mul_le_mul_left _ hgt
    apply iff_of_false (by split_ifs <;> omega)
    nlinarith

@[simp] theorem roundEven_natCast (n : ℕ) : roundEven n = n :=
  le_antisymm (roundEven_le n.cast_nonneg le_rfl) (le_roundEven n.cast_nonneg le_rfl)

/-! ## The binade

A positive rational lies between two powers of two. Scaled by the lower one it has a significand,
and rounding acts on the significand. It may round up to the next power of two, which is a number
with `p` significant bits as well. -/

section Binade

variable {p : ℕ} {q : ℚ}

theorem significand_bounds (hq : 0 < q) (hp : 0 < p) :
    (2 : ℚ) ^ (p - 1) ≤ q / 2 ^ (ilog2 q - (p - 1)) ∧ q / 2 ^ (ilog2 q - (p - 1)) < 2 ^ p := by
  obtain ⟨hlo, hhi⟩ := ilog2_spec hq
  have hpos : (0 : ℚ) < 2 ^ (ilog2 q - (p - 1) : ℤ) := by positivity
  have hcast : ((p - 1 : ℕ) : ℤ) = p - 1 := by omega
  constructor
  · rw [le_div_iff₀ hpos, ← zpow_natCast, ← zpow_add₀ two_ne_zero, hcast]
    rwa [add_sub_cancel]
  · rw [div_lt_iff₀ hpos, ← zpow_natCast, ← zpow_add₀ two_ne_zero]
    rwa [show (p : ℤ) + (ilog2 q - (p - 1)) = ilog2 q + 1 from by ring]

theorem roundEven_significand (hq : 0 < q) (hp : 0 < p) :
    2 ^ (p - 1) ≤ roundEven (q / 2 ^ (ilog2 q - (p - 1))) ∧
      roundEven (q / 2 ^ (ilog2 q - (p - 1))) ≤ 2 ^ p := by
  obtain ⟨hlo, hhi⟩ := significand_bounds hq hp
  have hnonneg : 0 ≤ q / 2 ^ (ilog2 q - (p - 1)) := by positivity
  refine ⟨le_roundEven hnonneg ?_, roundEven_le hnonneg ?_⟩
  · exact_mod_cast hlo
  · exact_mod_cast hhi.le

theorem roundBits_pos (hq : 0 < q) (hp : 0 < p) : 0 < roundBits p q := by
  have hlo := (roundEven_significand hq hp).1
  have hpos : 0 < roundEven (q / 2 ^ (ilog2 q - (p - 1))) := (Nat.two_pow_pos _).trans_le hlo
  rw [roundBits]
  positivity

theorem roundBits_le_of_lt (hq : 0 < q) (hp : 0 < p) {e : ℤ} (he : ilog2 q - (p - 1) < e) {m : ℕ}
    (hm : 2 ^ (p - 1) ≤ m) : roundBits p q ≤ m * 2 ^ e ∧ q ≤ m * 2 ^ e := by
  have hpow : ((2 ^ p : ℕ) : ℚ) * 2 ^ (ilog2 q - (p - 1)) ≤ m * 2 ^ e := by
    have hsplit : ((2 ^ p : ℕ) : ℚ) * 2 ^ (ilog2 q - (p - 1)) = 2 ^ (ilog2 q + 1) := by
      rw [Nat.cast_pow, Nat.cast_ofNat, ← zpow_natCast, ← zpow_add₀ two_ne_zero]
      congr 1
      ring
    rw [hsplit]
    calc (2 : ℚ) ^ (ilog2 q + 1) ≤ 2 ^ (((p - 1 : ℕ) : ℤ) + e) :=
          zpow_le_zpow_right₀ (by norm_num) (by omega)
      _ = ((2 ^ (p - 1) : ℕ) : ℚ) * 2 ^ e := by
          rw [zpow_add₀ two_ne_zero, zpow_natCast, Nat.cast_pow, Nat.cast_ofNat]
      _ ≤ m * 2 ^ e := by gcongr
  have hpos : (0 : ℚ) < 2 ^ (ilog2 q - (p - 1) : ℤ) := by positivity
  constructor
  · refine le_trans ?_ hpow
    rw [roundBits]
    gcongr
    exact (roundEven_significand hq hp).2
  · refine le_trans ?_ hpow
    rw [← div_le_iff₀ hpos]
    exact_mod_cast (significand_bounds hq hp).2.le

theorem lt_roundBits_of_lt (hq : 0 < q) (hp : 0 < p) {e : ℤ} (he : e < ilog2 q - (p - 1)) {m : ℕ}
    (hm : m < 2 ^ p) : ((m + 1 : ℕ) : ℚ) * 2 ^ e ≤ roundBits p q ∧
      ((m + 1 : ℕ) : ℚ) * 2 ^ e ≤ q := by
  have hpow : ((m + 1 : ℕ) : ℚ) * 2 ^ e ≤ ((2 ^ (p - 1) : ℕ) : ℚ) * 2 ^ (ilog2 q - (p - 1)) := by
    calc ((m + 1 : ℕ) : ℚ) * 2 ^ e ≤ ((2 ^ p : ℕ) : ℚ) * 2 ^ e := by
          gcongr
          exact hm
      _ = 2 ^ ((p : ℤ) + e) := by
          rw [zpow_add₀ two_ne_zero, zpow_natCast, Nat.cast_pow, Nat.cast_ofNat]
      _ ≤ 2 ^ (((p - 1 : ℕ) : ℤ) + (ilog2 q - (p - 1))) :=
          zpow_le_zpow_right₀ (by norm_num) (by omega)
      _ = ((2 ^ (p - 1) : ℕ) : ℚ) * 2 ^ (ilog2 q - (p - 1)) := by
          rw [zpow_add₀ two_ne_zero, zpow_natCast, Nat.cast_pow, Nat.cast_ofNat]
  have hpos : (0 : ℚ) < 2 ^ (ilog2 q - (p - 1) : ℤ) := by positivity
  constructor
  · apply hpow.trans
    rw [roundBits]
    gcongr
    exact (roundEven_significand hq hp).1
  · apply hpow.trans
    rw [← le_div_iff₀ hpos]
    exact_mod_cast (significand_bounds hq hp).1

variable {m : ℕ} {e : ℤ}

/-- **What rounds to at most** a number with an even significand. -/
theorem roundBits_le_iff (hq : 0 < q) (hp : 0 < p) (hlo : 2 ^ (p - 1) ≤ m) (hhi : m < 2 ^ p)
    (heven : m % 2 = 0) : roundBits p q ≤ m * 2 ^ e ↔ q ≤ (m + 1 / 2) * 2 ^ e := by
  have hpos : (0 : ℚ) < 2 ^ e := by positivity
  rcases lt_trichotomy (ilog2 q - (p - 1)) e with hlt | heq | hgt
  · obtain ⟨hround, hle⟩ := roundBits_le_of_lt hq hp hlt hlo
    refine iff_of_true hround (hle.trans ?_)
    gcongr
    norm_num
  · have hnonneg : 0 ≤ q / 2 ^ e := by positivity
    rw [roundBits, heq, mul_le_mul_iff_left₀ hpos, Nat.cast_le, roundEven_le_iff hnonneg heven,
      div_le_iff₀ hpos]
  · obtain ⟨hround, hle⟩ := lt_roundBits_of_lt hq hp hgt hhi
    have hhalf : ((m : ℚ) + 1 / 2) * 2 ^ e < ((m + 1 : ℕ) : ℚ) * 2 ^ e := by
      gcongr
      push_cast
      norm_num
    have hnext : (m : ℚ) * 2 ^ e < ((m + 1 : ℕ) : ℚ) * 2 ^ e := by
      gcongr
      exact Nat.lt_succ_self m
    exact iff_of_false (not_le.mpr (hnext.trans_le hround)) (not_le.mpr (hhalf.trans_le hle))

/-- **What rounds beyond** a number rounds to the next one at least. -/
theorem succ_le_roundBits (hq : 0 < q) (hp : 0 < p) (hlo : 2 ^ (p - 1) ≤ m) (hhi : m < 2 ^ p)
    (h : (m : ℚ) * 2 ^ e < roundBits p q) : ((m + 1 : ℕ) : ℚ) * 2 ^ e ≤ roundBits p q := by
  have hpos : (0 : ℚ) < 2 ^ e := by positivity
  rcases lt_trichotomy (ilog2 q - (p - 1)) e with hlt | heq | hgt
  · exact absurd (roundBits_le_of_lt hq hp hlt hlo).1 (not_le.mpr h)
  · rw [roundBits, heq, mul_lt_mul_iff_left₀ hpos, Nat.cast_lt] at h
    rw [roundBits, heq]
    gcongr
    exact h
  · exact (lt_roundBits_of_lt hq hp hgt hhi).1

theorem roundBits_natCast {n : ℕ} (hn : 0 < n) (hlt : n < 2 ^ p) : roundBits p n = n := by
  have hq : (0 : ℚ) < n := by exact_mod_cast hn
  have hlog : ilog2 (n : ℚ) < p := by
    have hpow : (2 : ℚ) ^ ilog2 (n : ℚ) < 2 ^ (p : ℤ) := by
      apply (ilog2_spec hq).1.trans_lt
      rw [zpow_natCast]
      exact_mod_cast hlt
    exact (zpow_lt_zpow_iff_right₀ (by norm_num)).mp hpow
  -- no bit is cut off
  obtain ⟨k, hk⟩ : ∃ k : ℕ, ilog2 (n : ℚ) - (p - 1) = -k :=
    ⟨(p - 1 - ilog2 (n : ℚ)).toNat, by omega⟩
  have hsig : (n : ℚ) / 2 ^ (-k : ℤ) = ((n * 2 ^ k : ℕ) : ℚ) := by
    rw [zpow_neg, div_inv_eq_mul, zpow_natCast]
    push_cast
    rfl
  rw [roundBits, hk, hsig, roundEven_natCast, ← hsig, div_mul_cancel₀]
  positivity

@[simp] theorem roundBits_zero (p : ℕ) : roundBits p 0 = 0 := by
  have hzero : roundEven (0 / 2 ^ (ilog2 0 - (p - 1))) = 0 := by
    rw [zero_div]
    exact_mod_cast roundEven_natCast 0
  rw [roundBits, hzero, Nat.cast_zero, zero_mul]

theorem zpow_le_roundBits (hp : 0 < p) {k : ℤ} (h : 2 ^ k ≤ q) : 2 ^ k ≤ roundBits p q := by
  have hq : 0 < q := lt_of_lt_of_le (by positivity) h
  have hlog : k ≤ ilog2 q := by
    have hlt := (zpow_lt_zpow_iff_right₀ (by norm_num)).mp (h.trans_lt (ilog2_spec hq).2)
    omega
  calc (2 : ℚ) ^ k ≤ 2 ^ (((p - 1 : ℕ) : ℤ) + (ilog2 q - (p - 1))) :=
        zpow_le_zpow_right₀ (by norm_num) (by omega)
    _ = ((2 ^ (p - 1) : ℕ) : ℚ) * 2 ^ (ilog2 q - (p - 1)) := by
        rw [zpow_add₀ two_ne_zero, zpow_natCast, Nat.cast_pow, Nat.cast_ofNat]
    _ ≤ roundBits p q := by
        rw [roundBits]
        gcongr
        exact (roundEven_significand hq hp).1

theorem roundBits_le_two_mul (hq : 0 < q) (hp : 0 < p) : roundBits p q ≤ 2 * q := by
  calc roundBits p q ≤ ((2 ^ p : ℕ) : ℚ) * 2 ^ (ilog2 q - (p - 1)) := by
        rw [roundBits]
        gcongr
        exact (roundEven_significand hq hp).2
    _ = 2 * 2 ^ ilog2 q := by
        rw [Nat.cast_pow, Nat.cast_ofNat, ← zpow_natCast, ← zpow_add₀ two_ne_zero,
          ← zpow_one_add₀ two_ne_zero]
        congr 1
        ring
    _ ≤ 2 * q := by
        gcongr
        exact (ilog2_spec hq).1

end Binade

/-! ## The normal numbers

A format has a smallest exponent and a largest one. Away from both it rounds as if there were
none. -/

/-- In the range of the normal numbers rounding does not see the limits of the exponent. -/
theorem toRat_ofRat_normal {q : ℚ} (hlo : 2 ^ (-126 : ℤ) ≤ q) (hhi : q < 2 ^ (126 : ℤ)) :
    (ofRat q).isFinite = true ∧ (ofRat q).toRat = roundBits 24 q := by
  have hq : 0 < q := lt_of_lt_of_le (by positivity) hlo
  obtain ⟨hfin, hval⟩ := toRat_ofRat hq hhi
  refine ⟨hfin, ?_⟩
  have hlog : -126 ≤ ilog2 q := by
    have hlt : (2 : ℚ) ^ (-126 : ℤ) < 2 ^ (ilog2 q + 1) := hlo.trans_lt (ilog2_spec hq).2
    have := (zpow_lt_zpow_iff_right₀ (by norm_num : (1 : ℚ) < 2)).mp hlt
    omega
  have hscale : scale q = ilog2 q - ((24 : ℕ) - 1) := by
    rw [scale]
    push_cast
    omega
  rw [hval, roundBits, hscale]

theorem toRat_ofNat {n : ℕ} (hlt : n < 2 ^ 126) : (ofNat n).toRat = roundBits 24 n := by
  rcases Nat.eq_zero_or_pos n with rfl | hpos
  · rw [ofNat, Nat.cast_zero, roundBits_zero]
    decide +kernel
  · refine (toRat_ofRat_normal ?_ ?_).2
    · calc (2 : ℚ) ^ (-126 : ℤ) ≤ 1 := by norm_num
        _ ≤ n := by exact_mod_cast hpos
    · exact_mod_cast hlt

theorem toRat_ofNat_of_lt {n : ℕ} (hlt : n < 2 ^ 24) : (ofNat n).toRat = n := by
  rw [toRat_ofNat (hlt.trans (by norm_num))]
  rcases Nat.eq_zero_or_pos n with rfl | hpos
  · rw [Nat.cast_zero, roundBits_zero]
  · exact roundBits_natCast hpos hlt

end Binary32
